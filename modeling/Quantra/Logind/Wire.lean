import Quantra.Lib.Json
import Quantra.Logind.Control

/-! The JSON of the control socket, as the derived instances of `types.rs` write and read it. -/
namespace Quantra.Logind
open Json

def SessionType.name : SessionType → String
  | .tty => "tty"
  | .x11 => "x11"
  | .wayland => "wayland"
  | .mir => "mir"
  | .remote => "remote"
  | .unspecified => "unspecified"

def SessionClass.name : SessionClass → String
  | .user => "user"
  | .greeter => "greeter"
  | .lockScreen => "lockscreen"
  | .background => "background"

def SessionState.name : SessionState → String
  | .opening => "opening"
  | .active => "active"
  | .online => "online"
  | .closing => "closing"

def UserState.name : UserState → String
  | .offline => "offline"
  | .lingering => "lingering"
  | .online => "online"
  | .active => "active"
  | .closing => "closing"

def DeviceKind.name : DeviceKind → String
  | .drm => "drm"
  | .evdev => "evdev"
  | .sound => "sound"
  | .other => "other"

def InhibitWhat.name : InhibitWhat → String
  | .shutdown => "shutdown"
  | .sleep => "sleep"
  | .idle => "idle"
  | .handlePowerKey => "handle-power-key"
  | .handleSuspendKey => "handle-suspend-key"
  | .handleHibernateKey => "handle-hibernate-key"
  | .handleLidSwitch => "handle-lid-switch"
  | .handleRebootKey => "handle-reboot-key"

def InhibitMode.name : InhibitMode → String
  | .block => "block"
  | .delay => "delay"

def CanDo.name : CanDo → String
  | .yes => "yes"
  | .no => "no"
  | .challenge => "challenge"
  | .na => "na"

def uidJson (uid : Uid) : Json := .uint uid.toNat

def Session.toJson (s : Session) : Json :=
  .obj [("id", .uint s.id), ("uid", uidJson s.uid), ("username", .str s.username),
    ("seat", ofOption .str s.seat), ("vt_number", ofOption .uint s.vtNumber),
    ("tty", ofOption .str s.tty), ("display", ofOption .str s.display),
    ("session_type", .str s.sessionType.name), ("session_class", .str s.sessionClass.name),
    ("state", .str s.state.name), ("leader_pid", .uint s.leaderPid),
    ("audit_id", ofOption .uint s.auditId), ("service", ofOption .str s.service),
    ("scope", .str s.scope), ("created_at", .uint s.createdAt), ("remote", .bool s.remote),
    ("remote_host", ofOption .str s.remoteHost), ("remote_user", ofOption .str s.remoteUser),
    ("runtime_dir", .str s.runtimeDir), ("idle_hint", .bool s.idleHint),
    ("idle_since", ofOption .uint s.idleSince), ("locked_hint", .bool s.lockedHint)]

def UserRecord.toJson (u : UserRecord) : Json :=
  .obj [("uid", uidJson u.uid), ("username", .str u.username),
    ("session_ids", ofList .uint u.sessionIds), ("linger", .bool u.linger),
    ("runtime_dir", .str u.runtimeDir), ("runtime_dir_size", .uint u.runtimeDirSize),
    ("state", .str u.state.name), ("first_login", .uint u.firstLogin),
    ("last_login", .uint u.lastLogin), ("slice", .str u.slice),
    ("display_session", ofOption .uint u.displaySession)]

def SeatDevice.toJson (d : SeatDevice) : Json :=
  .obj [("path", .str d.path), ("kind", .str d.kind.name), ("fd", ofOption ofInt d.fd),
    ("paused", .bool d.paused)]

def Seat.toJson (s : Seat) : Json :=
  .obj [("id", .str s.id), ("active_session", ofOption .uint s.activeSession),
    ("sessions", ofList .uint s.sessions), ("devices", ofList SeatDevice.toJson s.devices),
    ("can_graphical", .bool s.canGraphical), ("can_tty", .bool s.canTty),
    ("idle_hint", .bool s.idleHint)]

def Inhibitor.toJson (i : Inhibitor) : Json :=
  .obj [("id", .uint i.id), ("what", ofList (.str ·.name) i.what), ("who", .str i.who),
    ("why", .str i.why), ("mode", .str i.mode.name), ("uid", uidJson i.uid), ("pid", .uint i.pid),
    ("created", .uint i.created)]

/-- `CARGO_PKG_VERSION`. -/
def pkgVersion : String := "6.0.1"

def Data.toJson : Data → Json
  | .opened id dir seatId =>
    .obj [("session_id", .uint id), ("runtime_dir", .str dir), ("seat", .str seatId)]
  | .sessions ss => ofList Session.toJson ss
  | .session s => s.toJson
  | .user u => u.toJson
  | .users us => ofList UserRecord.toJson us
  | .seats ss => ofList Seat.toJson ss
  | .seat s => s.toJson
  | .device fd paused => .obj [("fd", ofInt fd), ("paused", .bool paused)]
  | .inhibitor id => .obj [("inhibitor_id", .uint id)]
  | .inhibitors is => ofList Inhibitor.toJson is
  | .canDo answer => .str answer.name
  | .value v => .obj [("value", .uint v)]
  | .status numSessions numUsers seatIds numInhibitors canSuspend canHibernate =>
    .obj [("version", .str pkgVersion), ("sessions", .uint numSessions), ("users", .uint numUsers),
      ("seats", ofList .str seatIds), ("inhibitors", .uint numInhibitors),
      ("can_suspend", .bool canSuspend), ("can_hibernate", .bool canHibernate)]
  | .version =>
    .obj [("version", .str pkgVersion), ("protocol", .str "quantra-logind/2.0"),
      ("compat", .arr [.str "systemd-logind/261"])]

/-- The fields without a value are left out. -/
def Response.toJson : Response → Json
  | .ok data => .obj [("ok", .bool true), ("data", data.toJson)]
  | .okEmpty => .obj [("ok", .bool true)]
  | .err msg => .obj [("ok", .bool false), ("error", .str msg)]

def asUid (j : Json) : Option Uid := j.asU32.map UInt32.ofNat

/-- A variant is read by its name. -/
def asVariant {α : Type} (variants : List α) (name : α → String) (j : Json) : Option α :=
  j.asStr.bind fun s => variants.find? fun a => name a = s

def SessionType.ofJson : Json → Option SessionType :=
  asVariant [.tty, .x11, .wayland, .mir, .remote, .unspecified] SessionType.name

def SessionClass.ofJson : Json → Option SessionClass :=
  asVariant [.user, .greeter, .lockScreen, .background] SessionClass.name

def InhibitWhat.ofJson : Json → Option InhibitWhat :=
  asVariant [.shutdown, .sleep, .idle, .handlePowerKey, .handleSuspendKey, .handleHibernateKey,
    .handleLidSwitch, .handleRebootKey] InhibitWhat.name

def InhibitMode.ofJson : Json → Option InhibitMode := asVariant [.block, .delay] InhibitMode.name

/-- The class may be left out. -/
def OpenSession.ofJson (j : Json) : Option OpenSession := do
  let sessionClass ← match j.get "session_class" with
    | none => some SessionClass.user
    | some c => SessionClass.ofJson c
  some
    { uid := ← j.field "uid" asUid
      username := ← j.field "username" asStr
      leaderPid := ← j.field "leader_pid" asU32
      sessionType := ← j.field "session_type" SessionType.ofJson
      sessionClass := sessionClass
      tty := ← j.field? "tty" asStr
      display := ← j.field? "display" asStr
      remoteHost := ← j.field? "remote_host" asStr
      remoteUser := ← j.field? "remote_user" asStr
      service := ← j.field? "service" asStr
      vt := ← j.field? "vt" asU32 }

def TakeInhibitor.ofJson (j : Json) : Option TakeInhibitor := do
  some
    { what := ← j.field "what" (toList InhibitWhat.ofJson)
      who := ← j.field "who" asStr
      why := ← j.field "why" asStr
      mode := ← j.field "mode" InhibitMode.ofJson
      uid := ← j.field "uid" asUid
      pid := ← j.field "pid" asU32 }

/-- The request with the given `cmd`, from the other fields of the object. -/
def Request.ofFields (j : Json) (cmd : String) : Option Request :=
  let session := j.field "session_id" asU64
  let uid := j.field "uid" asUid
  let interactive := j.field "interactive" asBool
  let str := fun name => j.field name asStr
  match cmd with
  | "open_session" => (OpenSession.ofJson j).map .openSession
  | "close_session" => session.map .closeSession
  | "activate_session" => session.map .activateSession
  | "lock_session" => session.map .lockSession
  | "unlock_session" => session.map .unlockSession
  | "lock_sessions" => some .lockSessions
  | "unlock_sessions" => some .unlockSessions
  | "list_sessions" => some .listSessions
  | "get_session" => session.map .getSession
  | "get_session_by_pid" => (j.field "pid" asU32).map .getSessionByPid
  | "set_idle_hint" => return .setIdleHint (← session) (← j.field "idle" asBool)
  | "set_locked_hint" => return .setLockedHint (← session) (← j.field "locked" asBool)
  | "set_linger" => return .setLinger (← uid) (← j.field "enable" asBool)
  | "get_user" => uid.map .getUser
  | "list_users" => some .listUsers
  | "terminate_user" => uid.map .terminateUser
  | "list_seats" => some .listSeats
  | "get_seat" => (str "seat_id").map .getSeat
  | "activate_session_on_seat" => return .activateSessionOnSeat (← session) (← str "seat_id")
  | "switch_to" => (j.field "vt_number" asU32).map .switchTo
  | "take_device" => return .takeDevice (← str "seat_id") (← str "devpath")
  | "release_device" => return .releaseDevice (← str "seat_id") (← str "devpath")
  | "take_inhibitor" => (TakeInhibitor.ofJson j).map .takeInhibitor
  | "release_inhibitor" => (j.field "inhibitor_id" asU64).map .releaseInhibitor
  | "list_inhibitors" => some .listInhibitors
  | "power_off" => interactive.map .powerOff
  | "reboot" => interactive.map .reboot
  | "reboot_to_firmware_setup" => interactive.map .rebootToFirmwareSetup
  | "halt" => interactive.map .halt
  | "suspend" => interactive.map .suspend
  | "hibernate" => interactive.map .hibernate
  | "hybrid_sleep" => interactive.map .hybridSleep
  | "suspend_then_hibernate" => interactive.map .suspendThenHibernate
  | "can_power_off" => some .canPowerOff
  | "can_reboot" => some .canReboot
  | "can_suspend" => some .canSuspend
  | "can_hibernate" => some .canHibernate
  | "can_hybrid_sleep" => some .canHybridSleep
  | "can_suspend_then_hibernate" => some .canSuspendThenHibernate
  | "set_brightness" =>
    return .setBrightness (← str "subsystem") (← str "name") (← j.field "value" asU32)
  | "get_brightness" => return .getBrightness (← str "subsystem") (← str "name")
  | "schedule_shutdown" => return .scheduleShutdown (← str "action") (← j.field "usec" asU64)
  | "cancel_scheduled_shutdown" => some .cancelScheduledShutdown
  | "subscribe" => some .subscribe
  | "status" => some .status
  | "version" => some .version
  | _ => none

/-- A request is an object, with no field twice. -/
def Request.ofJson (j : Json) : Option Request := (j.field "cmd" asStr).bind (ofFields j)

/-- One frame of a connection; `e` is what serde says of a request that it cannot read. -/
def State.answer (config : LogindConfig) (s : State) (peer : Uid) (e : String) (out : Outside)
    (j : Json) : Json × State :=
  match Request.ofJson j with
  | none => ((Response.err ("JSON parse: " ++ e)).toJson, s)
  | some req =>
    let r := s.handle config peer req out
    (r.1.toJson, r.2)

theorem asUid_uidJson (uid : Uid) : asUid (uidJson uid) = some uid := by
  have h : uid.toNat < 2 ^ 32 := uid.toNat_lt
  unfold asUid uidJson asU32 asU64
  rw [Option.filter_some, if_pos (decide_eq_true h), Option.map_some, UInt32.ofNat_toNat]

theorem asU32_uint {n : ℕ} (h : n < 2 ^ 32) : asU32 (.uint n) = some n := by
  unfold asU32 asU64
  rw [Option.filter_some, if_pos (decide_eq_true h)]

theorem InhibitWhat.ofJson_name (w : InhibitWhat) : InhibitWhat.ofJson (.str w.name) = some w := by
  cases w <;> rfl

theorem InhibitMode.ofJson_name (m : InhibitMode) : InhibitMode.ofJson (.str m.name) = some m := by
  cases m <;> rfl

end Quantra.Logind
