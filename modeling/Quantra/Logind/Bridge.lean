import Quantra.Logind.Access
import Quantra.Logind.Wire

/-! `dbus_bridge.rs`: the methods and objects of `org.freedesktop.login1` that go through the control
socket. -/
namespace Quantra.Logind
open Runs Locks Json

inductive MethodError
  | invalidArgs (msg : String)
  | failed (msg : String)
  deriving DecidableEq, Repr

/-- What becomes of a request on the control socket: it is not handled, or its response does not
come back, or it does. -/
inductive Transport
  | unsent (e : String)
  | lost (e : String)
  | answered
  deriving DecidableEq, Repr

/-- The process of the bridge, and the answers of the system to one call. -/
structure BridgeEnv where
  pid : UInt32
  socketpair : Except String Unit := .ok ()
  transport : Transport := .answered
  parseError : String := ""
  out : Outside := {}

/-- The bridge runs as root. -/
def callLogind (config : LogindConfig) (env : BridgeEnv) (request : Json) (s : State) :
    Except String Json × State :=
  let r := s.answer config 0 env.parseError env.out request
  match env.transport with
  | .unsent e => (.error e, s)
  | .lost e => (.error e, r.2)
  | .answered => (.ok r.1, r.2)

/-! `Inhibit`. An argument is what `as_str` gives for it. -/

def whatOf : String → Option InhibitWhat
  | "shutdown" => some .shutdown
  | "sleep" => some .sleep
  | "idle" => some .idle
  | "handle-power-key" => some .handlePowerKey
  | "handle-suspend-key" => some .handleSuspendKey
  | "handle-hibernate-key" => some .handleHibernateKey
  | "handle-lid-switch" => some .handleLidSwitch
  | "handle-reboot-key" => some .handleRebootKey
  | _ => none

def modeOf : String → InhibitMode
  | "delay" => .delay
  | _ => .block

def stringArg (name : String) (arg : Option String) : Except MethodError String :=
  match arg with
  | some s => .ok s
  | none => .error (.invalidArgs (name ++ " must be string"))

def inhibitArgs (pid : UInt32) : List (Option String) → Except MethodError TakeInhibitor
  | what :: who :: why :: mode :: _ => do
    let what ← stringArg "what" what
    let who ← stringArg "who" who
    let why ← stringArg "why" why
    let mode ← stringArg "mode" mode
    let kinds := (Text.split ':' what).filterMap whatOf
    if kinds.isEmpty then .error (.invalidArgs "Invalid 'what' inhibitors")
    else .ok ⟨kinds, who, why, modeOf mode, 0, pid.toNat⟩
  | _ => .error (.invalidArgs "Expected 4 string arguments")

def takeInhibitorJson (args : TakeInhibitor) : Json :=
  .obj [("cmd", .str "take_inhibitor"), ("what", ofList (.str ·.name) args.what),
    ("who", .str args.who), ("why", .str args.why), ("mode", .str args.mode.name),
    ("uid", uidJson args.uid), ("pid", .uint args.pid)]

def releaseInhibitorJson (id : InhibitorId) : Json :=
  .obj [("cmd", .str "release_inhibitor"), ("inhibitor_id", .uint id)]

def readInhibitorId (resp : Json) : Except MethodError InhibitorId :=
  if (resp.field "ok" asBool).getD false then
    match resp.field "data" asU64 with
    | some id => .ok id
    | none => .error (.failed "Missing inhibitor ID in response")
  else .error (.failed ((resp.field "error" asStr).getD "Unknown error"))

/-- The descriptor that is returned stands for the inhibitor that its watcher is to release. -/
def inhibit (config : LogindConfig) (env : BridgeEnv) (args : List (Option String)) (s : State) :
    Except MethodError InhibitorId × State :=
  match inhibitArgs env.pid args, env.socketpair with
  | .error e, _ => (.error e, s)
  | .ok _, .error e => (.error (.failed ("socketpair: " ++ e)), s)
  | .ok request, .ok _ =>
    match callLogind config env (takeInhibitorJson request) s with
    | (.error e, s) => (.error (.failed e), s)
    | (.ok resp, s) => (readInhibitorId resp, s)

/-- What the watcher does when the other end is closed. -/
def peerClosed (config : LogindConfig) (env : BridgeEnv) (id : InhibitorId) (s : State) : State :=
  (callLogind config env (releaseInhibitorJson id) s).2

/-! The lists. -/

def seatPath (id : String) : String := "/org/freedesktop/login1/seat/" ++ id

def userPath (uid : ℕ) : String := "/org/freedesktop/login1/user/_" ++ toString uid

def sessionPath (id : ℕ) : String := "/org/freedesktop/login1/session/_" ++ toString id

def listSeatsJson : Json := .obj [("cmd", .str "list_seats")]

def listUsersJson : Json := .obj [("cmd", .str "list_users")]

def listSessionsJson : Json := .obj [("cmd", .str "list_sessions")]

/-- An object that the bridge puts on the bus. -/
inductive BusObject
  | seat (id : String)
  | user (uid : Uid)
  | session (id : SessionId)
  deriving DecidableEq, Repr

section Lists
-- `ObjectPath::new`
variable (objectPath : String → Except String Unit)

/-- One object for every item of the response that can be read and whose path is one. -/
def registered {α : Type} (read : Json → Option α) (path : α → String) (object : α → BusObject)
    (resp : Except String Json) : List BusObject :=
  match resp with
  | .error _ => []
  | .ok resp =>
    (((resp.field "data" (items read)).getD []).filter fun a => (objectPath (path a)).isOk).map object

def readSeat : Json → Option String := asStr

def readUser (user : Json) : Option ℕ := user.field "uid" asU64

def readSession (session : Json) : Option SessionId := session.field "id" asU64

/-- The objects for the responses to the three lists. -/
def registerInitialObjects (seats users sessions : Except String Json) : List BusObject :=
  registered objectPath readSeat seatPath .seat seats ++
    registered objectPath readUser userPath (fun uid => .user (UInt32.ofNat uid)) users ++
    registered objectPath readSession sessionPath .session sessions

def seatElement (seat : Json) : Except MethodError (String × String) :=
  let id := seat.asStr.getD ""
  match objectPath (seatPath id) with
  | .error e => .error (.failed e)
  | .ok _ => .ok (id, seatPath id)

def listSeats (resp : Except String Json) : Except MethodError (List (String × String)) :=
  match resp with
  | .error e => .error (.failed e)
  | .ok resp =>
    match resp.field "data" asArray with
    | none => .error (.failed "Invalid response format")
    | some data => data.mapM (seatElement objectPath)

end Lists

/-! The lifetime of an inhibitor. -/

/-- The process of the bridge, which is that of the control server, is never found dead. -/
def Lives (pid : UInt32) (_ : LogindMachine) : Event Thread Task → Prop
  | .start _ (.gc pidExists) => pidExists pid.toNat = true
  | _ => True

/-- What `Inhibit` promises: a descriptor for each new inhibitor, which is held until the other end
is first closed, and no inhibitor with an error. -/
structure InhibitLaw (config : LogindConfig) (env : BridgeEnv) (args : List (Option String))
    (M : LogindMachine) : Prop where
  descriptor : ∀ id, (inhibit config env args M.shared).1 = .ok id ↔
    M.shared.inhibitors.inhibitors.get? id = none ∧
      ((inhibit config env args M.shared).2.inhibitors.inhibitors.get? id).isSome
  held : ∀ id, (inhibit config env args M.shared).1 = .ok id →
    ∀ N, Reach (system config).step (Lives env.pid)
        { M with shared := (inhibit config env args M.shared).2 } N →
      (N.shared.inhibitors.inhibitors.get? id).isSome ∧
        ∀ env', env'.transport = .answered →
          (peerClosed config env' id N.shared).inhibitors.inhibitors.get? id = none
  unchanged : ∀ e, (inhibit config env args M.shared).1 = .error e →
    ∀ id, (inhibit config env args M.shared).2.inhibitors.inhibitors.get? id =
      M.shared.inhibitors.inhibitors.get? id

/-- There are four strings, and the first names something to inhibit. -/
def InOrder (args : List (Option String)) : Prop :=
  ∃ what who why mode rest, args = some what :: some who :: some why :: some mode :: rest ∧
    ∃ part ∈ Text.split ':' what, (whatOf part).isSome

/-- The request of the call is handled: the arguments are in order, there is a pair of sockets, and
the control server gets the request. -/
structure Served (env : BridgeEnv) (args : List (Option String)) : Prop where
  args : InOrder args
  socketpair : env.socketpair = .ok ()
  sent : ∀ e, env.transport ≠ .unsent e

section Inhibit
variable {config : LogindConfig} {env : BridgeEnv} {args : List (Option String)} {s : State}

/-- The control server reads the request that the bridge writes. -/
theorem ofJson_takeInhibitorJson {request : TakeInhibitor} (hpid : request.pid < 2 ^ 32) :
    Request.ofJson (takeInhibitorJson request) = some (.takeInhibitor request) := by
  have hwhat : (ofList (.str ·.name) request.what).toList InhibitWhat.ofJson = some request.what :=
    toList_ofList InhibitWhat.ofJson_name _
  have hargs : TakeInhibitor.ofJson (takeInhibitorJson request) = some request := by
    unfold TakeInhibitor.ofJson takeInhibitorJson
    simp [hwhat, InhibitMode.ofJson_name, asUid_uidJson, asU32_uint hpid, asStr]
  have hcmd : (takeInhibitorJson request).field "cmd" asStr = some "take_inhibitor" := rfl
  unfold Request.ofJson
  rw [hcmd, Option.bind_some]
  unfold Request.ofFields
  dsimp only
  rw [hargs]
  rfl

theorem answer_takeInhibitorJson {request : TakeInhibitor} (hpid : request.pid < 2 ^ 32)
    (e : String) (out : Outside) (s : State) :
    s.answer config 0 e out (takeInhibitorJson request) =
      ((Response.ok (.inhibitor s.inhibitors.nextId)).toJson,
        { s with inhibitors := (s.inhibitors.take request out.now).2 }) := by
  unfold State.answer
  rw [ofJson_takeInhibitorJson hpid]
  rfl

/-- The control server answers with an object, in which the bridge looks for a number. -/
theorem readInhibitorId_inhibitor (id : InhibitorId) :
    readInhibitorId (Response.ok (.inhibitor id)).toJson =
      .error (.failed "Missing inhibitor ID in response") := rfl

theorem filterMap_whatOf_eq_nil_iff (what : String) :
    (Text.split ':' what).filterMap whatOf = [] ↔
      ¬∃ part ∈ Text.split ':' what, (whatOf part).isSome := by
  rw [List.filterMap_eq_nil_iff]
  simp [Option.isSome_iff_ne_none]

theorem inhibitArgs_of_inOrder (pid : UInt32) (h : InOrder args) :
    ∃ request, inhibitArgs pid args = .ok request ∧ request.pid = pid.toNat := by
  obtain ⟨what, who, why, mode, rest, rfl, hpart⟩ := h
  have hkinds : ((Text.split ':' what).filterMap whatOf).isEmpty = false := by
    rw [List.isEmpty_eq_false_iff, Ne, filterMap_whatOf_eq_nil_iff]
    exact not_not_intro hpart
  refine ⟨⟨(Text.split ':' what).filterMap whatOf, who, why, modeOf mode, 0, pid.toNat⟩, ?_, rfl⟩
  unfold inhibitArgs
  simp only [stringArg]
  exact if_neg (by rw [hkinds]; exact Bool.false_ne_true)

theorem inhibitArgs_of_not_inOrder (pid : UInt32) (h : ¬InOrder args) :
    ∃ e, inhibitArgs pid args = .error e := by
  unfold inhibitArgs
  split
  · rename_i what who why mode rest
    cases what with
    | none => exact ⟨_, rfl⟩
    | some what =>
      cases who with
      | none => exact ⟨_, rfl⟩
      | some who =>
        cases why with
        | none => exact ⟨_, rfl⟩
        | some why =>
          cases mode with
          | none => exact ⟨_, rfl⟩
          | some mode =>
            have hkinds : (Text.split ':' what).filterMap whatOf = [] := by
              rw [filterMap_whatOf_eq_nil_iff]
              exact fun hpart => h ⟨what, who, why, mode, rest, rfl, hpart⟩
            simp only [stringArg]
            exact ⟨_, if_pos (by rw [hkinds]; rfl)⟩
  · exact ⟨_, rfl⟩

/-- A request that is handled is registered, and the call fails. -/
theorem inhibit_of_served (config : LogindConfig) (h : Served env args) (s : State) :
    ∃ e request, inhibit config env args s =
      (.error e, { s with inhibitors := (s.inhibitors.take request env.out.now).2 }) := by
  obtain ⟨request, hrequest, hpid⟩ := inhibitArgs_of_inOrder env.pid h.args
  have hlt : request.pid < 2 ^ 32 := hpid ▸ env.pid.toNat_lt
  unfold inhibit callLogind
  rw [hrequest, h.socketpair]
  dsimp only
  rw [answer_takeInhibitorJson hlt]
  cases htransport : env.transport with
  | unsent e => exact absurd htransport (h.sent e)
  | lost e => exact ⟨.failed e, request, rfl⟩
  | answered => exact ⟨_, request, congrArg (·, _) (readInhibitorId_inhibitor _)⟩

theorem inhibit_of_not_served (config : LogindConfig) (h : ¬Served env args) (s : State) :
    ∃ e, inhibit config env args s = (.error e, s) := by
  by_cases hargs : InOrder args
  · obtain ⟨request, hrequest, -⟩ := inhibitArgs_of_inOrder env.pid hargs
    unfold inhibit callLogind
    rw [hrequest]
    cases hpair : env.socketpair with
    | error e => exact ⟨_, rfl⟩
    | ok _ =>
      cases htransport : env.transport with
      | unsent e => exact ⟨_, rfl⟩
      | lost _ | answered => exact absurd ⟨hargs, hpair, by simp [htransport]⟩ h
  · obtain ⟨e, he⟩ := inhibitArgs_of_not_inOrder env.pid hargs
    unfold inhibit
    rw [he]
    exact ⟨e, rfl⟩

theorem not_inhibitLaw_of_served {M : LogindMachine} (hfresh : M.shared.inhibitors.Fresh)
    (h : Served env args) : ¬InhibitLaw config env args M := by
  intro hlaw
  obtain ⟨e, request, hinhibit⟩ := inhibit_of_served config h M.shared
  have hsame := hlaw.unchanged e (by rw [hinhibit]) M.shared.inhibitors.nextId
  rw [hinhibit, hfresh _ le_rfl] at hsame
  simp [InhibitorManager.take, InhibitorManager.taken] at hsame

theorem inhibitLaw_of_not_served {M : LogindMachine} (h : ¬Served env args) :
    InhibitLaw config env args M := by
  obtain ⟨e, hinhibit⟩ := inhibit_of_not_served config h M.shared
  constructor
  · intro id
    rw [hinhibit]
    refine iff_of_false (fun hok => by cases hok) ?_
    rintro ⟨hnone, hsome⟩
    rw [hnone] at hsome
    cases hsome
  · intro id hok
    rw [hinhibit] at hok
    cases hok
  · intro _ _ id
    rw [hinhibit]

end Inhibit

/-- In every state that the threads of the program can reach, `Inhibit` keeps its promise exactly if
its request is not handled. -/
theorem inhibitLaw_iff (config : LogindConfig) (boot : Boot) {M : LogindMachine}
    (hreach : Reach (system config).step (fun _ _ => True) (LogindMachine.init config boot) M)
    (env : BridgeEnv) (args : List (Option String)) :
    InhibitLaw config env args M ↔ ¬Served env args := by
  have hfresh : M.shared.inhibitors.Fresh := InhibitorManager.fresh_of_reach hreach
  constructor
  · intro hlaw hserved
    exact not_inhibitLaw_of_served hfresh hserved hlaw
  · intro hserved
    exact inhibitLaw_of_not_served hserved

/-- An editor blocks the shutdown. -/
def editorInhibits : List (Option String) :=
  [some "shutdown", some "editor", some "unsaved files", some "block"]

theorem inhibitLaw_editorInhibits_unsent :
    InhibitLaw {} { pid := 400, transport := .unsent "Connection refused" } editorInhibits
      (LogindMachine.init {} {}) := by
  refine (inhibitLaw_iff {} {} .refl _ editorInhibits).2 fun hserved => ?_
  exact hserved.sent "Connection refused" rfl

theorem not_inhibitLaw_editorInhibits :
    ¬InhibitLaw {} { pid := 400 } editorInhibits (LogindMachine.init {} {}) := by
  refine not_inhibitLaw_of_served (fun _ _ => rfl) ⟨?_, rfl, by simp⟩
  exact ⟨_, _, _, _, _, rfl, "shutdown", by decide, rfl⟩

/-! The format of the lists. -/

theorem SeatManager.list_modify {sm : SeatManager} {seatId : String} {f : Seat → Seat}
    {hf : ∀ seat, (f seat).id = seat.id} :
    ({ sm with seats := sm.seats.modify seatId f hf } : SeatManager).list = sm.list :=
  Table.map_key_modify hf

/-- The seats are always the ones that were there at first. -/
theorem list_perform (o : Op) (s : State) : (perform o s).2.seats.list = s.seats.list := by
  cases o with
  | addSession seatId sid | removeSession seatId sid => exact SeatManager.list_modify
  | activateOnSeat seatId sid =>
    change (s.seats.activate seatId sid).2.list = s.seats.list
    unfold SeatManager.activate
    split
    · rfl
    · split
      · exact SeatManager.list_modify
      · rfl
  | takeDevice seatId devpath opened =>
    change (s.seats.takeDevice seatId devpath opened).2.list = s.seats.list
    unfold SeatManager.takeDevice
    split
    · rfl
    · split
      · rfl
      · split
        · rfl
        · rfl
        · exact SeatManager.list_modify
  | releaseDevice seatId devpath =>
    change (s.seats.releaseDevice seatId devpath).2.list = s.seats.list
    unfold SeatManager.releaseDevice
    split
    · rfl
    · exact SeatManager.list_modify
  | idleTimer allIdle now threshold =>
    obtain ⟨since, hsince⟩ := s.idleTimer_snd allIdle now threshold
    change (s.idleTimer allIdle now threshold).2.seats.list = s.seats.list
    rw [hsince]
  | _ => rfl

theorem list_of_reach {config : LogindConfig} {boot : Boot} {M : LogindMachine}
    (hreach : Reach (system config).step (fun _ _ => True) (LogindMachine.init config boot) M) :
    M.shared.seats.list = ["seat0"] := by
  have hkeep : ∀ {M N : LogindMachine} {e : Event Thread Task},
      M.shared.seats.list = ["seat0"] → True → (system config).step M e = some N →
        N.shared.seats.list = ["seat0"] :=
    fun hM _ hstep => System.step_shared (fun o s h => (list_perform o s).trans h) hM hstep
  exact hreach.invariant hkeep rfl

/-- The data of the response to a request of the bridge. -/
def State.replyTo (config : LogindConfig) (s : State) (request : Json) : Json :=
  (s.answer config 0 "" {} request).1

/-- The bridge reads in the responses to the lists what the managers hold. -/
structure SameFormat (objectPath : String → Except String Unit) (config : LogindConfig)
    (s : State) : Prop where
  seats : ∃ ids, (s.replyTo config listSeatsJson).field "data" (items readSeat) = some ids ∧
    ids.Perm s.seats.list
  users : ∃ uids, (s.replyTo config listUsersJson).field "data" (items readUser) = some uids ∧
    uids.Perm (s.users.users.rows.map (·.uid.toNat))
  sessions : ∃ ids, (s.replyTo config listSessionsJson).field "data" (items readSession) =
    some ids ∧ ids.Perm (s.sessions.sessions.rows.map (·.id))
  listSeats : s.seats.list ≠ [] →
    ∃ elements, listSeats objectPath (.ok (s.replyTo config listSeatsJson)) = .ok elements
  objects : (registerInitialObjects objectPath (.ok (s.replyTo config listSeatsJson))
      (.ok (s.replyTo config listUsersJson)) (.ok (s.replyTo config listSessionsJson))).Perm
    (s.seats.list.map .seat ++ s.users.users.rows.map (.user ·.uid) ++
      s.sessions.sessions.rows.map (.session ·.id))

section Format
variable (config : LogindConfig) (s : State)

theorem replyTo_listSeatsJson : s.replyTo config listSeatsJson =
    (Response.ok (.seats s.seats.seats.rows)).toJson := rfl

theorem replyTo_listUsersJson : s.replyTo config listUsersJson =
    (Response.ok (.users s.users.all)).toJson := rfl

theorem replyTo_listSessionsJson : s.replyTo config listSessionsJson =
    (Response.ok (.sessions s.sessions.all)).toJson := rfl

/-- A seat is written as an object, and the bridge looks for a string. -/
theorem items_readSeat :
    (s.replyTo config listSeatsJson).field "data" (items readSeat) = some [] := by
  rw [replyTo_listSeatsJson]
  exact items_ofList_none (fun _ => rfl) _

theorem items_readUser : (s.replyTo config listUsersJson).field "data" (items readUser) =
    some (s.users.all.map (·.uid.toNat)) := by
  have hread : ∀ u : UserRecord, readUser u.toJson = some u.uid.toNat := fun _ => rfl
  rw [replyTo_listUsersJson]
  exact items_ofList hread _

theorem items_readSession : (s.replyTo config listSessionsJson).field "data" (items readSession) =
    some (s.sessions.all.map (·.id)) := by
  have hread : ∀ x : Session, readSession x.toJson = some x.id := fun _ => rfl
  rw [replyTo_listSessionsJson]
  exact items_ofList hread _

/-- The users and the sessions are read as they are held. -/
theorem users_and_sessions_read :
    (∃ uids, (s.replyTo config listUsersJson).field "data" (items readUser) = some uids ∧
      uids.Perm (s.users.users.rows.map (·.uid.toNat))) ∧
    ∃ ids, (s.replyTo config listSessionsJson).field "data" (items readSession) = some ids ∧
      ids.Perm (s.sessions.sessions.rows.map (·.id)) :=
  ⟨⟨_, items_readUser config s, (List.mergeSort_perm ..).map _⟩,
    ⟨_, items_readSession config s, (List.mergeSort_perm ..).map _⟩⟩

/-- Where the path of a seat without a name is refused, `ListSeats` fails with every seat. -/
theorem listSeats_fails {objectPath : String → Except String Unit} {e : String}
    (hpath : objectPath (seatPath "") = .error e) (hseats : s.seats.list ≠ []) :
    listSeats objectPath (.ok (s.replyTo config listSeatsJson)) = .error (.failed e) := by
  rw [replyTo_listSeatsJson]
  cases hrows : s.seats.seats.rows with
  | nil => exact absurd (congrArg (List.map Seat.id) hrows) hseats
  | cons seat seats =>
    have hfirst : seatElement objectPath seat.toJson = .error (.failed e) := by
      unfold seatElement
      dsimp only
      have hname : seat.toJson.asStr.getD "" = "" := rfl
      rw [hname, hpath]
    change (seat.toJson :: seats.map Seat.toJson).mapM (seatElement objectPath) = _
    rw [List.mapM_cons, hfirst]
    rfl

theorem not_sameFormat_of_list {objectPath : String → Except String Unit}
    (hseats : s.seats.list ≠ []) : ¬SameFormat objectPath config s := by
  intro h
  obtain ⟨ids, hids, hperm⟩ := h.seats
  rw [items_readSeat] at hids
  cases hids
  exact hseats (List.nil_perm.1 hperm)

end Format

/-- In no state that the threads of the program can reach does the bridge read the seats. -/
theorem not_sameFormat (objectPath : String → Except String Unit) (config : LogindConfig)
    (boot : Boot) {M : LogindMachine}
    (hreach : Reach (system config).step (fun _ _ => True) (LogindMachine.init config boot) M) :
    ¬SameFormat objectPath config M.shared := by
  have hlist : M.shared.seats.list = ["seat0"] := list_of_reach hreach
  refine not_sameFormat_of_list config M.shared ?_
  rw [hlist]
  exact List.cons_ne_nil _ _

/-- No path ends in an empty element. -/
def refusesEmpty (path : String) : Except String Unit :=
  if path = seatPath "" then .error "empty element" else .ok ()

theorem not_sameFormat_init :
    Reach (system {}).step (fun _ _ => True) (LogindMachine.init {} {}) (LogindMachine.init {} {}) ∧
      ¬SameFormat refusesEmpty {} (LogindMachine.init {} {}).shared :=
  ⟨.refl, not_sameFormat refusesEmpty {} {} .refl⟩

/-- At the start there is a seat, for which the bridge has no object. -/
theorem seat0_not_read :
    (LogindMachine.init {} {}).shared.seats.list = ["seat0"] ∧
      ¬SameFormat refusesEmpty {} (LogindMachine.init {} {}).shared :=
  ⟨rfl, not_sameFormat_of_list {} _ (List.cons_ne_nil _ _)⟩

end Quantra.Logind
