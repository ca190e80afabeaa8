import Quantra.Lib.Table
import Quantra.Lib.Text
import Mathlib.Data.Int.Notation

/-! `types.rs`: the records, requests, responses and events of the login manager. -/
namespace Quantra.Logind

abbrev SessionId := ℕ
abbrev InhibitorId := ℕ
abbrev Uid := UInt32

inductive SessionType
  | tty
  | x11
  | wayland
  | mir
  | remote
  | unspecified
  deriving DecidableEq, Repr

inductive SessionClass
  | user
  | greeter
  | lockScreen
  | background
  deriving DecidableEq, Repr

inductive SessionState
  | opening
  | active
  | online
  | closing
  deriving DecidableEq, Repr

def runtimeDir (uid : Uid) : String := "/run/user/" ++ toString uid.toNat

structure Session where
  id : SessionId
  uid : Uid
  username : String
  seat : Option String := none
  vtNumber : Option ℕ := none
  tty : Option String := none
  display : Option String := none
  sessionType : SessionType
  sessionClass : SessionClass
  state : SessionState := .online
  leaderPid : ℕ
  auditId : Option ℕ := none
  service : Option String := none
  scope : String := "session-" ++ toString id ++ ".scope"
  createdAt : ℕ
  remote : Bool := false
  remoteHost : Option String := none
  remoteUser : Option String := none
  runtimeDir : String := runtimeDir uid
  idleHint : Bool := false
  idleSince : Option ℕ := none
  lockedHint : Bool := false
  deriving DecidableEq, Repr

inductive UserState
  | offline
  | lingering
  | online
  | active
  | closing
  deriving DecidableEq, Repr

structure UserRecord where
  uid : Uid
  username : String
  sessionIds : List SessionId := []
  linger : Bool := false
  runtimeDir : String := runtimeDir uid
  runtimeDirSize : ℕ := 500 * 1024 * 1024
  state : UserState := .offline
  firstLogin : ℕ
  lastLogin : ℕ
  slice : String := "user-" ++ toString uid.toNat ++ ".slice"
  displaySession : Option SessionId := none
  deriving DecidableEq, Repr

inductive DeviceKind
  | drm
  | evdev
  | sound
  | other
  deriving DecidableEq, Repr

structure SeatDevice where
  path : String
  kind : DeviceKind
  fd : Option ℤ := none
  paused : Bool := false
  deriving DecidableEq, Repr

structure Seat where
  id : String
  activeSession : Option SessionId := none
  sessions : List SessionId := []
  devices : List SeatDevice := []
  canGraphical : Bool := false
  canTty : Bool := true
  idleHint : Bool := false
  deriving DecidableEq, Repr

inductive InhibitWhat
  | shutdown
  | sleep
  | idle
  | handlePowerKey
  | handleSuspendKey
  | handleHibernateKey
  | handleLidSwitch
  | handleRebootKey
  deriving DecidableEq, Repr

inductive InhibitMode
  | block
  | delay
  deriving DecidableEq, Repr

structure Inhibitor where
  id : InhibitorId
  what : List InhibitWhat
  who : String
  why : String
  mode : InhibitMode
  uid : Uid
  pid : ℕ
  created : ℕ
  deriving DecidableEq, Repr

inductive PowerAction
  | powerOff
  | reboot
  | rebootToBootloaderMenu
  | rebootToBootloaderEntry
  | rebootToFirmwareSetup
  | halt
  | kexec
  | suspend
  | hibernate
  | hybridSleep
  | suspendThenHibernate
  | ignore
  | lock
  deriving DecidableEq, Repr

inductive CanDo
  | yes
  | no
  | challenge
  | na
  deriving DecidableEq, Repr

/-- The options that the modelled functions read, and the two that nothing reads. -/
structure LogindConfig where
  killUserProcesses : Bool := false
  killOnlyUsers : List String := []
  killExcludeUsers : List String := ["root"]
  idleAction : PowerAction := .ignore
  idleActionSec : ℕ := 1800
  handlePowerKey : PowerAction := .powerOff
  handleSuspendKey : PowerAction := .suspend
  handleLidSwitch : PowerAction := .suspend
  powerKeyIgnoreInhibited : Bool := false
  suspendKeyIgnoreInhibited : Bool := false
  hibernateKeyIgnoreInhibited : Bool := false
  lidSwitchIgnoreInhibited : Bool := true
  inhibitDelayMaxSec : ℕ := 5
  removeIpc : Bool := true
  deriving DecidableEq, Repr

structure ScheduledShutdown where
  action : String
  timeUsec : ℕ
  deriving DecidableEq, Repr

structure OpenSession where
  uid : Uid
  username : String
  leaderPid : ℕ
  sessionType : SessionType
  sessionClass : SessionClass := .user
  tty : Option String := none
  display : Option String := none
  remoteHost : Option String := none
  remoteUser : Option String := none
  service : Option String := none
  vt : Option ℕ := none
  deriving DecidableEq, Repr

structure TakeInhibitor where
  what : List InhibitWhat
  who : String
  why : String
  mode : InhibitMode
  uid : Uid
  pid : ℕ
  deriving DecidableEq, Repr

inductive Request
  | openSession (args : OpenSession)
  | closeSession (sessionId : SessionId)
  | activateSession (sessionId : SessionId)
  | lockSession (sessionId : SessionId)
  | unlockSession (sessionId : SessionId)
  | lockSessions
  | unlockSessions
  | listSessions
  | getSession (sessionId : SessionId)
  | getSessionByPid (pid : ℕ)
  | setIdleHint (sessionId : SessionId) (idle : Bool)
  | setLockedHint (sessionId : SessionId) (locked : Bool)
  | setLinger (uid : Uid) (enable : Bool)
  | getUser (uid : Uid)
  | listUsers
  | terminateUser (uid : Uid)
  | listSeats
  | getSeat (seatId : String)
  | activateSessionOnSeat (sessionId : SessionId) (seatId : String)
  | switchTo (vtNumber : ℕ)
  | takeDevice (seatId devpath : String)
  | releaseDevice (seatId devpath : String)
  | takeInhibitor (args : TakeInhibitor)
  | releaseInhibitor (inhibitorId : InhibitorId)
  | listInhibitors
  | powerOff (interactive : Bool)
  | reboot (interactive : Bool)
  | rebootToFirmwareSetup (interactive : Bool)
  | halt (interactive : Bool)
  | suspend (interactive : Bool)
  | hibernate (interactive : Bool)
  | hybridSleep (interactive : Bool)
  | suspendThenHibernate (interactive : Bool)
  | canPowerOff
  | canReboot
  | canSuspend
  | canHibernate
  | canHybridSleep
  | canSuspendThenHibernate
  | setBrightness (subsystem name : String) (value : ℕ)
  | getBrightness (subsystem name : String)
  | scheduleShutdown (action : String) (usec : ℕ)
  | cancelScheduledShutdown
  | subscribe
  | status
  | version
  deriving DecidableEq, Repr

inductive LogindEvent
  | sessionNew (sessionId : SessionId) (uid : Uid) (username : String)
  | sessionRemoved (sessionId : SessionId) (uid : Uid)
  | sessionLocked (sessionId : SessionId)
  | sessionUnlocked (sessionId : SessionId)
  | userNew (uid : Uid) (username : String)
  | userRemoved (uid : Uid)
  | seatNew (seatId : String)
  | seatRemoved (seatId : String)
  | prepareForShutdown (active : Bool)
  | prepareForSleep (active : Bool)
  | vtSwitched (vtNumber : ℕ)
  | brightnessChanged (name : String) (value : ℕ)
  | shutdownScheduled (action : String) (timeUsec : ℕ)
  deriving DecidableEq, Repr

/-- The data of a response, before it is written as JSON. -/
inductive Data
  | opened (sessionId : SessionId) (runtimeDir seat : String)
  | sessions (sessions : List Session)
  | session (session : Session)
  | user (user : UserRecord)
  | users (users : List UserRecord)
  | seats (seats : List Seat)
  | seat (seat : Seat)
  | device (fd : ℤ) (paused : Bool)
  | inhibitor (inhibitorId : InhibitorId)
  | inhibitors (inhibitors : List Inhibitor)
  | canDo (answer : CanDo)
  | value (value : ℕ)
  | status (sessions users : ℕ) (seats : List String) (inhibitors : ℕ)
      (canSuspend canHibernate : Bool)
  | version
  deriving DecidableEq, Repr

inductive Response
  | ok (data : Data)
  | okEmpty
  | err (msg : String)
  deriving DecidableEq, Repr

/-- The response to a call that returns nothing. -/
def Response.ofResult : Except String Unit → Response
  | .ok _ => .okEmpty
  | .error e => .err e

end Quantra.Logind
