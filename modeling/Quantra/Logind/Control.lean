import Quantra.Lib.Locks
import Quantra.Logind.EventBus
import Quantra.Logind.Power
import Quantra.Logind.Seat
import Quantra.Logind.Session
import Quantra.Logind.User

/-! `control.rs`: the handlers of the requests, with the locks that they take; the ACPI handler and
the idle timer of `power.rs`, and the thread that collects inhibitors of dead processes. The utmp
records and the environment files of a session, which nothing else reads, are left out. -/
namespace Quantra.Logind
open Locks Locks.Code

inductive Lock
  | sessions
  | users
  | seats
  | inhibitors
  | power
  | bus
  deriving DecidableEq, Repr

/-- What the locks guard, and two things that each belong to one thread or to the kernel: since when
the idle timer has found every session idle, and the commands that the kernel was given. -/
structure State where
  sessions : SessionManager
  users : UserManager
  seats : SeatManager
  inhibitors : InhibitorManager
  power : PowerManager
  bus : EventBus
  idleSince : Option ℕ
  commands : List Command

/-- The calls that handlers make on what a lock guards. -/
inductive Op
  | openSession (args : OpenSession) (now : ℕ)
  | uidOf (id : SessionId)
  | seatOf (id : SessionId)
  | vtOf (id : SessionId)
  | getSession (id : SessionId)
  | closeSession (id : SessionId)
  | activateSession (id : SessionId)
  | assignSeat (id : SessionId) (seat : String)
  | lockSession (id : SessionId)
  | unlockSession (id : SessionId)
  | lockAll
  | unlockAll
  | setIdleHint (id : SessionId) (idle : Bool) (now : ℕ)
  | setLockedHint (id : SessionId) (locked : Bool)
  | allSessions
  | sessionByPid (pid : ℕ) (procs : List SessionManager.ProcInfo)
  | login (uid : Uid) (username : String) (sid : SessionId) (now : ℕ) (answers : DirAnswers)
  | logout (uid : Uid) (sid : SessionId) (config : LogindConfig)
  | setLinger (uid : Uid) (enable : Bool) (now : ℕ) (answers : LingerAnswers)
  | terminate (uid : Uid) (destroyed : Bool)
  | getUser (uid : Uid)
  | allUsers
  | addSession (seatId : String) (sid : SessionId)
  | removeSession (seatId : String) (sid : SessionId)
  | activateOnSeat (seatId : String) (sid : SessionId)
  | switchToVt (vt : ℕ) (tty0 ioctl : Except String Unit)
  | takeDevice (seatId devpath : String) (opened : Except String ℤ)
  | releaseDevice (seatId devpath : String)
  | getSeat (seatId : String)
  | allSeats
  | takeInhibitor (args : TakeInhibitor) (now : ℕ)
  | releaseInhibitor (id : InhibitorId)
  | allInhibitors
  | isBlocked (what : InhibitWhat)
  | gcDeadPids (pidExists : ℕ → Bool)
  | execute (c : PowerManager.PowerCall) (interactive : Bool) (answers : PowerAnswers)
  | power
  | setBrightness (subsystem name : String) (value : ℕ) (answers : BrightnessAnswers)
  | getBrightness (subsystem name : String) (answers : BrightnessAnswers)
  | scheduleShutdown (action : String) (usec : ℕ)
  | cancelScheduledShutdown
  | idleTimer (allIdle : Bool) (now threshold : ℕ)
  | broadcast (e : LogindEvent) (writable : ℕ → Bool)

@[reducible] def Reply : Op → Type
  | .openSession .. => SessionId
  | .uidOf _ => Option Uid
  | .seatOf _ => Option String
  | .vtOf _ => Option ℕ
  | .getSession _ | .sessionByPid .. => Option Session
  | .closeSession _ | .activateSession _ | .lockSession _ | .unlockSession _ | .setIdleHint ..
  | .setLockedHint .. | .login .. | .setLinger .. | .activateOnSeat .. | .switchToVt ..
  | .releaseDevice .. | .execute .. | .setBrightness .. => Except String Unit
  | .allSessions => List Session
  | .getUser _ => Option UserRecord
  | .allUsers => List UserRecord
  | .takeDevice .. => Except String ℤ
  | .getSeat _ => Option Seat
  | .allSeats => List Seat
  | .takeInhibitor .. => InhibitorId
  | .releaseInhibitor _ | .isBlocked _ | .idleTimer .. => Bool
  | .allInhibitors => List Inhibitor
  | .power => PowerManager
  | .getBrightness .. => Except String ℕ
  | _ => Unit

namespace State

def putSessions {α : Type} (s : State) (r : α × SessionManager) : α × State :=
  (r.1, { s with sessions := r.2 })

def putUsers {α : Type} (s : State) (r : α × UserManager) : α × State :=
  (r.1, { s with users := r.2 })

def putSeats {α : Type} (s : State) (r : α × SeatManager) : α × State :=
  (r.1, { s with seats := r.2 })

def putInhibitors {α : Type} (s : State) (r : α × InhibitorManager) : α × State :=
  (r.1, { s with inhibitors := r.2 })

def putCommands {α : Type} (s : State) (r : α × List Command) : α × State :=
  (r.1, { s with commands := s.commands ++ r.2 })

/-- The timer: it starts when all sessions are first found idle, and stops when it has run out or
one of them is not. -/
def idleTimer (s : State) (allIdle : Bool) (now threshold : ℕ) : Bool × State :=
  if allIdle then
    let since := s.idleSince.getD now
    if now - since ≥ threshold then (true, { s with idleSince := none })
    else (false, { s with idleSince := some since })
  else (false, { s with idleSince := none })

/-- The timer is all that a turn of it changes. -/
theorem idleTimer_snd (s : State) (allIdle : Bool) (now threshold : ℕ) :
    ∃ since, (s.idleTimer allIdle now threshold).2 = { s with idleSince := since } := by
  unfold State.idleTimer
  dsimp only
  split
  · split <;> exact ⟨_, rfl⟩
  · exact ⟨_, rfl⟩

end State

def perform : (o : Op) → State → Reply o × State
  | .openSession args now, s => s.putSessions (s.sessions.open_ args now)
  | .uidOf id, s => (s.sessions.uidOf id, s)
  | .seatOf id, s => (s.sessions.seatOf id, s)
  | .vtOf id, s => (s.sessions.vtOf id, s)
  | .getSession id, s => (s.sessions.sessions.get? id, s)
  | .closeSession id, s => s.putSessions (s.sessions.close id)
  | .activateSession id, s => s.putSessions (s.sessions.activate id)
  | .assignSeat id seat, s => s.putSessions ((), s.sessions.assignSeat id seat)
  | .lockSession id, s => s.putSessions (s.sessions.lock id)
  | .unlockSession id, s => s.putSessions (s.sessions.unlock id)
  | .lockAll, s => s.putSessions ((), s.sessions.lockAll)
  | .unlockAll, s => s.putSessions ((), s.sessions.unlockAll)
  | .setIdleHint id idle now, s => s.putSessions (s.sessions.setIdleHint id idle now)
  | .setLockedHint id locked, s => s.putSessions (s.sessions.setLockedHint id locked)
  | .allSessions, s => (s.sessions.all, s)
  | .sessionByPid pid procs, s => (s.sessions.sessionByPid pid procs, s)
  | .login uid username sid now answers, s => s.putUsers (s.users.login uid username sid now answers)
  | .logout uid sid config, s => s.putUsers ((), s.users.logout uid sid config)
  | .setLinger uid enable now answers, s => s.putUsers (s.users.setLinger uid enable now answers)
  | .terminate uid destroyed, s => s.putUsers ((), s.users.terminate uid destroyed)
  | .getUser uid, s => (s.users.users.get? uid, s)
  | .allUsers, s => (s.users.all, s)
  | .addSession seatId sid, s => s.putSeats ((), s.seats.addSession seatId sid)
  | .removeSession seatId sid, s => s.putSeats ((), s.seats.removeSession seatId sid)
  | .activateOnSeat seatId sid, s => s.putSeats (s.seats.activate seatId sid)
  | .switchToVt vt tty0 ioctl, s => (SeatManager.switchToVt vt tty0 ioctl, s)
  | .takeDevice seatId devpath opened, s => s.putSeats (s.seats.takeDevice seatId devpath opened)
  | .releaseDevice seatId devpath, s => s.putSeats (s.seats.releaseDevice seatId devpath)
  | .getSeat seatId, s => (s.seats.seats.get? seatId, s)
  | .allSeats, s => (s.seats.seats.rows, s)
  | .takeInhibitor args now, s => s.putInhibitors (s.inhibitors.take args now)
  | .releaseInhibitor id, s => s.putInhibitors (s.inhibitors.release id)
  | .allInhibitors, s => (s.inhibitors.all, s)
  | .isBlocked what, s => (s.inhibitors.isBlocked what, s)
  | .gcDeadPids pidExists, s => s.putInhibitors ((), s.inhibitors.gcDeadPids pidExists)
  | .execute c interactive answers, s =>
    s.putCommands (s.power.execute s.inhibitors interactive answers c)
  | .power, s => (s.power, s)
  | .setBrightness subsystem name value answers, s =>
    s.putCommands (PowerManager.setBrightness subsystem name value answers)
  | .getBrightness subsystem name answers, s =>
    (PowerManager.getBrightness subsystem name answers, s)
  | .scheduleShutdown action usec, s =>
    ((), { s with power := s.power.scheduleShutdown action usec })
  | .cancelScheduledShutdown, s => ((), { s with power := s.power.cancelScheduledShutdown })
  | .idleTimer allIdle now threshold, s => s.idleTimer allIdle now threshold
  | .broadcast e writable, s => ((), { s with bus := s.bus.broadcast e writable })

/-- The answers of the system to the calls of one request. -/
structure Outside where
  now : ℕ := 0
  procs : List SessionManager.ProcInfo := []
  dir : DirAnswers := {}
  linger : LingerAnswers := { resolve := fun _ => none }
  destroyed : Bool := true
  tty0 : Except String Unit := .ok ()
  ioctl : Except String Unit := .ok ()
  device : Except String ℤ := .ok 0
  power : PowerAnswers := {}
  brightness : BrightnessAnswers := {}
  writable : ℕ → Bool := fun _ => true

abbrev Handler (α : Type) := Code Lock Op Reply α

def acquire (m : Lock) : Handler Unit := lock m (ret ())

def release (m : Lock) : Handler Unit := unlock m (ret ())

def invoke (o : Op) : Handler (Reply o) := call o ret

/-- One call under a guard that is dropped at once. -/
def within (m : Lock) (o : Op) : Handler (Reply o) := guarded m o

def forSome {α : Type} (o : Option α) (f : α → Handler Unit) : Handler Unit :=
  match o with
  | some a => f a
  | none => pure ()

def ignoring {α : Type} (c : Handler α) : Handler Unit := do
  let _ ← c
  pure ()

def broadcastEvent (out : Outside) (e : LogindEvent) : Handler Unit :=
  within .bus (.broadcast e out.writable)

def openSession (peer : Uid) (out : Outside) (args : OpenSession) : Handler Response :=
  if peer ≠ 0 then pure (.err "only root can open sessions")
  else do
    let sid ← within .sessions (.openSession args out.now)
    match ← within .users (.login args.uid args.username sid out.now out.dir) with
    | .error e => pure (.err e)
    | .ok _ =>
      within .seats (.addSession "seat0" sid)
      within .sessions (.assignSeat sid "seat0")
      broadcastEvent out (.sessionNew sid args.uid args.username)
      broadcastEvent out (.userNew args.uid args.username)
      pure (.ok (.opened sid (runtimeDir args.uid) "seat0"))

/-- The leader is looked up for the utmp record only. -/
def closeSession (config : LogindConfig) (peer : Uid) (out : Outside) (id : SessionId) :
    Handler Response := do
  let uid ← within .sessions (.uidOf id)
  let seat ← within .sessions (.seatOf id)
  match uid with
  | none => pure (.err (SessionManager.notFound id))
  | some uid =>
    if peer ≠ 0 ∧ peer ≠ uid then pure (.err "permission denied")
    else do
      let session ← within .sessions (.getSession id)
      forSome (session.bind (·.tty)) fun _ => ignoring (within .sessions (.getSession id))
      forSome seat fun seat => within .seats (.removeSession seat id)
      match ← within .sessions (.closeSession id) with
      | .error e => pure (.err e)
      | .ok _ =>
        within .users (.logout uid id config)
        broadcastEvent out (.sessionRemoved id uid)
        pure .okEmpty

def activateSession (out : Outside) (id : SessionId) : Handler Response := do
  match ← within .sessions (.activateSession id) with
  | .error e => pure (.err e)
  | .ok _ =>
    let seat ← within .sessions (.seatOf id)
    forSome seat fun seat => ignoring (within .seats (.activateOnSeat seat id))
    let vt ← within .sessions (.vtOf id)
    forSome vt fun n => do
      ignoring (within .seats (.switchToVt n out.tty0 out.ioctl))
      broadcastEvent out (.vtSwitched n)
    pure .okEmpty

def activateSessionOnSeat (id : SessionId) (seatId : String) : Handler Response := do
  match ← within .seats (.activateOnSeat seatId id) with
  | .error e => pure (.err e)
  | .ok _ =>
    ignoring (within .sessions (.activateSession id))
    pure .okEmpty

/-- Change a session, and tell it if that succeeds. -/
def lockAndTell (out : Outside) (change : Handler (Except String Unit)) (e : LogindEvent) :
    Handler Response := do
  match ← change with
  | .error msg => pure (.err msg)
  | .ok _ =>
    broadcastEvent out e
    pure .okEmpty

/-- The guard of the seats is kept while the event is broadcast. -/
def switchTo (peer : Uid) (out : Outside) (vt : ℕ) : Handler Response :=
  if peer ≠ 0 then pure (.err "only root can switch VTs")
  else do
    acquire .seats
    match ← invoke (.switchToVt vt out.tty0 out.ioctl) with
    | .error e =>
      release .seats
      pure (.err e)
    | .ok _ =>
      broadcastEvent out (.vtSwitched vt)
      release .seats
      pure .okEmpty

/-- A power or sleep request: the guard of the inhibitors is kept while the action is executed. -/
def executePower (out : Outside) (c : PowerManager.PowerCall) (interactive : Bool) :
    Handler Response := do
  acquire .inhibitors
  acquire .power
  let r ← invoke (.execute c interactive out.power)
  release .power
  release .inhibitors
  pure (.ofResult r)

def rootPower (peer : Uid) (out : Outside) (denied : String) (c : PowerManager.PowerCall)
    (interactive : Bool) : Handler Response :=
  if peer ≠ 0 then pure (.err denied) else executePower out c interactive

def canDo (answer : PowerManager → CanDo) : Handler Response := do
  let pm ← within .power .power
  pure (.ok (.canDo (answer pm)))

/-- The guard of the power manager is kept while the event is broadcast. -/
def setBrightness (out : Outside) (subsystem name : String) (value : ℕ) : Handler Response := do
  acquire .power
  match ← invoke (.setBrightness subsystem name value out.brightness) with
  | .error e =>
    release .power
    pure (.err e)
  | .ok _ =>
    broadcastEvent out (.brightnessChanged name value)
    release .power
    pure .okEmpty

def scheduleShutdown (peer : Uid) (out : Outside) (action : String) (usec : ℕ) :
    Handler Response :=
  if peer ≠ 0 then pure (.err "only root")
  else do
    acquire .power
    invoke (.scheduleShutdown action usec)
    broadcastEvent out (.shutdownScheduled action usec)
    release .power
    pure .okEmpty

/-- The power manager is locked twice, under four other guards. -/
def status : Handler Response := do
  acquire .sessions
  acquire .users
  acquire .seats
  acquire .inhibitors
  let sessions ← invoke .allSessions
  let users ← invoke .allUsers
  let seats ← invoke .allSeats
  let inhibitors ← invoke .allInhibitors
  let pm ← within .power .power
  let pm' ← within .power .power
  release .inhibitors
  release .seats
  release .users
  release .sessions
  pure (.ok (.status sessions.length users.length (seats.map (·.id)) inhibitors.length
    pm.canSuspend pm'.canHibernate))

def found {α : Type} (data : α → Data) (missing : String) : Option α → Response
  | some a => .ok (data a)
  | none => .err missing

/-- The arm of `subscribe` is never reached: `handle` deals with that request itself. -/
def dispatch (config : LogindConfig) (peer : Uid) (out : Outside) : Request → Handler Response
  | .openSession args => openSession peer out args
  | .closeSession id => closeSession config peer out id
  | .activateSession id => activateSession out id
  | .lockSession id => lockAndTell out (within .sessions (.lockSession id)) (.sessionLocked id)
  | .unlockSession id => lockAndTell out (within .sessions (.unlockSession id)) (.sessionUnlocked id)
  | .lockSessions => do
    within .sessions .lockAll
    pure .okEmpty
  | .unlockSessions => do
    within .sessions .unlockAll
    pure .okEmpty
  | .listSessions => do
    let sessions ← within .sessions .allSessions
    pure (.ok (.sessions sessions))
  | .getSession id => do
    let session ← within .sessions (.getSession id)
    pure (found .session (SessionManager.notFound id) session)
  | .getSessionByPid pid => do
    let session ← within .sessions (.sessionByPid pid out.procs)
    pure (found .session ("no session for pid " ++ toString pid) session)
  | .setIdleHint id idle => do
    let r ← within .sessions (.setIdleHint id idle out.now)
    pure (.ofResult r)
  | .setLockedHint id locked => do
    let r ← within .sessions (.setLockedHint id locked)
    pure (.ofResult r)
  | .getUser uid =>
    if peer ≠ 0 ∧ peer ≠ uid then pure (.err "permission denied")
    else do
      let user ← within .users (.getUser uid)
      pure (found .user ("uid=" ++ toString uid.toNat ++ " not logged in") user)
  | .listUsers =>
    if peer ≠ 0 then pure (.err "only root can list users")
    else do
      let users ← within .users .allUsers
      pure (.ok (.users users))
  | .setLinger uid enable =>
    if peer ≠ 0 ∧ peer ≠ uid then pure (.err "permission denied")
    else do
      let r ← within .users (.setLinger uid enable out.now out.linger)
      pure (.ofResult r)
  | .terminateUser uid =>
    if peer ≠ 0 then pure (.err "only root can terminate users")
    else do
      within .users (.terminate uid out.destroyed)
      pure .okEmpty
  | .listSeats => do
    let seats ← within .seats .allSeats
    pure (.ok (.seats seats))
  | .getSeat seatId => do
    let seat ← within .seats (.getSeat seatId)
    pure (found .seat (SeatManager.notFound seatId) seat)
  | .activateSessionOnSeat id seatId => activateSessionOnSeat id seatId
  | .switchTo vt => switchTo peer out vt
  | .takeDevice seatId devpath =>
    if peer ≠ 0 then pure (.err "only root can take devices")
    else do
      match ← within .seats (.takeDevice seatId devpath out.device) with
      | .ok fd => pure (.ok (.device fd false))
      | .error e => pure (.err e)
  | .releaseDevice seatId devpath => do
    ignoring (within .seats (.releaseDevice seatId devpath))
    pure .okEmpty
  | .takeInhibitor args => do
    let id ← within .inhibitors (.takeInhibitor args out.now)
    pure (.ok (.inhibitor id))
  | .releaseInhibitor id => do
    let released ← within .inhibitors (.releaseInhibitor id)
    pure (if released then .okEmpty else .err ("inhibitor " ++ toString id ++ " not found"))
  | .listInhibitors => do
    let inhibitors ← within .inhibitors .allInhibitors
    pure (.ok (.inhibitors inhibitors))
  | .powerOff interactive => rootPower peer out "only root can power off" .powerOff interactive
  | .reboot interactive => rootPower peer out "only root can reboot" .reboot interactive
  | .rebootToFirmwareSetup interactive =>
    rootPower peer out "only root" .rebootToFirmware interactive
  | .halt interactive => rootPower peer out "only root can halt" .halt interactive
  | .suspend interactive => executePower out .suspend interactive
  | .hibernate interactive => executePower out .hibernate interactive
  | .hybridSleep interactive => executePower out .hybridSleep interactive
  | .suspendThenHibernate interactive => executePower out .suspendThenHibernate interactive
  | .canPowerOff => canDo fun _ => .yes
  | .canReboot => canDo fun _ => .yes
  | .canSuspend => canDo fun pm => PowerManager.yesNo pm.canSuspend
  | .canHibernate => canDo fun pm => PowerManager.yesNo pm.canHibernate
  | .canHybridSleep => canDo fun pm => PowerManager.yesNo pm.canHybridSleep
  | .canSuspendThenHibernate => canDo fun pm => PowerManager.yesNo pm.canSuspendThenHibernate
  | .setBrightness subsystem name value => setBrightness out subsystem name value
  | .getBrightness subsystem name => do
    match ← within .power (.getBrightness subsystem name out.brightness) with
    | .ok v => pure (.ok (.value v))
    | .error e => pure (.err e)
  | .scheduleShutdown action usec => scheduleShutdown peer out action usec
  | .cancelScheduledShutdown => do
    within .power .cancelScheduledShutdown
    pure .okEmpty
  | .subscribe => pure .okEmpty
  | .status => status
  | .version => pure (.ok .version)

/-- The guard of the power manager is taken before that of the inhibitors. -/
def handleAcpiEvent (config : LogindConfig) (e : AcpiEvent) (answers : PowerAnswers) :
    Handler Unit :=
  match acpiAction config e with
  | none => pure ()
  | some action => do
    acquire .power
    acquire .inhibitors
    forSome (acpiCall action) fun c => ignoring (invoke (.execute c false answers))
    release .inhibitors
    release .power

/-- What the idle timer does when it has run out, under the guards of the power manager and of the
inhibitors. -/
def idleAct (config : LogindConfig) (answers : PowerAnswers) : Handler Unit := do
  acquire .power
  acquire .inhibitors
  if config.idleAction = .lock then within .sessions .lockAll
  else forSome (idleCall config.idleAction) fun c => ignoring (invoke (.execute c false answers))
  release .inhibitors
  release .power

/-- One turn of the loop; `now` is in nanoseconds. The thread is not started without an action. -/
def idleTurn (config : LogindConfig) (now : ℕ) (answers : PowerAnswers) : Handler Unit :=
  if config.idleAction = .ignore then pure ()
  else do
    let threshold := max config.idleActionSec 1 * 10 ^ 9
    let blocked ← within .inhibitors (.isBlocked .idle)
    if blocked then ignoring (invoke (.idleTimer false now threshold))
    else do
      let sessions ← within .sessions .allSessions
      let fire ← invoke (.idleTimer (!sessions.isEmpty && sessions.all (·.idleHint)) now threshold)
      if fire then idleAct config answers else pure ()

/-- What a thread of the program does next. -/
inductive Task
  | request (peer : Uid) (req : Request) (out : Outside)
  | acpi (e : AcpiEvent) (answers : PowerAnswers)
  | idle (now : ℕ) (answers : PowerAnswers)
  | gc (pidExists : ℕ → Bool)

inductive Thread
  | conn (n : ℕ)
  | acpi
  | idle
  | gc
  deriving DecidableEq, Repr

def program (config : LogindConfig) : Task → Handler Unit
  | .request peer req out => ignoring (dispatch config peer out req)
  | .acpi e answers => handleAcpiEvent config e answers
  | .idle now answers => idleTurn config now answers
  | .gc pidExists => within .inhibitors (.gcDeadPids pidExists)

def mayRun : Thread → Task → Bool
  | .conn _, .request .. | .acpi, .acpi .. | .idle, .idle .. | .gc, .gc _ => true
  | _, _ => false

/-- The threads of the program. -/
def system (config : LogindConfig) : System Thread Lock Op Reply Unit State Task where
  perform := perform
  program := program config
  may := mayRun

/-- What the program finds when it starts. -/
structure Boot where
  lingerFiles : List String := []
  runtimeDirs : List Uid := []
  now : ℕ := 0
  linger : Uid → LingerAnswers := fun _ => { resolve := fun _ => none }
  devices : List (String × DeviceKind) := []
  canTty : Bool := true
  canSuspend : Bool := false
  canHibernate : Bool := false
  canHybridSleep : Bool := false
  canSuspendThenHibernate : Bool := false

def State.init (config : LogindConfig) (boot : Boot) : State where
  sessions := .new
  users := (UserManager.new boot.lingerFiles boot.runtimeDirs).loadLingerState boot.now boot.linger
  seats := .detect boot.devices boot.canTty
  inhibitors := .new
  power :=
    { canSuspend := boot.canSuspend
      canHibernate := boot.canHibernate
      canHybridSleep := boot.canHybridSleep
      canSuspendThenHibernate := boot.canSuspendThenHibernate
      config := config }
  bus := {}
  idleSince := none
  commands := []

abbrev LogindMachine := Machine Thread Lock Op Reply Unit State

/-- Nothing runs yet, and every lock is free. -/
def LogindMachine.init (config : LogindConfig) (boot : Boot) : LogindMachine where
  shared := State.init config boot
  code _ := ret ()
  owner _ := none

/-- One request, run alone. -/
def State.handle (config : LogindConfig) (s : State) (peer : Uid) (req : Request) (out : Outside) :
    Response × State :=
  (dispatch config peer out req).run perform s

end Quantra.Logind
