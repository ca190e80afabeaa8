import Quantra.Logind.Control

/-! What a request that runs alone leaves of the state. -/
namespace Quantra.Logind
open Locks Locks.Code

/-- A request, with its peer and the answers of the system. -/
structure Asked where
  peer : Uid
  req : Request
  out : Outside := {}

def State.serve (config : LogindConfig) (s : State) (a : Asked) : Option State :=
  some (s.handle config a.peer a.req a.out).2

/-- The events by which the sessions and the users are told. -/
def LogindEvent.tells : LogindEvent → Bool
  | .sessionNew .. | .sessionRemoved .. | .userNew .. | .userRemoved _ => true
  | _ => false

def EventBus.told (bus : EventBus) : List LogindEvent := bus.events.filter LogindEvent.tells

theorem EventBus.told_broadcast (bus : EventBus) (e : LogindEvent) (writable : ℕ → Bool) :
    (bus.broadcast e writable).told = bus.told ++ [e].filter LogindEvent.tells := by
  have hsinks : ∀ sinks : List EventSink, broadcasts (sinks.map fun sink =>
      if writable sink.conn then Happening.wrote sink.conn (.event e)
      else .failed sink.conn) = [] := by
    intro sinks
    unfold broadcasts
    rw [List.filterMap_eq_nil_iff]
    intro h hh
    obtain ⟨sink, -, rfl⟩ := List.mem_map.1 hh
    split
    · rename_i e' heq
      split at heq <;> cases heq
    · rfl
  have hevents : (bus.broadcast e writable).events = bus.events ++ [e] := by
    have h := hsinks bus.sinks
    unfold broadcasts at h
    simp [EventBus.events, EventBus.broadcast, broadcasts, h]
  rw [EventBus.told, hevents, List.filter_append]
  rfl

/-- The requests that can change what the managers keep. -/
def Request.writes : Request → Bool
  | .openSession _ | .closeSession _ | .activateSession _ | .lockSession _ | .unlockSession _
  | .lockSessions | .unlockSessions | .setIdleHint .. | .setLockedHint .. | .setLinger ..
  | .terminateUser _ | .activateSessionOnSeat .. | .takeDevice .. | .releaseDevice ..
  | .takeInhibitor _ | .releaseInhibitor _ | .scheduleShutdown .. | .cancelScheduledShutdown => true
  | _ => false

/-- The managers are as they were, and of sessions and users nothing is told. -/
structure Keeps (s s' : State) : Prop where
  sessions : s'.sessions = s.sessions
  users : s'.users = s.users
  seats : s'.seats = s.seats
  inhibitors : s'.inhibitors = s.inhibitors
  power : s'.power = s.power
  told : s'.bus.told = s.bus.told

theorem Keeps.refl (s : State) : Keeps s s := ⟨rfl, rfl, rfl, rfl, rfl, rfl⟩

section Handle
variable {config : LogindConfig} {s : State} {peer : Uid} {out : Outside}

theorem keeps_broadcast {e : LogindEvent} (h : e.tells = false) (writable : ℕ → Bool) :
    Keeps s { s with bus := s.bus.broadcast e writable } := by
  refine ⟨rfl, rfl, rfl, rfl, rfl, ?_⟩
  simp [EventBus.told_broadcast, h]

theorem keeps_putCommands (cs : List Command) : Keeps s { s with commands := s.commands ++ cs } :=
  ⟨rfl, rfl, rfl, rfl, rfl, rfl⟩

theorem keeps_executePower (c : PowerManager.PowerCall) (interactive : Bool) :
    Keeps s ((executePower out c interactive).run perform s).2 :=
  keeps_putCommands _

theorem keeps_rootPower (denied : String) (c : PowerManager.PowerCall) (interactive : Bool) :
    Keeps s ((rootPower peer out denied c interactive).run perform s).2 := by
  unfold rootPower
  split
  · exact .refl s
  · exact keeps_executePower c interactive

theorem keeps_switchTo (vt : ℕ) : Keeps s ((switchTo peer out vt).run perform s).2 := by
  unfold switchTo
  split
  · exact .refl s
  · cases hvt : SeatManager.switchToVt vt out.tty0 out.ioctl with
    | error e =>
      simp only [acquire, release, invoke, perform, hvt, lock_bind, unlock_bind, call_bind, ret_bind,
        run_lock, run_call, run_unlock, pure_eq, run_ret]
      exact .refl s
    | ok _ =>
      simp only [acquire, release, invoke, perform, hvt, broadcastEvent, within, guarded, lock_bind,
        unlock_bind, call_bind, ret_bind, run_lock, run_call, run_unlock, pure_eq, run_ret]
      exact keeps_broadcast rfl _

theorem keeps_setBrightness (subsystem name : String) (value : ℕ) :
    Keeps s ((setBrightness out subsystem name value).run perform s).2 := by
  unfold setBrightness
  cases hset : PowerManager.setBrightness subsystem name value out.brightness with
  | mk r cs =>
    cases r with
    | error e =>
      simp only [acquire, release, invoke, perform, State.putCommands, hset, lock_bind, unlock_bind,
        call_bind, ret_bind, run_lock, run_call, run_unlock, pure_eq, run_ret]
      exact keeps_putCommands cs
    | ok _ =>
      simp only [acquire, release, invoke, perform, State.putCommands, hset, broadcastEvent, within,
        guarded, lock_bind, unlock_bind, call_bind, ret_bind, run_lock, run_call, run_unlock, pure_eq,
        run_ret]
      refine ⟨rfl, rfl, rfl, rfl, rfl, ?_⟩
      simp [EventBus.told_broadcast, LogindEvent.tells]

theorem keeps_of_not_writes {req : Request} (h : req.writes = false) :
    Keeps s (s.handle config peer req out).2 := by
  cases req with
  | powerOff | reboot | rebootToFirmwareSetup | halt => exact keeps_rootPower _ _ _
  | suspend | hibernate | hybridSleep | suspendThenHibernate => exact keeps_executePower _ _
  | switchTo vt => exact keeps_switchTo vt
  | setBrightness subsystem name value => exact keeps_setBrightness subsystem name value
  | getUser uid | listUsers =>
    unfold State.handle dispatch
    dsimp only
    split <;> exact .refl s
  | getBrightness subsystem name =>
    cases hget : PowerManager.getBrightness subsystem name out.brightness <;>
      simp only [State.handle, dispatch, within, guarded, perform, hget, lock_bind, unlock_bind,
        call_bind, ret_bind, run_lock, run_call, run_unlock, pure_eq, run_ret] <;> exact .refl s
  | listSessions | getSession | getSessionByPid | listSeats | getSeat | listInhibitors | canPowerOff
  | canReboot | canSuspend | canHibernate | canHybridSleep | canSuspendThenHibernate | subscribe
  | status | version => exact .refl s
  | openSession | closeSession | activateSession | lockSession | unlockSession | lockSessions
  | unlockSessions | setIdleHint | setLockedHint | setLinger | terminateUser
  | activateSessionOnSeat | takeDevice | releaseDevice | takeInhibitor | releaseInhibitor
  | scheduleShutdown | cancelScheduledShutdown => cases h

/-! The requests that write, where they are not refused. -/

theorem handle_openSession_denied {args : OpenSession} (h : peer ≠ 0) :
    (s.handle config peer (.openSession args) out).2 = s := by
  simp [State.handle, dispatch, openSession, h]

/-- The session is opened first, and stays if the login fails. -/
theorem handle_openSession_error {args : OpenSession} {um : UserManager} {e : String}
    (h : s.users.login args.uid args.username s.sessions.nextId out.now out.dir = (.error e, um)) :
    (s.handle config 0 (.openSession args) out).2 =
      { s with sessions := (s.sessions.open_ args out.now).2, users := um } := by
  have hlogin : s.users.login args.uid args.username (s.sessions.open_ args out.now).1 out.now
      out.dir = (.error e, um) := h
  simp [State.handle, dispatch, openSession, within, guarded, perform, State.putSessions,
    State.putUsers, hlogin]

theorem handle_openSession_ok {args : OpenSession} {um : UserManager}
    (h : s.users.login args.uid args.username s.sessions.nextId out.now out.dir = (.ok (), um)) :
    (s.handle config 0 (.openSession args) out).2 =
      { s with
        sessions := (s.sessions.open_ args out.now).2.assignSeat s.sessions.nextId "seat0"
        users := um
        seats := s.seats.addSession "seat0" s.sessions.nextId
        bus := (s.bus.broadcast (.sessionNew s.sessions.nextId args.uid args.username)
          out.writable).broadcast (.userNew args.uid args.username) out.writable } := by
  have hlogin : s.users.login args.uid args.username (s.sessions.open_ args out.now).1 out.now
      out.dir = (.ok (), um) := h
  simp only [State.handle, dispatch, openSession, within, guarded, perform, State.putSessions,
    State.putUsers, State.putSeats, broadcastEvent, hlogin, lock_bind, unlock_bind, call_bind,
    ret_bind, run_lock, run_call, run_unlock, pure_eq, run_ret, ne_eq, not_true_eq_false, if_false]
  rfl

theorem handle_closeSession_missing {id : SessionId} (h : s.sessions.sessions.get? id = none) :
    (s.handle config peer (.closeSession id) out).2 = s := by
  simp [State.handle, dispatch, closeSession, within, guarded, perform, SessionManager.uidOf, h]

theorem handle_closeSession_denied {id : SessionId} {x : Session}
    (h : s.sessions.sessions.get? id = some x) (hpeer : peer ≠ 0 ∧ peer ≠ x.uid) :
    (s.handle config peer (.closeSession id) out).2 = s := by
  simp [State.handle, dispatch, closeSession, within, guarded, perform, SessionManager.uidOf, h, hpeer]

theorem handle_closeSession {id : SessionId} {x : Session}
    (h : s.sessions.sessions.get? id = some x) (hpeer : ¬(peer ≠ 0 ∧ peer ≠ x.uid)) :
    (s.handle config peer (.closeSession id) out).2 =
      { s with
        sessions := (s.sessions.close id).2
        users := s.users.logout x.uid id config
        seats := x.seat.elim s.seats fun seat => s.seats.removeSession seat id
        bus := s.bus.broadcast (.sessionRemoved id x.uid) out.writable } := by
  have hclose : s.sessions.close id =
      (.ok (), { s.sessions with sessions := s.sessions.sessions.remove id }) := by
    simp [SessionManager.close, h]
  cases htty : x.tty <;> cases hseat : x.seat <;>
    simp [State.handle, dispatch, closeSession, within, guarded, perform, SessionManager.uidOf,
      SessionManager.seatOf, h, hpeer, htty, hseat, forSome, ignoring, State.putSeats,
      State.putSessions, State.putUsers, hclose, broadcastEvent]

theorem handle_activateSession_missing {id : SessionId} (h : s.sessions.sessions.get? id = none) :
    (s.handle config peer (.activateSession id) out).2 = s := by
  simp [State.handle, dispatch, activateSession, within, guarded, perform, State.putSessions,
    SessionManager.activate, h]

theorem handle_activateSession {id : SessionId} {x : Session}
    (h : s.sessions.sessions.get? id = some x) :
    ∃ bus, bus.told = s.bus.told ∧ (s.handle config peer (.activateSession id) out).2 =
      { s with
        sessions := (s.sessions.activate id).2
        seats := x.seat.elim s.seats fun seat => (s.seats.activate seat id).2
        bus := bus } := by
  have hactivate : (s.sessions.activate id).1 = .ok () := by
    simp [SessionManager.activate_fst, h]
  have hget : (s.sessions.activate id).2.sessions.get? id = some { x with state := .active } := by
    rw [SessionManager.get?_activate, h]
    simp [SessionManager.activated, Table.key_of_get? h]
  cases hvt : x.vtNumber with
  | none =>
    refine ⟨s.bus, rfl, ?_⟩
    cases hseat : x.seat <;>
      simp [State.handle, dispatch, activateSession, within, guarded, perform, State.putSessions,
        State.putSeats, hactivate, SessionManager.seatOf, SessionManager.vtOf, hget, hvt, hseat,
        forSome, ignoring]
  | some n =>
    refine ⟨s.bus.broadcast (.vtSwitched n) out.writable, ?_, ?_⟩
    · simp [EventBus.told_broadcast, LogindEvent.tells]
    · cases hseat : x.seat <;>
        simp [State.handle, dispatch, activateSession, within, guarded, perform, State.putSessions,
          State.putSeats, hactivate, SessionManager.seatOf, SessionManager.vtOf, hget, hvt, hseat,
          forSome, ignoring, broadcastEvent]

theorem handle_activateSessionOnSeat_error {id : SessionId} {seatId : String}
    (h : ∀ seat, s.seats.seats.get? seatId = some seat → id ∉ seat.sessions) :
    (s.handle config peer (.activateSessionOnSeat id seatId) out).2 = s := by
  obtain ⟨seat, hseat, hmem, -, -⟩ | ⟨-, ⟨e, herror⟩, hsame⟩ := s.seats.activate_cases seatId id
  · exact absurd hmem (h seat hseat)
  · simp [State.handle, dispatch, activateSessionOnSeat, within, guarded, perform, State.putSeats,
      herror, hsame]

theorem handle_activateSessionOnSeat {id : SessionId} {seatId : String} {seat : Seat}
    (h : s.seats.seats.get? seatId = some seat) (hmem : id ∈ seat.sessions) :
    (s.handle config peer (.activateSessionOnSeat id seatId) out).2 =
      { s with
        sessions := (s.sessions.activate id).2
        seats := (s.seats.activate seatId id).2 } := by
  obtain ⟨-, -, -, hok, -⟩ | ⟨hnot, -, -⟩ := s.seats.activate_cases seatId id
  · simp [State.handle, dispatch, activateSessionOnSeat, within, guarded, perform, State.putSeats,
      State.putSessions, hok, ignoring]
  · exact absurd hmem (hnot seat h)

theorem handle_setLinger_denied {uid : Uid} {enable : Bool} (h : peer ≠ 0 ∧ peer ≠ uid) :
    (s.handle config peer (.setLinger uid enable) out).2 = s := by
  simp [State.handle, dispatch, h]

theorem handle_setLinger {uid : Uid} {enable : Bool} (h : ¬(peer ≠ 0 ∧ peer ≠ uid)) :
    (s.handle config peer (.setLinger uid enable) out).2 =
      { s with users := (s.users.setLinger uid enable out.now out.linger).2 } := by
  simp [State.handle, dispatch, h, within, guarded, perform, State.putUsers]

theorem handle_terminateUser_denied {uid : Uid} (h : peer ≠ 0) :
    (s.handle config peer (.terminateUser uid) out).2 = s := by
  simp [State.handle, dispatch, h]

theorem handle_terminateUser {uid : Uid} :
    (s.handle config 0 (.terminateUser uid) out).2 =
      { s with users := s.users.terminate uid out.destroyed } := by
  simp [State.handle, dispatch, within, guarded, perform, State.putUsers]

theorem run_lockAndTell {change : Handler (Except String Unit)} {r : Except String Unit} {t : State}
    {e : LogindEvent} (he : e.tells = false) (h : change.run perform s = (r, t)) :
    ∃ bus, bus.told = t.bus.told ∧
      ((lockAndTell out change e).run perform s).2 = { t with bus := bus } := by
  unfold lockAndTell
  rw [run_bind, h]
  cases r with
  | error msg => exact ⟨t.bus, rfl, rfl⟩
  | ok _ =>
    refine ⟨t.bus.broadcast e out.writable, ?_, rfl⟩
    simp [EventBus.told_broadcast, he]

variable (config s peer out)

theorem handle_lockSession (id : SessionId) :
    ∃ bus, bus.told = s.bus.told ∧ (s.handle config peer (.lockSession id) out).2 =
      { s with sessions := (s.sessions.lock id).2, bus := bus } :=
  run_lockAndTell (t := { s with sessions := (s.sessions.lock id).2 }) rfl rfl

theorem handle_unlockSession (id : SessionId) :
    ∃ bus, bus.told = s.bus.told ∧ (s.handle config peer (.unlockSession id) out).2 =
      { s with sessions := (s.sessions.unlock id).2, bus := bus } :=
  run_lockAndTell (t := { s with sessions := (s.sessions.unlock id).2 }) rfl rfl

theorem handle_takeDevice (seatId devpath : String) :
    (s.handle config peer (.takeDevice seatId devpath) out).2 =
      if peer ≠ 0 then s
      else { s with seats := (s.seats.takeDevice seatId devpath out.device).2 } := by
  unfold State.handle dispatch
  dsimp only
  split
  · rfl
  · cases hopened : (s.seats.takeDevice seatId devpath out.device).1 <;>
      simp [within, guarded, perform, State.putSeats, hopened]

theorem handle_scheduleShutdown (action : String) (usec : ℕ) :
    (s.handle config peer (.scheduleShutdown action usec) out).2 =
      if peer ≠ 0 then s
      else
        { s with
          power := s.power.scheduleShutdown action usec
          bus := s.bus.broadcast (.shutdownScheduled action usec) out.writable } := by
  unfold State.handle dispatch scheduleShutdown
  dsimp only
  split <;> rfl

end Handle

/-- What the seat manager tells of the sessions on a seat. -/
def Seat.listing (seat : Seat) : List SessionId × Option SessionId :=
  (seat.sessions, seat.activeSession)

/-- Nothing has changed about which sessions there are, of whom, where and in which state, about the
users, or about what the seats list; and nothing is told of sessions and users. -/
structure SameStores (s s' : State) : Prop where
  sessions : s.sessions.SameView s'.sessions
  users : s'.users = s.users
  seats : ∀ k, (s'.seats.seats.get? k).map Seat.listing = (s.seats.seats.get? k).map Seat.listing
  told : s'.bus.told = s.bus.told

theorem SameStores.refl (s : State) : SameStores s s := ⟨.refl _, rfl, fun _ => rfl, rfl⟩

/-- The requests that open, close or activate a session, or may give or take a user a record, where
they are not refused. -/
inductive Works (s : State) : Uid → Request → Prop
  | openSession (args : OpenSession) : Works s 0 (.openSession args)
  | closeSession {peer : Uid} {id : SessionId} {x : Session}
      (hget : s.sessions.sessions.get? id = some x) (hpeer : ¬(peer ≠ 0 ∧ peer ≠ x.uid)) :
      Works s peer (.closeSession id)
  | activateSession {peer : Uid} {id : SessionId} {x : Session}
      (hget : s.sessions.sessions.get? id = some x) : Works s peer (.activateSession id)
  | activateSessionOnSeat {peer : Uid} {id : SessionId} {seatId : String} {seat : Seat}
      (hget : s.seats.seats.get? seatId = some seat) (hmem : id ∈ seat.sessions) :
      Works s peer (.activateSessionOnSeat id seatId)
  | setLinger {peer uid : Uid} {enable : Bool} (hpeer : ¬(peer ≠ 0 ∧ peer ≠ uid)) :
      Works s peer (.setLinger uid enable)
  | terminateUser (uid : Uid) : Works s 0 (.terminateUser uid)

section Same
variable {s : State} {peer : Uid}

theorem Keeps.sameStores {s' : State} (h : Keeps s s') : SameStores s s' :=
  ⟨h.sessions ▸ .refl _, h.users, fun _ => by rw [h.seats], h.told⟩

theorem listing_takeDevice (sm : SeatManager) (seatId devpath : String) (opened : Except String ℤ)
    (k : String) : ((sm.takeDevice seatId devpath opened).2.seats.get? k).map Seat.listing =
      (sm.seats.get? k).map Seat.listing := by
  unfold SeatManager.takeDevice
  split
  · rfl
  · split
    · rfl
    · split
      · rfl
      · rfl
      · dsimp only
        exact Table.map_get?_modify fun _ => rfl

theorem listing_releaseDevice (sm : SeatManager) (seatId devpath : String) (k : String) :
    ((sm.releaseDevice seatId devpath).2.seats.get? k).map Seat.listing =
      (sm.seats.get? k).map Seat.listing := by
  unfold SeatManager.releaseDevice
  split
  · rfl
  · dsimp only
    exact Table.map_get?_modify fun _ => rfl

theorem sameStores_sessions {sm : SessionManager} {bus : EventBus} (h : s.sessions.SameView sm)
    (htold : bus.told = s.bus.told) : SameStores s { s with sessions := sm, bus := bus } :=
  ⟨h, rfl, fun _ => rfl, htold⟩

open SessionManager in
theorem sameStores_of_not_works (config : LogindConfig) (out : Outside) {req : Request}
    (h : ¬Works s peer req) :
    SameStores s (s.handle config peer req out).2 := by
  cases req with
  | openSession args =>
    have hpeer : peer ≠ 0 := fun hpeer => h (hpeer ▸ .openSession args)
    rw [handle_openSession_denied hpeer]
    exact .refl s
  | closeSession id =>
    cases hget : s.sessions.sessions.get? id with
    | none =>
      rw [handle_closeSession_missing hget]
      exact .refl s
    | some x =>
      have hpeer : peer ≠ 0 ∧ peer ≠ x.uid := by
        by_contra hpeer
        exact h (.closeSession hget hpeer)
      rw [handle_closeSession_denied hget hpeer]
      exact .refl s
  | activateSession id =>
    cases hget : s.sessions.sessions.get? id with
    | none =>
      rw [handle_activateSession_missing hget]
      exact .refl s
    | some x => exact absurd (.activateSession hget) h
  | activateSessionOnSeat id seatId =>
    rw [handle_activateSessionOnSeat_error fun seat hget hmem => h (.activateSessionOnSeat hget hmem)]
    exact .refl s
  | setLinger uid enable =>
    have hpeer : peer ≠ 0 ∧ peer ≠ uid := by
      by_contra hpeer
      exact h (.setLinger hpeer)
    rw [handle_setLinger_denied hpeer]
    exact .refl s
  | terminateUser uid =>
    have hpeer : peer ≠ 0 := fun hpeer => h (hpeer ▸ .terminateUser uid)
    rw [handle_terminateUser_denied hpeer]
    exact .refl s
  | lockSession id =>
    obtain ⟨bus, htold, heq⟩ := handle_lockSession config s peer out id
    rw [heq]
    exact sameStores_sessions sameView_lock htold
  | unlockSession id =>
    obtain ⟨bus, htold, heq⟩ := handle_unlockSession config s peer out id
    rw [heq]
    exact sameStores_sessions sameView_unlock htold
  | lockSessions => exact sameStores_sessions sameView_lockAll rfl
  | unlockSessions => exact sameStores_sessions sameView_unlockAll rfl
  | setIdleHint id idle => exact sameStores_sessions sameView_setIdleHint rfl
  | setLockedHint id locked => exact sameStores_sessions sameView_setLockedHint rfl
  | takeDevice seatId devpath =>
    rw [handle_takeDevice]
    split
    · exact .refl s
    · exact ⟨.refl _, rfl, listing_takeDevice _ _ _ _, rfl⟩
  | releaseDevice seatId devpath => exact ⟨.refl _, rfl, listing_releaseDevice _ _ _, rfl⟩
  | takeInhibitor args | releaseInhibitor id => exact ⟨.refl _, rfl, fun _ => rfl, rfl⟩
  | scheduleShutdown action usec =>
    rw [handle_scheduleShutdown]
    split
    · exact .refl s
    · refine ⟨.refl _, rfl, fun _ => rfl, ?_⟩
      simp [EventBus.told_broadcast, LogindEvent.tells]
  | cancelScheduledShutdown => exact ⟨.refl _, rfl, fun _ => rfl, rfl⟩
  | _ => exact (keeps_of_not_writes rfl).sameStores

end Same

end Quantra.Logind
