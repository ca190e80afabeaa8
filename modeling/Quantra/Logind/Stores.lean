import Quantra.Lib.Runs
import Quantra.Logind.Requests

/-! Whether the session manager, the seat manager and the user manager agree on the sessions, when
requests are handled one after another. -/
namespace Quantra.Logind
open Runs

/-- A seat lists the sessions that are on it. -/
def SeatsAgree (s : State) : Prop :=
  ∀ k seat, s.seats.seats.get? k = some seat →
    seat.sessions.Nodup ∧ ∀ id, id ∈ seat.sessions ↔ s.sessions.seatOf id = some k

/-- The active session of a seat is the session on it that is in the state of an active one. -/
def ActiveAgrees (s : State) : Prop :=
  ∀ k seat, s.seats.seats.get? k = some seat →
    ∀ id, seat.activeSession = some id ↔
      s.sessions.seatOf id = some k ∧ s.sessions.stateOf id = some .active

/-- The record of a user lists the sessions of the user, and nobody without a record has any. -/
def UsersAgree (s : State) : Prop :=
  ∀ u, (∀ r, s.users.users.get? u = some r →
      ∀ id, id ∈ r.sessionIds ↔ s.sessions.uidOf id = some u) ∧
    (s.users.users.get? u = none → ∀ id, s.sessions.uidOf id ≠ some u)

structure StoresAgree (s : State) : Prop where
  seats : SeatsAgree s
  active : ActiveAgrees s
  users : UsersAgree s

/-- The ids that are still to be given are in no use. -/
def FreshIds (s : State) : Prop := ∀ id, s.sessions.nextId ≤ id → s.sessions.uidOf id = none

/-- A session is opened only for a user that can be logged in, and no user with a session is
terminated. -/
def UsersKept (s : State) (a : Asked) : Prop :=
  Works s a.peer a.req →
    match a.req with
    | .openSession args => s.users.users.get? args.uid = none →
        UserManager.dirSucceeds a.out.dir = true
    | .terminateUser uid => ∀ r, s.users.users.get? uid = some r → r.sessionIds = []
    | _ => True

def Asked.OpensAsRoot (a : Asked) : Prop := a.peer = 0 ∧ ∃ args, a.req = .openSession args

section Congr
variable {s s' : State}

theorem UsersAgree.congr (h : UsersAgree s) (huid : ∀ id, s'.sessions.uidOf id = s.sessions.uidOf id)
    (husers : ∀ u, s'.users.users.get? u = s.users.users.get? u) : UsersAgree s' := by
  intro u
  simp only [huid, husers]
  exact h u

theorem SeatsAgree.congr (h : SeatsAgree s)
    (hseat : ∀ id, s'.sessions.seatOf id = s.sessions.seatOf id)
    (hseats : ∀ k, (s'.seats.seats.get? k).map Seat.sessions =
      (s.seats.seats.get? k).map Seat.sessions) : SeatsAgree s' := by
  intro k seat' hget'
  have hlisted := hseats k
  rw [hget', Option.map_some] at hlisted
  obtain ⟨seat, hget, hsessions⟩ := Option.map_eq_some_iff.1 hlisted.symm
  rw [← hsessions]
  simp only [hseat]
  exact h k seat hget

/-- The sessions and the seats tell the same as before. -/
theorem SameStores.seats_sessions (h : SameStores s s') (k : String) :
    (s'.seats.seats.get? k).map Seat.sessions = (s.seats.seats.get? k).map Seat.sessions := by
  have hlisting := congrArg (Option.map Prod.fst) (h.seats k)
  simpa only [Option.map_map, Function.comp_def, Seat.listing] using hlisting

theorem FreshIds.congr (h : FreshIds s) (huid : ∀ id, s'.sessions.uidOf id = s.sessions.uidOf id)
    (hnext : s'.sessions.nextId = s.sessions.nextId) : FreshIds s' := by
  intro id hid
  rw [huid]
  exact h id (hnext ▸ hid)

end Congr

section Users
variable {s s' : State} {config : LogindConfig} {out : Outside}

/-- A record is put in place that lists the sessions of its user. -/
theorem UsersAgree.setUser (h : UsersAgree s) (uid : Uid) (rec : UserRecord)
    (hget : ∀ u, s'.users.users.get? u = if u = uid then some rec else s.users.users.get? u)
    (hrec : ∀ id, id ∈ rec.sessionIds ↔ s'.sessions.uidOf id = some uid)
    (hother : ∀ u, u ≠ uid → ∀ id, s'.sessions.uidOf id = some u ↔ s.sessions.uidOf id = some u) :
    UsersAgree s' := by
  intro u
  rw [hget]
  by_cases hu : u = uid
  · subst hu
    refine ⟨fun r hr id => ?_, fun hr => by simp at hr⟩
    rw [if_pos rfl] at hr
    cases hr
    exact hrec id
  · simp only [hu, if_false, ne_eq, hother u hu]
    exact h u

/-- The record of a user without a session is removed. -/
theorem UsersAgree.removeUser (h : UsersAgree s) (uid : Uid)
    (hget : ∀ u, s'.users.users.get? u = if u = uid then none else s.users.users.get? u)
    (hnone : ∀ id, s'.sessions.uidOf id ≠ some uid)
    (hother : ∀ u, u ≠ uid → ∀ id, s'.sessions.uidOf id = some u ↔ s.sessions.uidOf id = some u) :
    UsersAgree s' := by
  intro u
  rw [hget]
  by_cases hu : u = uid
  · subst hu
    exact ⟨fun r hr => by simp at hr, fun _ => hnone⟩
  · simp only [hu, if_false, ne_eq, hother u hu]
    exact h u

/-- Who has a record that lists no session has none. -/
theorem UsersAgree.uidOf_ne (h : UsersAgree s) {uid : Uid} {r : UserRecord}
    (hget : s.users.users.get? uid = some r) (hnil : r.sessionIds = []) (id : SessionId) :
    s.sessions.uidOf id ≠ some uid := by
  intro hid
  have hmem := ((h uid).1 r hget id).2 hid
  rw [hnil] at hmem
  cases hmem

theorem mem_addLogin {sid id : SessionId} {now : ℕ} {r : UserRecord} :
    id ∈ (UserManager.addLogin sid now r).sessionIds ↔ id ∈ r.sessionIds ∨ id = sid := by
  unfold UserManager.addLogin
  split
  · rename_i hmem
    refine ⟨.inl, ?_⟩
    rintro (hid | rfl)
    · exact hid
    · exact List.contains_iff_mem.1 hmem
  · simp

theorem usersAgree_openSession_iff {args : OpenSession} (h : UsersAgree s) (hfresh : FreshIds s) :
    UsersAgree (s.handle config 0 (.openSession args) out).2 ↔
      (s.users.users.get? args.uid = none → UserManager.dirSucceeds out.dir = true) := by
  have hnew : s.sessions.uidOf s.sessions.nextId = none := hfresh _ le_rfl
  have huid : ∀ id, ((s.sessions.open_ args out.now).2.assignSeat s.sessions.nextId "seat0").uidOf id =
      if id = s.sessions.nextId then some args.uid else s.sessions.uidOf id :=
    fun id => SessionManager.uidOf_assignSeat.trans SessionManager.uidOf_open
  have hother : ∀ u, u ≠ args.uid → ∀ id,
      ((s.sessions.open_ args out.now).2.assignSeat s.sessions.nextId "seat0").uidOf id = some u ↔
        s.sessions.uidOf id = some u := by
    intro u hu id
    rw [huid]
    by_cases hid : id = s.sessions.nextId
    · simp [hid, hnew, Ne.symm hu]
    · simp [hid]
  obtain ⟨r, hget, heq⟩ | ⟨hget, dirs, -, ⟨hok, -, heq⟩ | ⟨hfail, e, heq⟩⟩ :=
    s.users.login_cases args.uid args.username s.sessions.nextId out.now out.dir
  · refine iff_of_true ?_ fun hnone => by simp [hget] at hnone
    rw [handle_openSession_ok heq]
    refine h.setUser args.uid (UserManager.addLogin s.sessions.nextId out.now r) (fun u => ?_)
      (fun id => ?_) hother
    · rw [UserManager.get?_setUser, UserManager.addLogin_uid, Table.key_of_get? hget]
    · rw [mem_addLogin, (h args.uid).1 r hget, huid]
      by_cases hid : id = s.sessions.nextId <;> simp [hid]
  · refine iff_of_true ?_ fun _ => hok
    rw [handle_openSession_ok heq]
    refine h.setUser args.uid _ (fun u => UserManager.get?_setUser) (fun id => ?_) hother
    rw [List.mem_singleton, huid]
    by_cases hid : id = s.sessions.nextId
    · simp [hid]
    · simp [hid, (h args.uid).2 hget id]
  · refine iff_of_false (fun hafter => ?_) fun hok => by simp [hok hget] at hfail
    rw [handle_openSession_error heq] at hafter
    refine (hafter args.uid).2 hget s.sessions.nextId ?_
    rw [SessionManager.uidOf_open, if_pos rfl]

theorem mem_dropLogin {sid id : SessionId} {r : UserRecord} :
    id ∈ (UserManager.dropLogin sid r).sessionIds ↔ id ∈ r.sessionIds ∧ id ≠ sid := by
  simp [UserManager.dropLogin]

theorem UsersAgree.closeSession {peer : Uid} {id : SessionId} {x : Session} (h : UsersAgree s)
    (hx : s.sessions.sessions.get? id = some x) (hpeer : ¬(peer ≠ 0 ∧ peer ≠ x.uid)) :
    UsersAgree (s.handle config peer (.closeSession id) out).2 := by
  rw [handle_closeSession hx hpeer]
  have hmine : s.sessions.uidOf id = some x.uid := by simp [SessionManager.uidOf, hx]
  -- the other users have lost nothing, since `id` was not theirs
  have hother : ∀ u, u ≠ x.uid → ∀ k, (s.sessions.close id).2.uidOf k = some u ↔
      s.sessions.uidOf k = some u := by
    intro u hu k
    rw [SessionManager.uidOf_close]
    by_cases hk : k = id
    · simp [hk, hmine, Ne.symm hu]
    · simp [hk]
  have hleft : ∀ r, s.users.users.get? x.uid = some r → ∀ k,
      k ∈ (UserManager.dropLogin id r).sessionIds ↔
        (s.sessions.close id).2.uidOf k = some x.uid := by
    intro r hget k
    rw [mem_dropLogin, (h x.uid).1 r hget, SessionManager.uidOf_close]
    by_cases hk : k = id <;> simp [hk]
  obtain ⟨hnone, -⟩ | ⟨r, hget, ⟨hnil, -, heq⟩ | ⟨-, heq⟩⟩ := s.users.logout_cases x.uid id config
  · exact absurd hmine ((h x.uid).2 hnone id)
  · refine h.removeUser x.uid (fun u => ?_) (fun k hk => ?_) hother
    · rw [heq]
      exact UserManager.get?_removeUser
    · have hmem := (hleft r hget k).2 hk
      rw [hnil] at hmem
      cases hmem
  · refine h.setUser x.uid (UserManager.dropLogin id r) (fun u => ?_) (hleft r hget) hother
    have huid : (UserManager.dropLogin id r).uid = x.uid := Table.key_of_get? (a := r) hget
    rw [heq, UserManager.get?_setUser, huid]

/-- A record that lists no session comes or goes. -/
theorem UsersAgree.setLinger {uid : Uid} {enable : Bool} {now : ℕ} {answers : LingerAnswers}
    (h : UsersAgree s) :
    UsersAgree { s with users := (s.users.setLinger uid enable now answers).2 } := by
  have hdoes := s.users.lingerDoes_setLinger uid enable now answers
  generalize (s.users.setLinger uid enable now answers).2 = um at hdoes
  cases hdoes with
  | unpersisted | filed => exact h
  | started _ hget =>
    refine h.setUser uid _ (fun u => UserManager.get?_setUser) (fun id => ?_) fun _ _ _ => .rfl
    simpa [UserManager.newRecord] using (h uid).2 hget id
  | stopped _ hget _ hnone =>
    exact h.removeUser uid (fun u => UserManager.get?_removeUser) (h.uidOf_ne hget hnone)
      fun _ _ _ => .rfl
  | @flagged r _ hget =>
    refine h.setUser uid { r with linger := enable } (fun u => ?_) ((h uid).1 r hget)
      fun _ _ _ => .rfl
    rw [UserManager.get?_setUser, Table.key_of_get? hget]

theorem usersAgree_terminate_iff {uid : Uid} {destroyed : Bool} (h : UsersAgree s) :
    UsersAgree { s with users := s.users.terminate uid destroyed } ↔
      ∀ r, s.users.users.get? uid = some r → r.sessionIds = [] := by
  obtain ⟨hget, heq⟩ | ⟨r, dirs, hget, -, heq⟩ := s.users.terminate_cases uid destroyed
  · rw [heq]
    exact iff_of_true h fun r hr => by simp [hget] at hr
  · rw [heq]
    constructor
    · intro hafter r' hr
      rw [hget] at hr
      cases hr
      refine List.eq_nil_iff_forall_not_mem.2 fun id hid => ?_
      have hnone : (UserManager.removeUser { s.users with runtimeDirs := dirs } uid).users.get? uid =
          none := UserManager.get?_removeUser_eq_none.2 (.inl rfl)
      exact (hafter uid).2 hnone id (((h uid).1 r hget id).1 hid)
    · intro hnil
      exact h.removeUser uid (fun u => UserManager.get?_removeUser) (h.uidOf_ne hget (hnil r hget))
        fun _ _ _ => .rfl

theorem usersAgree_serve_iff {a : Asked} (h : UsersAgree s) (hfresh : FreshIds s) :
    UsersAgree (s.handle config a.peer a.req a.out).2 ↔ UsersKept s a := by
  by_cases hworks : Works s a.peer a.req
  · rw [UsersKept, imp_iff_right hworks]
    obtain ⟨peer, req, out⟩ := a
    dsimp only at hworks ⊢
    cases hworks with
    | openSession args => exact usersAgree_openSession_iff h hfresh
    | closeSession hget hpeer => exact iff_of_true (h.closeSession hget hpeer) trivial
    | activateSession hget =>
      obtain ⟨bus, -, heq⟩ := handle_activateSession hget
      rw [heq]
      exact iff_of_true (h.congr (fun _ => SessionManager.uidOf_activate) fun _ => rfl) trivial
    | activateSessionOnSeat hget hmem =>
      rw [handle_activateSessionOnSeat hget hmem]
      exact iff_of_true (h.congr (fun _ => SessionManager.uidOf_activate) fun _ => rfl) trivial
    | setLinger hpeer =>
      rw [handle_setLinger hpeer]
      exact iff_of_true h.setLinger trivial
    | terminateUser uid =>
      rw [handle_terminateUser]
      exact usersAgree_terminate_iff h
  · have hsame := sameStores_of_not_works config a.out hworks
    have hafter := h.congr hsame.sessions.uidOf fun u => by rw [hsame.users]
    exact iff_of_true hafter fun h => absurd h hworks

end Users

section Seats
variable {s s' : State} {config : LogindConfig} {a : Asked}

theorem FreshIds.opened (h : FreshIds s) (args : OpenSession) (now : ℕ) :
    FreshIds { s with sessions := (s.sessions.open_ args now).2 } := by
  intro id hid
  have hid : s.sessions.nextId + 1 ≤ id := hid
  rw [SessionManager.uidOf_open, if_neg (Nat.ne_of_gt hid)]
  exact h id (Nat.le_of_lt hid)

theorem FreshIds.closed (h : FreshIds s) (id : SessionId) :
    FreshIds { s with sessions := (s.sessions.close id).2 } := by
  intro k hk
  dsimp only at hk ⊢
  rw [SessionManager.nextId_close] at hk
  rw [SessionManager.uidOf_close]
  split
  · rfl
  · exact h k hk

open SessionManager in
/-- Each call by itself, so that it holds between the calls of other threads. -/
theorem FreshIds.perform (o : Op) (s : State) (h : FreshIds s) : FreshIds (perform o s).2 := by
  have hview : ∀ {sm : SessionManager}, s.sessions.SameView sm → FreshIds { s with sessions := sm } :=
    fun hsame => h.congr hsame.uidOf hsame.nextId
  cases o with
  | openSession args now => exact h.opened args now
  | closeSession id => exact h.closed id
  | activateSession id => exact h.congr (fun _ => uidOf_activate) nextId_activate
  | assignSeat id seat => exact h.congr (fun _ => uidOf_assignSeat) rfl
  | lockSession id => exact hview sameView_lock
  | unlockSession id => exact hview sameView_unlock
  | lockAll => exact hview sameView_lockAll
  | unlockAll => exact hview sameView_unlockAll
  | setIdleHint id idle now => exact hview sameView_setIdleHint
  | setLockedHint id locked => exact hview sameView_setLockedHint
  | idleTimer allIdle now threshold =>
    obtain ⟨since, heq⟩ := s.idleTimer_snd allIdle now threshold
    simp only [Logind.perform, heq]
    exact h
  | _ => exact h

theorem FreshIds.serve (h : FreshIds s) :
    FreshIds (s.handle config a.peer a.req a.out).2 :=
  Locks.Code.run_invariant FreshIds.perform h

theorem SeatsAgree.opened (h : SeatsAgree s) (hfresh : FreshIds s) (seatId : String)
    (hseat : ∀ id, s'.sessions.seatOf id =
      if id = s.sessions.nextId then some seatId else s.sessions.seatOf id)
    (hseats : s'.seats = s.seats.addSession seatId s.sessions.nextId) : SeatsAgree s' := by
  have hnew : s.sessions.seatOf s.sessions.nextId = none :=
    SessionManager.seatOf_eq_none_of_uidOf (hfresh _ le_rfl)
  intro k seat' hget'
  rw [hseats, SeatManager.get?_addSession] at hget'
  simp only [hseat]
  by_cases hk : k = seatId
  · subst hk
    rw [if_pos rfl] at hget'
    obtain ⟨seat, hget, rfl⟩ := Option.map_eq_some_iff.1 hget'
    obtain ⟨hnodup, hmem⟩ := h k seat hget
    have hnot : s.sessions.nextId ∉ seat.sessions := by
      rw [hmem, hnew]
      simp
    have hadded : (SeatManager.addedTo s.sessions.nextId seat).sessions =
        seat.sessions ++ [s.sessions.nextId] := by
      simp [SeatManager.addedTo, hnot]
    rw [hadded]
    refine ⟨List.nodup_append.2 ⟨hnodup, List.nodup_singleton _, ?_⟩, fun id => ?_⟩
    · intro x hx y hy
      rw [List.mem_singleton.1 hy]
      exact fun hxy => hnot (hxy ▸ hx)
    · rw [List.mem_append, List.mem_singleton, hmem]
      by_cases hid : id = s.sessions.nextId <;> simp [hid]
  · rw [if_neg hk] at hget'
    obtain ⟨hnodup, hmem⟩ := h k seat' hget'
    refine ⟨hnodup, fun id => ?_⟩
    rw [hmem]
    by_cases hid : id = s.sessions.nextId
    · simp [hid, hnew, Ne.symm hk]
    · simp [hid]

/-- A session leaves its seat and goes. -/
theorem SeatsAgree.closed {id : SessionId} (h : SeatsAgree s)
    (hseat : ∀ k, s'.sessions.seatOf k = if k = id then none else s.sessions.seatOf k)
    (hseats : s'.seats =
      (s.sessions.seatOf id).elim s.seats fun seat => s.seats.removeSession seat id) :
    SeatsAgree s' := by
  intro k seat' hget'
  rw [hseats] at hget'
  simp only [hseat]
  -- a seat that the session is not on keeps its list
  have hkeep : s.sessions.seatOf id ≠ some k → s.seats.seats.get? k = some seat' →
      seat'.sessions.Nodup ∧ ∀ j, j ∈ seat'.sessions ↔
        (if j = id then none else s.sessions.seatOf j) = some k := by
    intro hne hget
    obtain ⟨hnodup, hmem⟩ := h k seat' hget
    refine ⟨hnodup, fun j => ?_⟩
    rw [hmem]
    by_cases hj : j = id
    · simp [hj, hne]
    · simp [hj]
  cases hon : s.sessions.seatOf id with
  | none =>
    rw [hon] at hget'
    exact hkeep (by simp [hon]) hget'
  | some seatId =>
    rw [hon, Option.elim_some, SeatManager.get?_removeSession] at hget'
    by_cases hk : k = seatId
    · rw [if_pos hk] at hget'
      obtain ⟨seat, hget, rfl⟩ := Option.map_eq_some_iff.1 hget'
      obtain ⟨hnodup, hmem⟩ := h k seat hget
      refine ⟨hnodup.filter _, fun j => ?_⟩
      have hfilter : j ∈ (SeatManager.removedFrom id seat).sessions ↔ j ∈ seat.sessions ∧ j ≠ id := by
        simp [SeatManager.removedFrom]
      rw [hfilter, hmem]
      by_cases hj : j = id <;> simp [hj]
    · rw [if_neg hk] at hget'
      exact hkeep (by simp [hon, Ne.symm hk]) hget'

theorem SeatsAgree.serve (h : SeatsAgree s) (hfresh : FreshIds s) :
    SeatsAgree (s.handle config a.peer a.req a.out).2 := by
  by_cases hworks : Works s a.peer a.req
  · obtain ⟨peer, req, out⟩ := a
    dsimp only at hworks ⊢
    cases hworks with
    | openSession args =>
      cases hlogin : s.users.login args.uid args.username s.sessions.nextId out.now out.dir with
      | mk r um =>
        cases r with
        | error e =>
          rw [handle_openSession_error hlogin]
          refine h.congr (fun id => ?_) fun _ => rfl
          rw [SessionManager.seatOf_open]
          split
          · rename_i hid
            rw [hid]
            exact (SessionManager.seatOf_eq_none_of_uidOf (hfresh _ le_rfl)).symm
          · rfl
        | ok _ =>
          rw [handle_openSession_ok hlogin]
          exact h.opened hfresh "seat0" (fun _ => SessionManager.seatOf_open_assignSeat) rfl
    | closeSession hget hpeer =>
      rw [handle_closeSession hget hpeer]
      refine h.closed (fun _ => SessionManager.seatOf_close) ?_
      simp [SessionManager.seatOf, hget]
    | @activateSession _ id x hget =>
      obtain ⟨bus, -, heq⟩ := handle_activateSession hget
      rw [heq]
      refine h.congr (fun _ => SessionManager.seatOf_activate) fun k => ?_
      cases x.seat with
      | none => rfl
      | some seatId => exact SeatManager.map_get?_activate fun _ _ => rfl
    | activateSessionOnSeat hget hmem =>
      rw [handle_activateSessionOnSeat hget hmem]
      refine h.congr (fun _ => SessionManager.seatOf_activate) fun k => ?_
      exact SeatManager.map_get?_activate fun _ _ => rfl
    | setLinger hpeer =>
      rw [handle_setLinger hpeer]
      exact h
    | terminateUser uid =>
      rw [handle_terminateUser]
      exact h
  · have hsame := sameStores_of_not_works config a.out hworks
    exact h.congr hsame.sessions.seatOf hsame.seats_sessions

end Seats

/-- There is no session, and there is the seat that a first one would be put on. -/
structure NoSession (s : State) : Prop where
  uidOf : ∀ id, s.sessions.uidOf id = none
  seat0 : ∃ seat, s.seats.seats.get? "seat0" = some seat

section NoSession
variable {s s' : State} {config : LogindConfig} {a : Asked}

theorem ActiveAgrees.congr (h : ActiveAgrees s) (hview : s.sessions.SameView s'.sessions)
    (hseats : ∀ k, (s'.seats.seats.get? k).map Seat.listing =
      (s.seats.seats.get? k).map Seat.listing) : ActiveAgrees s' := by
  intro k seat' hget' id
  have hlisted := hseats k
  rw [hget', Option.map_some] at hlisted
  obtain ⟨seat, hget, hlisting⟩ := Option.map_eq_some_iff.1 hlisted.symm
  have hactive : seat.activeSession = seat'.activeSession := congrArg Prod.snd hlisting
  rw [← hactive, hview.seatOf, hview.stateOf]
  exact h k seat hget id

/-- Without a session, nothing but the opening of one changes what is told of sessions. -/
theorem NoSession.same (h : NoSession s) (config : LogindConfig) (hseats : SeatsAgree s)
    (hopen : ¬a.OpensAsRoot) :
    s.sessions.SameView (s.handle config a.peer a.req a.out).2.sessions ∧
      ∀ k, ((s.handle config a.peer a.req a.out).2.seats.seats.get? k).map Seat.listing =
        (s.seats.seats.get? k).map Seat.listing := by
  by_cases hworks : Works s a.peer a.req
  · obtain ⟨peer, req, out⟩ := a
    dsimp only at hworks ⊢
    have hget : ∀ id, s.sessions.sessions.get? id = none :=
      fun id => SessionManager.uidOf_eq_none.1 (h.uidOf id)
    cases hworks with
    | openSession args => exact absurd ⟨rfl, args, rfl⟩ hopen
    | @closeSession _ id x hx | @activateSession _ id x hx =>
      rw [hget id] at hx
      cases hx
    | @activateSessionOnSeat _ id seatId seat hseat hmem =>
      have hon := ((hseats seatId seat hseat).2 id).1 hmem
      rw [SessionManager.seatOf_eq_none_of_uidOf (h.uidOf id)] at hon
      cases hon
    | setLinger hpeer =>
      rw [handle_setLinger hpeer]
      exact ⟨.refl _, fun _ => rfl⟩
    | terminateUser uid =>
      rw [handle_terminateUser]
      exact ⟨.refl _, fun _ => rfl⟩
  · have hsame := sameStores_of_not_works config a.out hworks
    exact ⟨hsame.sessions, hsame.seats⟩

theorem NoSession.serve (h : NoSession s) (hseats : SeatsAgree s) (hopen : ¬a.OpensAsRoot) :
    NoSession (s.handle config a.peer a.req a.out).2 := by
  obtain ⟨hview, hlisting⟩ := h.same config hseats hopen
  refine ⟨fun id => (hview.uidOf id).trans (h.uidOf id), ?_⟩
  obtain ⟨seat, hseat⟩ := h.seat0
  have hlisted := hlisting "seat0"
  rw [hseat, Option.map_some] at hlisted
  obtain ⟨seat', hseat', -⟩ := Option.map_eq_some_iff.1 hlisted
  exact ⟨seat', hseat'⟩

/-- The first session is the active one of its seat, but is not activated. -/
theorem NoSession.not_activeAgrees {args : OpenSession} {out : Outside} {um : UserManager}
    (h : NoSession s) (hactive : ActiveAgrees s)
    (hlogin : s.users.login args.uid args.username s.sessions.nextId out.now out.dir = (.ok (), um)) :
    ¬ActiveAgrees (s.handle config 0 (.openSession args) out).2 := by
  intro hafter
  obtain ⟨seat, hseat⟩ := h.seat0
  have hnobody : seat.activeSession = none := by
    cases hid : seat.activeSession with
    | none => rfl
    | some id =>
      have hon := ((hactive "seat0" seat hseat id).1 hid).1
      rw [SessionManager.seatOf_eq_none_of_uidOf (h.uidOf id)] at hon
      cases hon
  rw [handle_openSession_ok hlogin] at hafter
  have hget : (s.seats.addSession "seat0" s.sessions.nextId).seats.get? "seat0" =
      some (SeatManager.addedTo s.sessions.nextId seat) := by
    rw [SeatManager.get?_addSession, if_pos rfl, hseat, Option.map_some]
  have hfirst : (SeatManager.addedTo s.sessions.nextId seat).activeSession =
      some s.sessions.nextId := by
    simp [SeatManager.addedTo, hnobody]
  have hstate := ((hafter "seat0" _ hget s.sessions.nextId).1 hfirst).2
  rw [SessionManager.stateOf_open_assignSeat, if_pos rfl] at hstate
  cases hstate

theorem storesAgree_serve_iff (h : NoSession s) (hagree : StoresAgree s) :
    StoresAgree (s.handle config a.peer a.req a.out).2 ↔ ¬a.OpensAsRoot := by
  have hfresh : FreshIds s := fun id _ => h.uidOf id
  constructor
  · intro hafter hopen
    obtain ⟨peer, req, out⟩ := a
    obtain ⟨hpeer, args, hreq⟩ := hopen
    dsimp only at hpeer hreq hafter
    subst hpeer hreq
    cases hlogin : s.users.login args.uid args.username s.sessions.nextId out.now out.dir with
    | mk r um =>
      cases r with
      | ok _ => exact h.not_activeAgrees hagree.active hlogin hafter.active
      | error e =>
        have hok := (usersAgree_openSession_iff hagree.users hfresh).1 hafter.users
        obtain ⟨r, -, heq⟩ | ⟨hget, dirs, -, ⟨-, -, heq⟩ | ⟨hfail, e, heq⟩⟩ :=
          s.users.login_cases args.uid args.username s.sessions.nextId out.now out.dir
        · rw [heq] at hlogin
          cases hlogin
        · rw [heq] at hlogin
          cases hlogin
        · rw [hok hget] at hfail
          cases hfail
  · intro hopen
    obtain ⟨hview, hlisting⟩ := h.same config hagree.seats hopen
    refine ⟨hagree.seats.serve hfresh, hagree.active.congr hview hlisting, ?_⟩
    refine (usersAgree_serve_iff hagree.users hfresh).2 fun hworks => ?_
    obtain ⟨peer, req, out⟩ := a
    dsimp only at hworks ⊢
    cases hworks with
    | openSession args => exact absurd ⟨rfl, args, rfl⟩ hopen
    | terminateUser uid =>
      intro r hget
      refine List.eq_nil_iff_forall_not_mem.2 fun id hid => ?_
      have huid := ((hagree.users uid).1 r hget id).1 hid
      rw [h.uidOf id] at huid
      cases huid
    | closeSession | activateSession | activateSessionOnSeat | setLinger => trivial

end NoSession

section Init
variable (config : LogindConfig) (boot : Boot)

theorem noSession_init : NoSession (State.init config boot) := ⟨fun _ => rfl, _, rfl⟩

theorem usersAgree_init : UsersAgree (State.init config boot) := by
  have hnew : UsersAgree { State.init config boot with
      users := .new boot.lingerFiles boot.runtimeDirs } := by
    intro u
    refine ⟨fun r hr => ?_, fun _ id hid => ?_⟩
    · cases hr
    · cases hid
  exact UserManager.loadLingerState_invariant
    (p := fun um => UsersAgree { State.init config boot with users := um })
    (fun _ _ h => h.setLinger) hnew

theorem storesAgree_init : StoresAgree (State.init config boot) := by
  have hseat : ∀ k seat, (State.init config boot).seats.seats.get? k = some seat →
      seat.sessions = [] ∧ seat.activeSession = none := by
    intro k seat hget
    simp only [State.init, SeatManager.detect, Table.get?_insert] at hget
    split at hget
    · cases hget
      exact ⟨rfl, rfl⟩
    · cases hget
  refine ⟨fun k seat hget => ?_, fun k seat hget id => ?_, usersAgree_init config boot⟩
  · rw [(hseat k seat hget).1]
    exact ⟨List.nodup_nil, fun id => iff_of_false (by simp) fun hid => by cases hid⟩
  · rw [(hseat k seat hget).2]
    exact iff_of_false (by simp) fun hid => by cases hid.1

end Init

/-- The seats always list the sessions that are on them. The records of the users list theirs as
long as every user that a session is opened for can be logged in and no user with a session is
terminated. All stores agree only as long as root opens no session at all: the first one becomes the
active session of its seat without being activated. -/
theorem storesAgree_iff (config : LogindConfig) (boot : Boot) (es : List Asked) :
    Always (State.serve config) SeatsAgree (State.init config boot) es ∧
    (Always (State.serve config) UsersAgree (State.init config boot) es ↔
      Meets (State.serve config) UsersKept (State.init config boot) es) ∧
    (Always (State.serve config) StoresAgree (State.init config boot) es ↔
      ∀ a ∈ es, ¬a.OpensAsRoot) := by
  have hfresh : FreshIds (State.init config boot) := fun _ _ => rfl
  have hagree := storesAgree_init config boot
  have htotal : ∀ s a, (State.serve config s a).isSome := fun _ _ => rfl
  refine ⟨?_, ?_, ?_⟩
  · have hkeep : ∀ {s t : State} {a : Asked}, FreshIds s ∧ SeatsAgree s → True →
        State.serve config s a = some t → FreshIds t ∧ SeatsAgree t := by
      intro s t a h _ hstep
      cases hstep
      exact ⟨h.1.serve, h.2.serve h.1⟩
    exact always_of_meets hkeep (fun _ h => h.2) ⟨hfresh, hagree.seats⟩
      ((meets_forall_iff htotal).2 fun _ _ => trivial)
  · refine always_iff_meets_of_invariant (J := FreshIds) ?_ ?_ hfresh hagree.users es
    · intro s t a h _ _ hstep
      cases hstep
      exact h.serve
    · intro s t a h husers hstep
      cases hstep
      exact usersAgree_serve_iff husers h
  · rw [← meets_forall_iff htotal]
    refine always_iff_meets_of_invariant (J := NoSession) ?_ ?_ (noSession_init config boot) hagree es
    · intro s t a h hstores hopen hstep
      cases hstep
      exact h.serve hstores.seats hopen
    · intro s t a h hstores hstep
      cases hstep
      exact storesAgree_serve_iff h hstores

/-- The first session that root opens. -/
def firstSession : Asked where
  peer := 0
  req := .openSession { uid := 1000, username := "alice", leaderPid := 100, sessionType := .tty }

theorem not_storesAgree_firstSession :
    ¬Always (State.serve {}) StoresAgree (State.init {} {}) [firstSession] := by
  intro h
  have hexec : exec (State.serve {}) (State.init {} {}) [firstSession] = some _ := rfl
  have hstate := (((h.last hexec).active "seat0" _ rfl 1).1 rfl).2
  cases hstate

end Quantra.Logind
