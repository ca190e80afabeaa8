import Quantra.Logind.Requests

/-! What a request of a user who is not root can do to the sessions, seats, inhibitors and records of
others. -/
namespace Quantra.Logind
open Runs Locks

/-- The state and the hints of a session are as they were. -/
def Session.SameHints (x x' : Session) : Prop :=
  x'.state = x.state ∧ x'.lockedHint = x.lockedHint ∧ x'.idleHint = x.idleHint

/-- The sessions of others than `u` are as they were. -/
def SessionManager.Spares (u : Uid) (sm sm' : SessionManager) : Prop :=
  ∀ id x, sm.sessions.get? id = some x → x.uid ≠ u →
    ∃ x', sm'.sessions.get? id = some x' ∧ x.SameHints x'

/-- The active session of each seat is as it was, or is now one of `u`. -/
def SeatsSpared (u : Uid) (s s' : State) : Prop :=
  ∀ k seat, s.seats.seats.get? k = some seat →
    ∃ seat', s'.seats.seats.get? k = some seat' ∧ (seat'.activeSession = seat.activeSession ∨
      ∃ id, seat'.activeSession = some id ∧ s'.sessions.uidOf id = some u)

/-- The descriptors of the devices of a seat. -/
def Seat.fds (seat : Seat) : List (Option ℤ) := seat.devices.map (·.fd)

/-- What the handling of a request of `u` must leave alone. -/
structure Untouched (u : Uid) (s s' : State) : Prop where
  sessions : s.sessions.Spares u s'.sessions
  active : SeatsSpared u s s'
  users : ∀ v, v ≠ u → s'.users.users.get? v = s.users.users.get? v
  inhibitors : ∀ id i, s.inhibitors.inhibitors.get? id = some i → i.uid ≠ u →
    s'.inhibitors.inhibitors.get? id = some i
  devices : ∀ k, (s'.seats.seats.get? k).map Seat.fds = (s.seats.seats.get? k).map Seat.fds
  scheduled : s'.power.scheduledShutdown = s.power.scheduledShutdown

/-- The session is one of `u` or is active already, and no session of another is active where it
is. -/
def MayActivate (u : Uid) (sm : SessionManager) (id : SessionId) (x : Session) : Prop :=
  (x.uid ≠ u → x.state = .active) ∧
    ∀ j y, sm.sessions.get? j = some y → j ≠ id → y.uid ≠ u → y.state = .active → y.seat ≠ x.seat

/-- The requests by which a user who is not root takes nothing from others. The handlers of those
that have a condition here, `CloseSession` apart, do not look at the peer. -/
def Harmless (u : Uid) (s : State) : Request → Prop
  | .closeSession id => ∀ x, s.sessions.sessions.get? id = some x → x.uid = u →
      ∀ k seat, x.seat = some k → s.seats.seats.get? k = some seat → seat.activeSession = some id →
        ∃ j, (seat.sessions.filter (· ≠ id)).head? = some j ∧ s.sessions.uidOf j = some u
  | .activateSession id => ∀ x, s.sessions.sessions.get? id = some x →
      MayActivate u s.sessions id x ∧
        ∀ k seat, x.seat = some k → s.seats.seats.get? k = some seat → id ∈ seat.sessions →
          x.uid = u ∨ seat.activeSession = some id
  | .activateSessionOnSeat id k => ∀ seat, s.seats.seats.get? k = some seat → id ∈ seat.sessions →
      (∀ x, s.sessions.sessions.get? id = some x → MayActivate u s.sessions id x) ∧
        (s.sessions.uidOf id = some u ∨ seat.activeSession = some id)
  | .lockSession id => ∀ x, s.sessions.sessions.get? id = some x → x.uid ≠ u → x.lockedHint = true
  | .unlockSession id => ∀ x, s.sessions.sessions.get? id = some x → x.uid ≠ u →
      x.lockedHint = false
  | .lockSessions => ∀ id x, s.sessions.sessions.get? id = some x → x.uid ≠ u → x.lockedHint = true
  | .unlockSessions => ∀ id x, s.sessions.sessions.get? id = some x → x.uid ≠ u →
      x.lockedHint = false
  | .setIdleHint id idle => ∀ x, s.sessions.sessions.get? id = some x → x.uid ≠ u →
      x.idleHint = idle
  | .setLockedHint id locked => ∀ x, s.sessions.sessions.get? id = some x → x.uid ≠ u →
      x.lockedHint = locked
  | .releaseDevice k devpath => ∀ seat, s.seats.seats.get? k = some seat →
      ∀ d, seat.devices.find? (fun d => d.path = devpath) = some d → d.fd = none
  | .releaseInhibitor id => ∀ i, s.inhibitors.inhibitors.get? id = some i → i.uid = u
  | .cancelScheduledShutdown => s.power.scheduledShutdown = none
  | _ => True

section Sessions
variable {u : Uid} {sm : SessionManager} {id : SessionId}

theorem Session.SameHints.refl (x : Session) : x.SameHints x := ⟨rfl, rfl, rfl⟩

theorem sameHints_lockedHint {x : Session} {locked : Bool} :
    x.SameHints { x with lockedHint := locked } ↔ x.lockedHint = locked :=
  ⟨fun h => h.2.1.symm, fun h => ⟨rfl, h.symm, rfl⟩⟩

theorem sameHints_idleHint {x : Session} {idle : Bool} {since : Option ℕ} :
    x.SameHints { x with idleHint := idle, idleSince := since } ↔ x.idleHint = idle :=
  ⟨fun h => h.2.2.symm, fun h => ⟨rfl, rfl, h.symm⟩⟩

theorem spares_refl (u : Uid) (sm : SessionManager) : sm.Spares u sm :=
  fun _ x hget _ => ⟨x, hget, .refl x⟩

/-- A change of one session. -/
theorem spares_alter_iff {f : Session → Session} {hf : ∀ x, (f x).id = x.id} :
    sm.Spares u (sm.alter id f hf).2 ↔
      ∀ x, sm.sessions.get? id = some x → x.uid ≠ u → x.SameHints (f x) := by
  constructor
  · intro h x hget hx
    obtain ⟨x', hget', hsame⟩ := h id x hget hx
    rw [SessionManager.get?_alter, if_pos rfl, hget] at hget'
    cases hget'
    exact hsame
  · intro h k y hget hy
    rw [SessionManager.get?_alter, hget]
    by_cases hk : k = id
    · subst hk
      exact ⟨f y, if_pos rfl, h y hget hy⟩
    · exact ⟨y, if_neg hk, .refl y⟩

/-- The same change of every session, one after another. -/
theorem get?_foldl_alter {f : Session → Session} {hf : ∀ x, (f x).id = x.id} {ids : List SessionId}
    (hids : ids.Nodup) {k : SessionId} :
    (ids.foldl (fun sm id => (sm.alter id f hf).2) sm).sessions.get? k =
      if k ∈ ids then (sm.sessions.get? k).map f else sm.sessions.get? k := by
  induction ids generalizing sm with
  | nil => simp
  | cons id ids ih =>
    obtain ⟨hid, hrest⟩ := List.nodup_cons.1 hids
    rw [List.foldl_cons, ih hrest, SessionManager.get?_alter]
    by_cases hk : k = id
    · simp [hk, hid]
    · simp [hk]

theorem spares_foldl_alter_iff {f : Session → Session} {hf : ∀ x, (f x).id = x.id} :
    sm.Spares u ((sm.sessions.rows.map Session.id).foldl (fun sm id => (sm.alter id f hf).2) sm) ↔
      ∀ id x, sm.sessions.get? id = some x → x.uid ≠ u → x.SameHints (f x) := by
  have hmem : ∀ {id x}, sm.sessions.get? id = some x → id ∈ sm.sessions.rows.map Session.id := by
    intro id x hget
    obtain ⟨hrow, hid⟩ := Table.get?_eq_some_iff.1 hget
    exact List.mem_map.2 ⟨x, hrow, hid⟩
  constructor
  · intro h id x hget hx
    obtain ⟨x', hget', hsame⟩ := h id x hget hx
    rw [get?_foldl_alter sm.sessions.nodup, if_pos (hmem hget), hget] at hget'
    cases hget'
    exact hsame
  · intro h id x hget hx
    refine ⟨f x, ?_, h id x hget hx⟩
    rw [get?_foldl_alter sm.sessions.nodup, if_pos (hmem hget), hget]
    rfl

theorem spares_close {x : Session} (hget : sm.sessions.get? id = some x) (hx : x.uid = u) :
    sm.Spares u (sm.close id).2 := by
  intro k y hy hne
  refine ⟨y, ?_, .refl y⟩
  rw [SessionManager.get?_close, hy, if_neg]
  rintro rfl
  rw [hget] at hy
  cases hy
  exact hne hx

theorem spares_activate_iff {x : Session} (hget : sm.sessions.get? id = some x) :
    sm.Spares u (sm.activate id).2 ↔ MayActivate u sm id x := by
  have hafter : ∀ {k y}, sm.sessions.get? k = some y →
      (sm.activate id).2.sessions.get? k = some (SessionManager.activated id x.seat y) := by
    intro k y hy
    rw [SessionManager.get?_activate, hget, hy]
    rfl
  constructor
  · intro h
    constructor
    · intro hx
      obtain ⟨x', hget', hstate, -⟩ := h id x hget hx
      rw [hafter hget] at hget'
      cases hget'
      rw [← hstate]
      simp [SessionManager.activated, Table.key_of_get? hget]
    · intro j y hy hj hne hactive hseat
      obtain ⟨y', hy', hstate, -⟩ := h j y hy hne
      rw [hafter hy] at hy'
      cases hy'
      have hid : y.id ≠ id := by
        rw [Table.key_of_get? hy]
        exact hj
      simp [SessionManager.activated, hid, hactive, hseat] at hstate
  · intro h j y hy hne
    refine ⟨_, hafter hy, ?_⟩
    unfold SessionManager.activated
    split
    · rename_i hid
      have hj : j = id := (Table.key_of_get? hy).symm.trans hid
      subst hj
      rw [hget] at hy
      cases hy
      exact ⟨(h.1 hne).symm, rfl, rfl⟩
    · rename_i hid
      split
      · rename_i hactive
        rw [Table.key_of_get? hy] at hid
        exact absurd hactive.2 (h.2 j y hy hid hne hactive.1)
      · exact .refl y

end Sessions

section Seats
variable {u : Uid} {s s' : State} {id : SessionId} {k : String} {seat : Seat}

theorem seatsSpared_of_same (h : s'.seats = s.seats) : SeatsSpared u s s' :=
  fun _ seat hget => ⟨seat, h ▸ hget, .inl rfl⟩

theorem seatsSpared_activate_iff (hget : s.seats.seats.get? k = some seat) (hmem : id ∈ seat.sessions)
    (hseats : s'.seats = (s.seats.activate k id).2) :
    SeatsSpared u s s' ↔ s'.sessions.uidOf id = some u ∨ seat.activeSession = some id := by
  obtain ⟨seat₀, hget₀, -, -, hafter⟩ | ⟨hnot, -, -⟩ := s.seats.activate_cases k id
  · rw [hget] at hget₀
    cases hget₀
    constructor
    · intro h
      obtain ⟨seat', hget', hactive⟩ := h k seat hget
      rw [hseats, hafter, if_pos rfl] at hget'
      cases hget'
      rcases hactive with hsame | ⟨j, hj, huid⟩
      · exact .inr hsame.symm
      · cases hj
        exact .inl huid
    · intro h j seatj hgetj
      by_cases hj : j = k
      · subst hj
        rw [hget] at hgetj
        cases hgetj
        refine ⟨{ seat with activeSession := some id }, ?_, ?_⟩
        · rw [hseats, hafter, if_pos rfl]
        · rcases h with huid | hsame
          · exact .inr ⟨id, rfl, huid⟩
          · exact .inl hsame.symm
      · refine ⟨seatj, ?_, .inl rfl⟩
        rw [hseats, hafter, if_neg hj, hgetj]
  · exact absurd hmem (hnot seat hget)

theorem fds_activate (sm : SeatManager) (k : String) (id : SessionId) (j : String) :
    ((sm.activate k id).2.seats.get? j).map Seat.fds = (sm.seats.get? j).map Seat.fds :=
  SeatManager.map_get?_activate fun _ _ => rfl

theorem fds_removeSession (sm : SeatManager) (k : String) (id : SessionId) (j : String) :
    ((sm.removeSession k id).seats.get? j).map Seat.fds = (sm.seats.get? j).map Seat.fds := by
  dsimp only [SeatManager.removeSession]
  exact Table.map_get?_modify fun _ => rfl

theorem seatsSpared_removeSession_iff
    (huid : ∀ j, s'.sessions.uidOf j = if j = id then none else s.sessions.uidOf j)
    (hseats : s'.seats = s.seats.removeSession k id) :
    SeatsSpared u s s' ↔ ∀ seat, s.seats.seats.get? k = some seat → seat.activeSession = some id →
      ∃ j, (seat.sessions.filter (· ≠ id)).head? = some j ∧ s.sessions.uidOf j = some u := by
  -- the session that comes next is another than `id`
  have hnext : ∀ {seat : Seat} {j : SessionId}, (seat.sessions.filter (· ≠ id)).head? = some j →
      j ≠ id := by
    intro seat j hj
    have hmem := List.mem_of_mem_head? hj
    simpa using (List.mem_filter.1 hmem).2
  have hactive : ∀ {seat : Seat}, seat.activeSession = some id →
      (SeatManager.removedFrom id seat).activeSession = (seat.sessions.filter (· ≠ id)).head? :=
    fun hact => if_pos hact
  constructor
  · intro h seat hget hact
    obtain ⟨seat', hget', hspared⟩ := h k seat hget
    rw [hseats, SeatManager.get?_removeSession, if_pos rfl, hget, Option.map_some] at hget'
    cases hget'
    rw [hactive hact, hact] at hspared
    rcases hspared with hsame | ⟨j, hj, hu⟩
    · exact absurd rfl (hnext hsame)
    · rw [huid, if_neg (hnext hj)] at hu
      exact ⟨j, hj, hu⟩
  · intro h j seat hget
    by_cases hj : j = k
    · subst hj
      refine ⟨SeatManager.removedFrom id seat, ?_, ?_⟩
      · rw [hseats, SeatManager.get?_removeSession, if_pos rfl, hget, Option.map_some]
      · by_cases hact : seat.activeSession = some id
        · obtain ⟨j, hj, hu⟩ := h seat hget hact
          rw [hactive hact]
          refine .inr ⟨j, hj, ?_⟩
          rw [huid, if_neg (hnext hj)]
          exact hu
        · exact .inl (if_neg hact)
    · refine ⟨seat, ?_, .inl rfl⟩
      rw [hseats, SeatManager.get?_removeSession, if_neg hj, hget]

theorem map_fd_alterDevice_iff {devpath : String} {ds : List SeatDevice} :
    (SeatManager.alterDevice devpath (fun d => { d with fd := none }) ds).map (·.fd) =
        ds.map (·.fd) ↔
      ∀ d, ds.find? (fun d => d.path = devpath) = some d → d.fd = none := by
  induction ds with
  | nil => simp [SeatManager.alterDevice]
  | cons d ds ih =>
    by_cases hd : d.path = devpath
    · simp [SeatManager.alterDevice, hd, eq_comm]
    · simp [SeatManager.alterDevice, hd, ih]

end Seats

/-- The ids that are still to be given are in no use. -/
def InhibitorManager.Fresh (im : InhibitorManager) : Prop :=
  ∀ id, im.nextId ≤ id → im.inhibitors.get? id = none

section Untouched
variable {u : Uid} {s : State} {config : LogindConfig} {out : Outside}

theorem Untouched.refl (u : Uid) (s : State) : Untouched u s s :=
  ⟨spares_refl u _, seatsSpared_of_same rfl, fun _ _ => rfl, fun _ _ hget _ => hget, fun _ => rfl, rfl⟩

theorem Keeps.untouched {s' : State} (h : Keeps s s') : Untouched u s s' where
  sessions := h.sessions ▸ spares_refl u _
  active := seatsSpared_of_same h.seats
  users _ _ := by rw [h.users]
  inhibitors _ _ hget _ := by rw [h.inhibitors, hget]
  devices _ := by rw [h.seats]
  scheduled := by rw [h.power]

/-- Where only the sessions have changed. -/
theorem untouched_sessions_iff {sm : SessionManager} {bus : EventBus} :
    Untouched u s { s with sessions := sm, bus := bus } ↔ s.sessions.Spares u sm := by
  constructor
  · exact fun h => h.sessions
  · intro h
    exact { Untouched.refl u s with sessions := h, active := seatsSpared_of_same rfl }

/-- Where only the sessions and the seats have changed, and no device. -/
theorem untouched_seats_iff {sm : SessionManager} {seats : SeatManager} {bus : EventBus}
    (hfds : ∀ k, (seats.seats.get? k).map Seat.fds = (s.seats.seats.get? k).map Seat.fds) :
    Untouched u s { s with sessions := sm, seats := seats, bus := bus } ↔
      s.sessions.Spares u sm ∧ SeatsSpared u s { s with sessions := sm, seats := seats } := by
  constructor
  · exact fun h => ⟨h.sessions, h.active⟩
  · intro h
    exact { Untouched.refl u s with sessions := h.1, active := h.2, devices := hfds }

theorem untouched_activateSession_iff {id : SessionId} :
    Untouched u s (s.handle config u (.activateSession id) out).2 ↔
      Harmless u s (.activateSession id) := by
  cases hget : s.sessions.sessions.get? id with
  | none =>
    rw [handle_activateSession_missing hget]
    exact iff_of_true (.refl u s) fun x hx => by simp [hget] at hx
  | some x =>
    obtain ⟨bus, -, heq⟩ := handle_activateSession hget
    have huid : s.sessions.uidOf id = some x.uid := by simp [SessionManager.uidOf, hget]
    have hiff : Harmless u s (.activateSession id) ↔ MayActivate u s.sessions id x ∧
        ∀ k seat, x.seat = some k → s.seats.seats.get? k = some seat → id ∈ seat.sessions →
          x.uid = u ∨ seat.activeSession = some id := by
      constructor
      · exact fun h => h x hget
      · intro h y hy
        rw [hget] at hy
        cases hy
        exact h
    rw [heq, hiff]
    cases hseat : x.seat with
    | none =>
      rw [Option.elim_none, untouched_sessions_iff, spares_activate_iff hget]
      simp
    | some k =>
      rw [Option.elim_some, untouched_seats_iff (fds_activate s.seats k id), spares_activate_iff hget]
      refine and_congr_right fun _ => ?_
      by_cases hmem : ∃ seat, s.seats.seats.get? k = some seat ∧ id ∈ seat.sessions
      · obtain ⟨seat, hk, hmem⟩ := hmem
        rw [seatsSpared_activate_iff hk hmem rfl]
        dsimp only
        rw [SessionManager.uidOf_activate, huid, Option.some.injEq]
        constructor
        · rintro h k' seat' hk' hseat' -
          cases hk'
          rw [hk] at hseat'
          cases hseat'
          exact h
        · exact fun h => h k seat rfl hk hmem
      · obtain ⟨seat, hk, hin, -⟩ | ⟨-, -, hsame⟩ := s.seats.activate_cases k id
        · exact absurd ⟨seat, hk, hin⟩ hmem
        · refine iff_of_true (seatsSpared_of_same hsame) ?_
          rintro k' seat' hk' hseat' hin
          cases hk'
          exact absurd ⟨seat', hseat', hin⟩ hmem

theorem untouched_activateSessionOnSeat_iff {id : SessionId} {k : String} :
    Untouched u s (s.handle config u (.activateSessionOnSeat id k) out).2 ↔
      Harmless u s (.activateSessionOnSeat id k) := by
  by_cases hmem : ∃ seat, s.seats.seats.get? k = some seat ∧ id ∈ seat.sessions
  · obtain ⟨seat, hk, hmem⟩ := hmem
    have hiff : Harmless u s (.activateSessionOnSeat id k) ↔
        (∀ x, s.sessions.sessions.get? id = some x → MayActivate u s.sessions id x) ∧
          (s.sessions.uidOf id = some u ∨ seat.activeSession = some id) := by
      constructor
      · exact fun h => h seat hk hmem
      · intro h seat' hk' _
        rw [hk] at hk'
        cases hk'
        exact h
    rw [handle_activateSessionOnSeat hk hmem, hiff,
      untouched_seats_iff (fds_activate s.seats k id), seatsSpared_activate_iff hk hmem rfl]
    dsimp only
    rw [SessionManager.uidOf_activate]
    refine and_congr_left fun _ => ?_
    cases hget : s.sessions.sessions.get? id with
    | none =>
      have hsame : (s.sessions.activate id).2 = s.sessions := by simp [SessionManager.activate, hget]
      rw [hsame]
      exact iff_of_true (spares_refl u _) fun x hx => by cases hx
    | some x =>
      rw [spares_activate_iff hget]
      simp
  · rw [handle_activateSessionOnSeat_error fun seat hk hin => hmem ⟨seat, hk, hin⟩]
    exact iff_of_true (.refl u s) fun seat hk hin => absurd ⟨seat, hk, hin⟩ hmem

theorem untouched_closeSession_iff {id : SessionId} (hu : u ≠ 0) :
    Untouched u s (s.handle config u (.closeSession id) out).2 ↔
      Harmless u s (.closeSession id) := by
  cases hget : s.sessions.sessions.get? id with
  | none =>
    rw [handle_closeSession_missing hget]
    exact iff_of_true (.refl u s) fun x hx => by simp [hget] at hx
  | some x =>
    by_cases hx : x.uid = u
    · have hpeer : ¬(u ≠ 0 ∧ u ≠ x.uid) := fun h => h.2 hx.symm
      have hiff : Harmless u s (.closeSession id) ↔
          ∀ k seat, x.seat = some k → s.seats.seats.get? k = some seat →
            seat.activeSession = some id →
              ∃ j, (seat.sessions.filter (· ≠ id)).head? = some j ∧ s.sessions.uidOf j = some u := by
        constructor
        · exact fun h => h x hget hx
        · intro h y hy _
          rw [hget] at hy
          cases hy
          exact h
      have husers : ∀ v, v ≠ u → (s.users.logout x.uid id config).users.get? v =
          s.users.users.get? v := fun v hv => UserManager.get?_logout_ne (hx ▸ hv)
      rw [handle_closeSession hget hpeer, hiff]
      cases hseat : x.seat with
      | none =>
        refine iff_of_true ?_ (by simp)
        exact { Untouched.refl u s with
          sessions := spares_close hget hx, active := seatsSpared_of_same rfl, users := husers }
      | some k =>
        have hspared : SeatsSpared u s { s with
            sessions := (s.sessions.close id).2, seats := s.seats.removeSession k id } ↔ _ :=
          seatsSpared_removeSession_iff (fun _ => SessionManager.uidOf_close) rfl
        constructor
        · rintro h k' seat hk' hk hact
          cases hk'
          exact hspared.1 h.active seat hk hact
        · intro h
          exact { Untouched.refl u s with
            sessions := spares_close hget hx
            active := hspared.2 fun seat => h k seat rfl
            users := husers
            devices := fds_removeSession s.seats k id }
    · rw [handle_closeSession_denied hget ⟨hu, fun h => hx h.symm⟩]
      refine iff_of_true (.refl u s) fun x' hx' huid => ?_
      rw [hget] at hx'
      cases hx'
      exact absurd huid hx

theorem untouched_releaseDevice_iff {k devpath : String} :
    Untouched u s (s.handle config u (.releaseDevice k devpath) out).2 ↔
      Harmless u s (.releaseDevice k devpath) := by
  have heq : (s.handle config u (.releaseDevice k devpath) out).2 =
      { s with seats := (s.seats.releaseDevice k devpath).2 } := rfl
  rw [heq]
  unfold SeatManager.releaseDevice
  cases hk : s.seats.seats.get? k with
  | none => exact iff_of_true (.refl u s) fun seat hseat => by simp [hk] at hseat
  | some seat =>
    have hiff : Harmless u s (.releaseDevice k devpath) ↔
        ∀ d, seat.devices.find? (fun d => d.path = devpath) = some d → d.fd = none := by
      constructor
      · exact fun h => h seat hk
      · intro h seat' hk'
        rw [hk] at hk'
        cases hk'
        exact h
    rw [hiff, ← map_fd_alterDevice_iff]
    constructor
    · intro h
      have hfds := h.devices k
      simp only [Table.get?_modify, if_true, hk, Option.map_some, Option.some.injEq] at hfds
      exact hfds
    · intro h
      refine { Untouched.refl u s with active := fun j seatj hj => ?_, devices := fun j => ?_ }
      · simp only [Table.get?_modify, hj]
        by_cases hjk : j = k
        · exact ⟨_, if_pos hjk, .inl rfl⟩
        · exact ⟨_, if_neg hjk, .inl rfl⟩
      · simp only [Table.get?_modify]
        by_cases hjk : j = k
        · rw [if_pos hjk, hjk, hk, Option.map_some, Option.map_some, Option.map_some]
          exact congrArg some h
        · rw [if_neg hjk]

theorem untouched_releaseInhibitor_iff {id : InhibitorId} :
    Untouched u s (s.handle config u (.releaseInhibitor id) out).2 ↔
      Harmless u s (.releaseInhibitor id) := by
  have heq : (s.handle config u (.releaseInhibitor id) out).2 =
      { s with inhibitors := (s.inhibitors.release id).2 } := rfl
  have hget : ∀ j, (s.inhibitors.release id).2.inhibitors.get? j =
      if j = id then none else s.inhibitors.inhibitors.get? j := fun _ => Table.get?_remove
  rw [heq]
  constructor
  · intro h i hi
    by_contra hne
    have hkept := h.inhibitors id i hi hne
    rw [hget, if_pos rfl] at hkept
    cases hkept
  · intro h
    refine { Untouched.refl u s with inhibitors := fun j i hi hne => ?_ }
    rw [hget, if_neg]
    · exact hi
    · rintro rfl
      exact hne (h i hi)

/-- A new inhibitor takes the place of none. -/
theorem untouched_takeInhibitor {args : TakeInhibitor} (h : s.inhibitors.Fresh) :
    Untouched u s (s.handle config u (.takeInhibitor args) out).2 := by
  have heq : (s.handle config u (.takeInhibitor args) out).2 =
      { s with inhibitors := (s.inhibitors.take args out.now).2 } := rfl
  rw [heq]
  refine { Untouched.refl u s with inhibitors := fun j i hi _ => ?_ }
  have hold : j ≠ s.inhibitors.nextId := by
    rintro rfl
    rw [h _ le_rfl] at hi
    cases hi
  exact Table.get?_insert.trans ((if_neg hold).trans hi)

theorem untouched_handle_iff (h : s.inhibitors.Fresh) (hu : u ≠ 0) (req : Request) :
    Untouched u s (s.handle config u req out).2 ↔ Harmless u s req := by
  cases req with
  | closeSession id => exact untouched_closeSession_iff hu
  | activateSession id => exact untouched_activateSession_iff
  | activateSessionOnSeat id k => exact untouched_activateSessionOnSeat_iff
  | lockSession id =>
    obtain ⟨bus, -, heq⟩ := handle_lockSession config s u out id
    rw [heq, untouched_sessions_iff]
    apply spares_alter_iff.trans
    exact forall_congr' fun x => imp_congr_right fun _ => imp_congr_right fun _ => sameHints_lockedHint
  | unlockSession id =>
    obtain ⟨bus, -, heq⟩ := handle_unlockSession config s u out id
    rw [heq, untouched_sessions_iff]
    apply spares_alter_iff.trans
    exact forall_congr' fun x => imp_congr_right fun _ => imp_congr_right fun _ => sameHints_lockedHint
  | lockSessions | unlockSessions =>
    apply (untouched_sessions_iff.trans spares_foldl_alter_iff).trans
    exact forall₂_congr fun id x => imp_congr_right fun _ => imp_congr_right fun _ =>
      sameHints_lockedHint
  | setIdleHint id idle =>
    apply (untouched_sessions_iff.trans spares_alter_iff).trans
    exact forall_congr' fun x => imp_congr_right fun _ => imp_congr_right fun _ => sameHints_idleHint
  | setLockedHint id locked =>
    apply (untouched_sessions_iff.trans spares_alter_iff).trans
    exact forall_congr' fun x => imp_congr_right fun _ => imp_congr_right fun _ => sameHints_lockedHint
  | releaseDevice k devpath => exact untouched_releaseDevice_iff
  | releaseInhibitor id => exact untouched_releaseInhibitor_iff
  | cancelScheduledShutdown =>
    constructor
    · exact fun h => h.scheduled.symm
    · intro h
      exact { Untouched.refl u s with scheduled := h.symm }
  | openSession args =>
    rw [handle_openSession_denied hu]
    exact iff_of_true (.refl u s) trivial
  | setLinger uid enable =>
    refine iff_of_true ?_ trivial
    by_cases hpeer : u ≠ 0 ∧ u ≠ uid
    · rw [handle_setLinger_denied hpeer]
      exact .refl u s
    · have huid : uid = u := by
        by_contra hne
        exact hpeer ⟨hu, fun h => hne h.symm⟩
      rw [handle_setLinger hpeer]
      exact { Untouched.refl u s with
        users := fun v hv => UserManager.get?_setLinger_ne (huid ▸ hv) }
  | terminateUser uid =>
    rw [handle_terminateUser_denied hu]
    exact iff_of_true (.refl u s) trivial
  | takeDevice k devpath =>
    rw [handle_takeDevice, if_pos hu]
    exact iff_of_true (.refl u s) trivial
  | takeInhibitor args => exact iff_of_true (untouched_takeInhibitor h) trivial
  | scheduleShutdown action usec =>
    rw [handle_scheduleShutdown, if_pos hu]
    exact iff_of_true (.refl u s) trivial
  | _ => exact iff_of_true (keeps_of_not_writes rfl).untouched trivial

end Untouched

theorem InhibitorManager.Fresh.perform (o : Op) (s : State) (h : s.inhibitors.Fresh) :
    (perform o s).2.inhibitors.Fresh := by
  have hremoved : ∀ (ids : List InhibitorId) (t : Table InhibitorId Inhibitor Inhibitor.id),
      (∀ id, s.inhibitors.nextId ≤ id → t.get? id = none) → ∀ id, s.inhibitors.nextId ≤ id →
        (ids.foldl (fun t id => t.remove id) t).get? id = none := by
    intro ids
    induction ids with
    | nil => exact fun _ ht => ht
    | cons j ids ih =>
      intro t ht
      refine ih _ fun id hid => ?_
      rw [Table.get?_remove, ht id hid, ite_self]
  cases o with
  | takeInhibitor args now =>
    intro id hid
    have hlt : s.inhibitors.nextId < id := hid
    exact Table.get?_insert.trans ((if_neg (Nat.ne_of_gt hlt)).trans (h id (Nat.le_of_lt hlt)))
  | releaseInhibitor id => exact hremoved [id] _ h
  | gcDeadPids pidExists => exact hremoved _ _ h
  | idleTimer allIdle now threshold =>
    obtain ⟨since, heq⟩ := s.idleTimer_snd allIdle now threshold
    have hsame : (Logind.perform (.idleTimer allIdle now threshold) s).2 =
        { s with idleSince := since } := heq
    rw [hsame]
    exact h
  | _ => exact h

theorem InhibitorManager.fresh_of_reach {config : LogindConfig} {boot : Boot} {M : LogindMachine}
    (hreach : Reach (system config).step (fun _ _ => True) (LogindMachine.init config boot) M) :
    M.shared.inhibitors.Fresh := by
  have hkeep : ∀ {M N : LogindMachine} {e : Event Thread Task}, M.shared.inhibitors.Fresh → True →
      (system config).step M e = some N → N.shared.inhibitors.Fresh :=
    fun hM _ hstep => System.step_shared (fun o s => InhibitorManager.Fresh.perform o s) hM hstep
  exact hreach.invariant hkeep fun _ _ => rfl

/-- In every state that the threads of the program can reach, a request of a user who is not root
leaves the sessions, records, seats, inhibitors and devices of others and the scheduled shutdown
alone exactly if it is harmless there. -/
theorem untouched_iff (config : LogindConfig) (boot : Boot) {M : LogindMachine}
    (hreach : Reach (system config).step (fun _ _ => True) (LogindMachine.init config boot) M)
    {u : Uid} (hu : u ≠ 0) (req : Request) (out : Outside) :
    Untouched u M.shared (M.shared.handle config u req out).2 ↔ Harmless u M.shared req := by
  exact untouched_handle_iff (InhibitorManager.fresh_of_reach hreach) hu req

/-- Root opens a session for the user 1000. -/
def aliceLogsIn : List (Event Thread Task) :=
  .start (.conn 0) (.request 0 (.openSession
    { uid := 1000, username := "alice", leaderPid := 100, sessionType := .tty }) {}) ::
      List.replicate 18 (.run (.conn 0))

/-- The user 1001 unlocks a session that is not locked. -/
theorem untouched_unlockSession :
    ∃ M, Reach (system {}).step (fun _ _ => True) (LogindMachine.init {} {}) M ∧
      M.shared.sessions.uidOf 1 = some 1000 ∧
        Untouched 1001 M.shared (M.shared.handle {} 1001 (.unlockSession 1) {}).2 := by
  have hexec : exec (system {}).step (LogindMachine.init {} {}) aliceLogsIn = some _ := rfl
  refine ⟨_, Reach.of_exec hexec, rfl, ?_⟩
  refine (untouched_iff {} {} (Reach.of_exec hexec) (by decide) (.unlockSession 1) {}).2 ?_
  intro x hget _
  cases hget
  rfl

/-- The user 1001 locks the session of the user 1000. -/
theorem not_untouched_lockSession :
    ∃ M, Reach (system {}).step (fun _ _ => True) (LogindMachine.init {} {}) M ∧
      ¬Untouched 1001 M.shared (M.shared.handle {} 1001 (.lockSession 1) {}).2 := by
  have hexec : exec (system {}).step (LogindMachine.init {} {}) aliceLogsIn = some _ := rfl
  refine ⟨_, Reach.of_exec hexec, fun h => ?_⟩
  obtain ⟨x', hget, -, hlocked, -⟩ := h.sessions 1 _ rfl (by decide)
  cases hget
  cases hlocked

end Quantra.Logind
