import Quantra.Logind.Control

/-! Whether a seat can have two active sessions, however the handlers interleave. -/
namespace Quantra.Logind
open Runs Locks Locks.Code

namespace SessionManager

/-- At most one session on a seat is active. -/
def OneActive (sm : SessionManager) : Prop :=
  ∀ k i j, sm.seatOf i = some k → sm.seatOf j = some k → sm.stateOf i = some .active →
    sm.stateOf j = some .active → i = j

/-- The session is not active, or no other is active on the seat. -/
def FreeFor (sm : SessionManager) (id : SessionId) (seat : String) : Prop :=
  sm.stateOf id = some .active →
    ∀ j, j ≠ id → sm.seatOf j = some seat → sm.stateOf j ≠ some .active

variable {sm sm' : SessionManager} {id : SessionId}

/-- Every session that is on a seat was there before, in the same state. -/
theorem OneActive.mono (h : sm.OneActive)
    (hold : ∀ i k, sm'.seatOf i = some k → sm.seatOf i = some k ∧ sm'.stateOf i = sm.stateOf i) :
    sm'.OneActive := by
  intro k i j hi hj hsi hsj
  obtain ⟨hi, hstatei⟩ := hold i k hi
  obtain ⟨hj, hstatej⟩ := hold j k hj
  rw [hstatei] at hsi
  rw [hstatej] at hsj
  exact h k i j hi hj hsi hsj

theorem OneActive.congr (h : sm.OneActive) (hview : SameView sm sm') : sm'.OneActive :=
  h.mono fun i _ hi => ⟨(hview.seatOf i).symm.trans hi, hview.stateOf i⟩

theorem OneActive.open_ {args : OpenSession} {now : ℕ} (h : sm.OneActive) :
    (sm.open_ args now).2.OneActive := by
  refine h.mono fun i k hi => ?_
  rw [seatOf_open] at hi
  split at hi
  · cases hi
  · rename_i hne
    exact ⟨hi, stateOf_open.trans (if_neg hne)⟩

theorem OneActive.close (h : sm.OneActive) : (sm.close id).2.OneActive := by
  refine h.mono fun i k hi => ?_
  rw [seatOf_close] at hi
  split at hi
  · cases hi
  · rename_i hne
    exact ⟨hi, stateOf_close.trans (if_neg hne)⟩

theorem OneActive.activate (h : sm.OneActive) : (sm.activate id).2.OneActive := by
  cases hget : sm.sessions.get? id with
  | none =>
    have hsame : (sm.activate id).2 = sm := by simp [SessionManager.activate, hget]
    rw [hsame]
    exact h
  | some x =>
    have hseat : sm.seatOf id = x.seat := by simp [seatOf, hget]
    intro k i j hi hj hsi hsj
    rw [seatOf_activate] at hi hj
    rw [stateOf_activate_eq_active hget] at hsi hsj
    -- where `id` is, no other session is active any more
    have hother : ∀ i, sm.seatOf i = some k → sm.seatOf id = some k →
        sm.seatOf i ≠ x.seat → False := by
      intro i hi hid hne
      rw [← hseat, hi, hid] at hne
      exact hne rfl
    rcases hsi with rfl | ⟨hsi, hni⟩
    · rcases hsj with rfl | ⟨-, hnj⟩
      · rfl
      · exact (hother j hj hi hnj).elim
    · rcases hsj with rfl | ⟨hsj, -⟩
      · exact (hother i hi hj hni).elim
      · exact h k i j hi hj hsi hsj

theorem oneActive_assignSeat_iff {seat : String} (h : sm.OneActive) :
    (sm.assignSeat id seat).OneActive ↔ sm.FreeFor id seat := by
  have hseatOf : ∀ k, k ≠ id → (sm.assignSeat id seat).seatOf k = sm.seatOf k := by
    intro k hk
    unfold seatOf
    rw [get?_assignSeat, if_neg hk]
  have hself : sm.stateOf id = some .active → (sm.assignSeat id seat).seatOf id = some seat := by
    intro hactive
    obtain ⟨x, hget, -⟩ := Option.map_eq_some_iff.1 hactive
    unfold seatOf
    rw [get?_assignSeat, if_pos rfl, hget]
    rfl
  constructor
  · intro hafter hactive j hj hseat hsj
    refine hj (hafter seat j id ?_ (hself hactive) ?_ ?_)
    · rw [hseatOf j hj]
      exact hseat
    · rw [stateOf_assignSeat]
      exact hsj
    · rw [stateOf_assignSeat]
      exact hactive
  · intro hfree k i j hi hj hsi hsj
    rw [stateOf_assignSeat] at hsi hsj
    by_cases hid : i = id
    · by_cases hjd : j = id
      · rw [hid, hjd]
      · rw [hid] at hi hsi
        rw [hself hsi] at hi
        cases hi
        rw [hseatOf j hjd] at hj
        exact absurd hsj (hfree hsi j hjd hj)
    · rw [hseatOf i hid] at hi
      by_cases hjd : j = id
      · rw [hjd] at hj hsj
        rw [hself hsj] at hj
        cases hj
        exact absurd hsi (hfree hsj i hid hi)
      · rw [hseatOf j hjd] at hj
        exact h k i j hi hj hsi hsj

end SessionManager

/-- The seat of a session is set only where that makes no second active session on it. -/
def Fits (s : State) : Op → Prop
  | .assignSeat id seat => s.sessions.FreeFor id seat
  | _ => True

open SessionManager in
theorem oneActive_perform_iff {s : State} (o : Op) (h : s.sessions.OneActive) :
    (perform o s).2.sessions.OneActive ↔ Fits s o := by
  cases o with
  | assignSeat id seat => exact oneActive_assignSeat_iff h
  | openSession args now => exact iff_of_true h.open_ trivial
  | closeSession id => exact iff_of_true h.close trivial
  | activateSession id => exact iff_of_true h.activate trivial
  | lockSession id => exact iff_of_true (h.congr sameView_lock) trivial
  | unlockSession id => exact iff_of_true (h.congr sameView_unlock) trivial
  | lockAll => exact iff_of_true (h.congr sameView_lockAll) trivial
  | unlockAll => exact iff_of_true (h.congr sameView_unlockAll) trivial
  | setIdleHint id idle now => exact iff_of_true (h.congr sameView_setIdleHint) trivial
  | setLockedHint id locked => exact iff_of_true (h.congr sameView_setLockedHint) trivial
  | idleTimer allIdle now threshold =>
    obtain ⟨since, heq⟩ := s.idleTimer_snd allIdle now threshold
    have hsame : (perform (.idleTimer allIdle now threshold) s).2 = { s with idleSince := since } :=
      heq
    rw [hsame]
    exact iff_of_true h trivial
  | _ => exact iff_of_true h trivial

/-- The call that a thread makes next, if it makes one, fits. -/
def CallFits (M : LogindMachine) : Event Thread Task → Prop
  | .start _ _ => True
  | .run t =>
    match M.code t with
    | .call o _ => Fits M.shared o
    | _ => True

theorem oneActive_step_iff {config : LogindConfig} {M N : LogindMachine} {e : Event Thread Task}
    (h : M.shared.sessions.OneActive) (hstep : (system config).step M e = some N) :
    N.shared.sessions.OneActive ↔ CallFits M e := by
  cases e with
  | start t task =>
    obtain ⟨-, -, rfl⟩ := System.step_start hstep
    exact iff_of_true h trivial
  | run t =>
    dsimp only [CallFits]
    obtain ⟨m, next, hcode, -, rfl⟩ | ⟨m, next, hcode, rfl⟩ | ⟨o, next, hcode, rfl⟩ :=
      System.step_run hstep
    · rw [hcode]
      exact iff_of_true h trivial
    · rw [hcode]
      exact iff_of_true h trivial
    · rw [hcode]
      exact oneActive_perform_iff o h

/-- However the requests interleave, a seat has at most one active session exactly as long as no
session that was activated before its seat was set is then put on a seat that has an active one. -/
theorem oneActive_iff (config : LogindConfig) (boot : Boot) (es : List (Event Thread Task)) :
    Always (system config).step (fun M => M.shared.sessions.OneActive)
        (LogindMachine.init config boot) es ↔
      Meets (system config).step CallFits (LogindMachine.init config boot) es := by
  refine always_iff_meets oneActive_step_iff ?_ es
  intro k i j hi
  cases hi

/-- A second session is activated by another client before its seat is set. -/
def activatedTooEarly : List (Event Thread Task) :=
  let alice : OpenSession :=
    { uid := 1000, username := "alice", leaderPid := 100, sessionType := .tty }
  .start (.conn 0) (.request 0 (.openSession alice) {}) ::
      (List.replicate 18 (.run (.conn 0)) : List (Event Thread Task)) ++
    .start (.conn 0) (.request 0 (.activateSession 1) {}) ::
      (List.replicate 12 (.run (.conn 0)) : List (Event Thread Task)) ++
    .start (.conn 0) (.request 0 (.openSession alice) {}) ::
      (List.replicate 9 (.run (.conn 0)) : List (Event Thread Task)) ++
    .start (.conn 1) (.request 0 (.activateSession 2) {}) ::
      (List.replicate 3 (.run (.conn 1)) : List (Event Thread Task)) ++
    (List.replicate 2 (.run (.conn 0)) : List (Event Thread Task))

theorem not_oneActive_activatedTooEarly :
    ¬Always (system {}).step (fun M => M.shared.sessions.OneActive) (LogindMachine.init {} {})
      activatedTooEarly := by
  intro h
  have hexec : exec (system {}).step (LogindMachine.init {} {}) activatedTooEarly = some _ := rfl
  have hone : (1 : SessionId) = 2 := h.last hexec "seat0" 1 2 rfl rfl rfl rfl
  cases hone

end Quantra.Logind
