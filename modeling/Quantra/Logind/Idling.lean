import Quantra.Lib.Timeline
import Quantra.Logind.Control
import Mathlib.Tactic.Tauto

/-! The idle loop of `power.rs` among everything else that happens to the daemon. -/
namespace Quantra.Logind
open Locks Locks.Code
open Timeline (Stamped Watched run stateAt)

/-- The timer is left to the loop. -/
def Op.leavesTimer : Op → Bool
  | .idleTimer .. => false
  | _ => true

/-- A call of another thread, or a turn of the loop. -/
inductive IdleEvent
  | call (o : Op) (h : o.leavesTimer)
  | poll (answers : PowerAnswers)

def happen (config : LogindConfig) (s : State) (e : Stamped IdleEvent) : State :=
  match e.what with
  | .call o _ => (perform o s).2
  | .poll answers => ((idleTurn config e.time answers).run perform s).2

namespace State

/-- There are sessions, all with the idle hint, and nothing blocks idling. -/
def Idle (s : State) : Prop :=
  s.sessions.sessions.rows ≠ [] ∧ (∀ x ∈ s.sessions.sessions.rows, x.idleHint) ∧
    ∀ i ∈ s.inhibitors.inhibitors.rows, i.mode = .block → .idle ∉ i.what

instance (s : State) : Decidable s.Idle := inferInstanceAs (Decidable (_ ∧ _ ∧ _))

/-- What a turn of the loop looks at. -/
def foundIdle (s : State) : Bool :=
  !s.inhibitors.isBlocked .idle && (!s.sessions.all.isEmpty && s.sessions.all.all (·.idleHint))

theorem foundIdle_iff (s : State) : s.foundIdle ↔ s.Idle := by
  have hempty : s.sessions.all = [] ↔ s.sessions.sessions.rows = [] := by
    rw [← List.length_eq_zero_iff, ← List.length_eq_zero_iff, SessionManager.all,
      List.length_mergeSort]
  have hall : s.sessions.all.all (·.idleHint) ↔ ∀ x ∈ s.sessions.sessions.rows, x.idleHint := by
    simp [SessionManager.all]
  have hblocked : s.inhibitors.isBlocked .idle = false ↔
      ∀ i ∈ s.inhibitors.inhibitors.rows, i.mode = .block → .idle ∉ i.what := by
    simp [InhibitorManager.isBlocked]
  unfold foundIdle Idle
  rw [Bool.and_eq_true, Bool.and_eq_true, Bool.not_eq_true', Bool.not_eq_true', hblocked, hall,
    List.isEmpty_eq_false_iff, Ne, hempty]
  tauto

end State

/-- For how long the system is to be idle, in nanoseconds. -/
def idleThreshold (config : LogindConfig) : ℕ := max config.idleActionSec 1 * 10 ^ 9

/-- The timer has run out in a turn at `now`. -/
def State.timerExpired (config : LogindConfig) (s : State) (now : ℕ) : Prop :=
  s.Idle ∧ s.idleSince.getD now + idleThreshold config ≤ now

instance (config : LogindConfig) (s : State) (now : ℕ) : Decidable (s.timerExpired config now) :=
  inferInstanceAs (Decidable (_ ∧ _))

section Turn
variable {config : LogindConfig} {s : State} {now : ℕ} {answers : PowerAnswers}

theorem idleThreshold_pos : 0 < idleThreshold config := by
  unfold idleThreshold
  omega

theorem perform_idleSince {o : Op} (h : o.leavesTimer) : (perform o s).2.idleSince = s.idleSince := by
  cases o with
  | idleTimer => cases h
  | _ => rfl

theorem idleAct_idleSince : ((idleAct config answers).run perform s).2.idleSince = s.idleSince := by
  by_cases hlock : config.idleAction = .lock
  · simp [idleAct, hlock, acquire, release, within, guarded, perform, State.putSessions]
  · cases hcall : idleCall config.idleAction <;>
      simp [idleAct, hlock, hcall, acquire, release, forSome, ignoring, invoke, perform,
        State.putCommands]

theorem idleTimer_eq (allIdle : Bool) :
    s.idleTimer allIdle now (idleThreshold config) =
      if allIdle ∧ s.idleSince.getD now + idleThreshold config ≤ now then
        (true, { s with idleSince := none })
      else (false, { s with idleSince := if allIdle then some (s.idleSince.getD now) else none }) := by
  have hpos : 0 < idleThreshold config := idleThreshold_pos
  have hle : now - s.idleSince.getD now ≥ idleThreshold config ↔
      s.idleSince.getD now + idleThreshold config ≤ now := by omega
  unfold State.idleTimer
  cases allIdle with
  | false => simp
  | true => simp [hle]

/-- A turn executes the idle action when the timer has run out, and otherwise changes nothing but the
timer. -/
theorem run_idleTurn (haction : config.idleAction ≠ .ignore) :
    ((idleTurn config now answers).run perform s).2 =
      if s.timerExpired config now then
        ((idleAct config answers).run perform { s with idleSince := none }).2
      else { s with idleSince := if s.Idle then some (s.idleSince.getD now) else none } := by
  have hrun : ((idleTurn config now answers).run perform s).2 =
      if (s.idleTimer s.foundIdle now (idleThreshold config)).1 then
        ((idleAct config answers).run perform
          (s.idleTimer s.foundIdle now (idleThreshold config)).2).2
      else (s.idleTimer s.foundIdle now (idleThreshold config)).2 := by
    unfold idleTurn
    have hthreshold : max config.idleActionSec 1 * 10 ^ 9 = idleThreshold config := rfl
    dsimp only
    rw [if_neg haction, hthreshold]
    cases hblocked : s.inhibitors.isBlocked .idle with
    | true =>
      have hfound : s.foundIdle = false := by simp [State.foundIdle, hblocked]
      simp [within, guarded, perform, ignoring, invoke, hblocked, hfound, idleTimer_eq]
    | false =>
      have hfound : s.foundIdle = (!s.sessions.all.isEmpty && s.sessions.all.all (·.idleHint)) := by
        simp [State.foundIdle, hblocked]
      rw [hfound]
      cases hfire : (s.idleTimer (!s.sessions.all.isEmpty && s.sessions.all.all (·.idleHint)) now
          (idleThreshold config)).1 <;>
        simp [within, guarded, perform, invoke, hblocked, hfire]
  rw [hrun, idleTimer_eq]
  simp only [State.foundIdle_iff]
  unfold State.timerExpired
  by_cases hidle : s.Idle <;>
    by_cases hle : s.idleSince.getD now + idleThreshold config ≤ now <;>
    simp [hidle, hle]

end Turn

/-- The timer of the loop, for a daemon in which the thread is started: not without an action. -/
def idleWatch (config : LogindConfig) : Watched State IdleEvent where
  step := happen config
  looks
    | .call .. => false
    | .poll _ => config.idleAction ≠ .ignore
  quiet := State.Idle
  since := State.idleSince
  span := idleThreshold config
  span_pos := idleThreshold_pos
  since_of_not_looks := by
    rintro s ⟨now, o | answers⟩ hlooks
    · exact perform_idleSince ‹_›
    · have haction : config.idleAction = .ignore := by simpa using hlooks
      simp [happen, idleTurn, haction]
  since_of_looks := by
    rintro s ⟨now, o | answers⟩ p hlooks hsince
    · cases hlooks
    · have haction : config.idleAction ≠ .ignore := by simpa using hlooks
      simp only [happen, run_idleTurn haction] at hsince
      split at hsince
      · rw [idleAct_idleSince] at hsince
        cases hsince
      · rename_i hexpired
        split at hsince
        · rename_i hidle
          cases hsince
          exact ⟨hidle, rfl, by_contra fun h => hexpired ⟨hidle, Nat.not_lt.1 h⟩⟩
        · cases hsince

/-- The calls and the turns of the loop in their order, the turns 30 seconds apart at least. -/
structure IdleTimeline (config : LogindConfig) where
  events : List (Stamped IdleEvent)
  ordered : Timeline.Ordered events
  apart : (events.filter fun e => (idleWatch config).looks e.what).Pairwise fun a b =>
    a.time + 30 * 10 ^ 9 ≤ b.time

/-- The idle action is executed when everyone has been idle, and nothing has blocked idling, for as
long as it is configured, if no turn of the loop misses that it was otherwise since the turn before.
Two executions are that far apart in any case. One turn of the loop is one event, at the instant at
which it samples the sessions and the inhibitors. -/
theorem idle_action_law (config : LogindConfig) (s : State) (hs : s.idleSince = none)
    (tl : IdleTimeline config) :
    ((idleWatch config).AllSeen s tl.events → (idleWatch config).Lawful s tl.events) ∧
      (idleWatch config).Spaced s tl.events :=
  ⟨fun hseen => Watched.lawful_of_allSeen hs tl.ordered hseen, Watched.spaced hs tl.ordered⟩

def seconds (n : ℕ) : ℕ := n * 10 ^ 9

def graphical : OpenSession where
  uid := 1000
  username := "user"
  leaderPid := 100
  sessionType := .wayland

/-- A session is opened, and its user leaves. -/
def leaving : List (Stamped IdleEvent) :=
  [⟨seconds 1, .call (.openSession graphical 1) rfl⟩, ⟨seconds 2, .call (.setIdleHint 1 true 2) rfl⟩]

/-- The user is there for ten seconds. -/
def visit : List (Stamped IdleEvent) :=
  [⟨seconds 40, .call (.setIdleHint 1 false 40) rfl⟩,
    ⟨seconds 50, .call (.setIdleHint 1 true 50) rfl⟩]

def turn (n : ℕ) : Stamped IdleEvent := ⟨seconds n, .poll {}⟩

def sleepy : LogindConfig where
  idleAction := .suspend
  idleActionSec := 20

def booted : State := .init sleepy { canSuspend := true }

def unbroken : IdleTimeline sleepy where
  events := leaving ++ [turn 30] ++ [turn 60]
  ordered := by decide
  apart := by decide

def interrupted : IdleTimeline sleepy where
  events := leaving ++ [turn 30] ++ visit ++ [turn 60]
  ordered := by decide
  apart := by decide

/-- The state after the first turn of the loop. -/
def away : State := { run (happen sleepy) booted leaving with idleSince := some (seconds 30) }

theorem run_leaving_turn : run (happen sleepy) booted (leaving ++ [turn 30]) = away := by
  rw [Timeline.run_concat]
  change ((idleTurn sleepy (seconds 30) {}).run perform (run (happen sleepy) booted leaving)).2 = away
  rw [run_idleTurn (by decide), if_neg (by decide), if_pos (by decide)]
  rfl

theorem unbroken_allSeen : (idleWatch sleepy).AllSeen booted unbroken.events := by
  have hquiet : (idleWatch sleepy).AllSeen booted leaving := by
    intro before e after heq hlooks
    have hcalls : ∀ a ∈ leaving, ¬(idleWatch sleepy).looks a.what = true := by decide
    exact absurd hlooks (hcalls e (by simp [heq]))
  refine Watched.atLooks_concat (Watched.atLooks_concat hquiet fun _ => ?_) fun _ => ?_
  · intro hsince
    exact absurd rfl hsince
  · intro _ _ q hq u hqu _ _
    have hq : seconds 30 = q := Option.some.inj hq
    have hpast : ∀ e ∈ leaving ++ [turn 30], e.time ≤ seconds 30 := by decide
    have hstate : stateAt (happen sleepy) booted (leaving ++ [turn 30]) u = away := by
      rw [Timeline.stateAt_of_le fun e he => (hpast e he).trans (hq.trans_le hqu), run_leaving_turn]
    change (stateAt (happen sleepy) booted (leaving ++ [turn 30]) u).Idle
    rw [hstate]
    decide

theorem idle_action_law_unbroken :
    (run (happen sleepy) booted (leaving ++ [turn 30])).timerExpired sleepy (seconds 60) ∧
      (idleWatch sleepy).Lawful booted unbroken.events ∧
        (idleWatch sleepy).Spaced booted unbroken.events := by
  have hlaw := idle_action_law sleepy booted rfl unbroken
  refine ⟨?_, hlaw.1 unbroken_allSeen, hlaw.2⟩
  rw [run_leaving_turn]
  decide

/-- The action is executed ten seconds after the user was there. -/
theorem executes_after_visit : ¬∀ (config : LogindConfig) (s : State), s.idleSince = none →
    ∀ tl : IdleTimeline config, (idleWatch config).Lawful s tl.events ∧
      (idleWatch config).Spaced s tl.events := by
  intro h
  have hlawful := (h sleepy booted rfl interrupted).1
  have hfires : (run (happen sleepy) booted (leaving ++ [turn 30] ++ visit)).timerExpired sleepy
      (seconds 60) := by
    rw [Timeline.run_append, run_leaving_turn]
    decide
  have hidle : (stateAt (happen sleepy) booted interrupted.events (seconds 45)).Idle :=
    hlawful (leaving ++ [turn 30] ++ visit) (turn 60) [] rfl rfl hfires (seconds 45) (by decide)
      (by decide)
  have hstate : stateAt (happen sleepy) booted interrupted.events (seconds 45) =
      run (happen sleepy) away (visit.take 1) := by
    rw [← run_leaving_turn, ← Timeline.run_append]
    rfl
  rw [hstate] at hidle
  exact absurd hidle (by decide)

end Quantra.Logind
