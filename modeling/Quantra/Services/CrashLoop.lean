import Quantra.Lib.SlidingWindow
import Quantra.Services.Supervisor

/-! The crash-loop breaker of `restart_monitor`: a deque of restart times over a sliding window. -/
namespace Quantra.Supervisor
open Quantra.Services Quantra.Signals SlidingWindow Runs

/-- What a pass of the monitor's loop reads after the process is gone. Instants are in
nanoseconds. -/
structure Exit where
  now : ℕ
  code : ℤ
  stopRequested : Bool
  host : Host

/-- Why the monitor left its loop. -/
inductive Ending
  | stopping
  | crashLoop
  | noRestart
  | chained
  | invalid
  deriving DecidableEq, Repr

/-- The monitor between two exits, with the times at which it decided to restart and the time of
the last exit. -/
structure Breaker where
  restartTimes : List ℕ := []
  ended : Option Ending := none
  approved : List ℕ := []
  lastExit : ℕ := 0

/-- `Duration::from_secs(svc.restart_interval_sec)`. -/
def window (svc : Service) : ℕ := svc.restartIntervalSec * 1000000000

/-- The deque after the breaker, `none` where it gives up. -/
def breaker (svc : Service) (now : ℕ) (restartTimes : List ℕ) : Option (List ℕ) :=
  if svc.maxRestarts > 0 then
    let restartTimes := evict (window svc) now restartTimes
    if restartTimes.length % 2 ^ 32 ≥ svc.maxRestarts then none
    else some (restartTimes ++ [now])
  else some restartTimes

/-- What comes after the decision to restart: the chained service, or the launch, of which a
failure is tried again with the next pass. -/
def afterRestart (svc : Service) (e : Exit) : Option Ending :=
  if Sup.chains svc e.code then some .chained
  else match restartLaunch e.host none svc with
    | .error (.giveUp _) => some .invalid
    | _ => none

/-- One pass of the loop of `restart_monitor`. -/
def Breaker.pass (svc : Service) (b : Breaker) (e : Exit) : Breaker :=
  let b := { b with lastExit := e.now }
  if e.stopRequested then { b with ended := some .stopping }
  else match breaker svc e.now b.restartTimes with
    | none => { b with ended := some .crashLoop }
    | some restartTimes =>
      let b := { b with restartTimes }
      if Sup.restarts svc e.code then
        { b with approved := b.approved ++ [e.now], ended := afterRestart svc e }
      else { b with ended := some .noRestart }

def Breaker.step (svc : Service) (b : Breaker) (e : Exit) : Option Breaker :=
  if b.ended = none then some (b.pass svc e) else none

/-- The deque is what the approvals leave of the window, and no window has too many of them. -/
structure Breaker.Windowed (svc : Service) (b : Breaker) : Prop where
  sorted : b.approved.Pairwise (· ≤ ·)
  past : ∀ t ∈ b.approved, t ≤ b.lastExit
  deque : b.ended = none → b.restartTimes = recent (window svc) b.lastExit b.approved
  limited : Limited svc.maxRestarts (window svc) b.approved

/-- The breaker decides what the supervisor's monitor leaves open. -/
theorem monitorStep_decide {svc : Service} {host : Host} {sys : Pid1 Tag} {sup : Sup} {k pid : ℕ}
    {code : ℤ} (h : sup.monitors[k]? = some (.decide pid code)) (now : ℕ)
    (restartTimes : List ℕ) :
    sup.monitorStep svc host sys k (breaker svc now restartTimes).isNone =
      some (sup.setMonitor k
        (if (breaker svc now restartTimes).isSome ∧ Sup.restarts svc code then .sleep pid code
          else .dead)) := by
  unfold Sup.monitorStep
  rw [h]
  dsimp only
  cases hbreaker : breaker svc now restartTimes with
  | none =>
    have hmax : 0 < svc.maxRestarts := by
      apply Nat.pos_of_ne_zero
      intro hzero
      rw [breaker, if_neg (by omega)] at hbreaker
      cases hbreaker
    simp [hmax]
  | some times => simp

theorem lastExit_pass (svc : Service) (b : Breaker) (e : Exit) :
    (b.pass svc e).lastExit = e.now := by
  unfold Breaker.pass
  dsimp only
  split
  · rfl
  · cases breaker svc e.now b.restartTimes with
    | none => rfl
    | some restartTimes =>
      dsimp only
      split
      · rfl
      · rfl

section
variable {svc : Service} {b : Breaker} {e : Exit} (hm : 0 < svc.maxRestarts)
  (hu32 : svc.maxRestarts < 2 ^ 32)
include hm hu32

/-- The evicted deque is the window before the exit, and its length needs no more than 32 bits. -/
theorem breaker_eq (hb : b.Windowed svc) (hrun : b.ended = none) (hnow : b.lastExit ≤ e.now) :
    breaker svc e.now b.restartTimes =
      if (recent (window svc) e.now b.approved).length = svc.maxRestarts then none
      else some (recent (window svc) e.now b.approved ++ [e.now]) := by
  have hsorted : (recent (window svc) b.lastExit b.approved).Pairwise (· ≤ ·) :=
    hb.sorted.filter _
  have hevict : evict (window svc) e.now b.restartTimes =
      recent (window svc) e.now b.approved := by
    rw [hb.deque hrun, evict_eq_recent hsorted, recent_recent hnow]
  have hle : (recent (window svc) e.now b.approved).length ≤ svc.maxRestarts :=
    length_recent_le hb.limited fun t ht => Nat.le_trans (hb.past t ht) hnow
  have hmod : (recent (window svc) e.now b.approved).length % 2 ^ 32 =
      (recent (window svc) e.now b.approved).length := Nat.mod_eq_of_lt (by omega)
  unfold breaker
  rw [if_pos hm]
  simp only [hevict, hmod]
  by_cases hfull : (recent (window svc) e.now b.approved).length = svc.maxRestarts
  · rw [if_pos hfull, if_pos (by omega)]
  · rw [if_neg hfull, if_neg (by omega)]

theorem windowed_pass (hb : b.Windowed svc) (hrun : b.ended = none) (hnow : b.lastExit ≤ e.now) :
    (b.pass svc e).Windowed svc := by
  have hpast : ∀ t ∈ b.approved, t ≤ e.now := fun t ht => Nat.le_trans (hb.past t ht) hnow
  have hdead : ∀ {b' : Breaker}, b'.approved = b.approved → b'.lastExit = e.now →
      b'.ended ≠ none → b'.Windowed svc := by
    intro b' happroved hlast hended
    refine ⟨?_, ?_, fun h => absurd h hended, ?_⟩
    · rw [happroved]
      exact hb.sorted
    · rw [happroved, hlast]
      exact hpast
    · rw [happroved]
      exact hb.limited
  unfold Breaker.pass
  dsimp only
  rw [breaker_eq hm hu32 hb hrun hnow]
  split
  · exact hdead rfl rfl (Option.some_ne_none _)
  · by_cases hfull : (recent (window svc) e.now b.approved).length = svc.maxRestarts
    · rw [if_pos hfull]
      exact hdead rfl rfl (Option.some_ne_none _)
    · rw [if_neg hfull]
      dsimp only
      have hle : (recent (window svc) e.now b.approved).length ≤ svc.maxRestarts :=
        length_recent_le hb.limited hpast
      split
      · constructor
        · show (b.approved ++ [e.now]).Pairwise (· ≤ ·)
          rw [List.pairwise_append]
          refine ⟨hb.sorted, List.pairwise_singleton _ _, fun t ht u hu => ?_⟩
          rw [List.mem_singleton] at hu
          rw [hu]
          exact hpast t ht
        · intro t ht
          rw [List.mem_append, List.mem_singleton] at ht
          obtain ht | rfl := ht
          · exact hpast t ht
          · exact Nat.le_refl _
        · intro _
          exact (recent_concat (window svc) b.approved e.now).symm
        · exact hb.limited.concat (by omega)
      · exact hdead rfl rfl (Option.some_ne_none _)

end

theorem ended_pass_iff {svc : Service} {b : Breaker} {e : Exit} (hm : 0 < svc.maxRestarts)
    (hu32 : svc.maxRestarts < 2 ^ 32) (hb : b.Windowed svc) (hrun : b.ended = none)
    (hnow : b.lastExit ≤ e.now) :
    (b.pass svc e).ended = some .crashLoop ↔ e.stopRequested = false ∧
      (recent (window svc) e.now b.approved).length = svc.maxRestarts := by
  unfold Breaker.pass
  dsimp only
  rw [breaker_eq hm hu32 hb hrun hnow]
  cases e.stopRequested with
  | true => simp
  | false =>
    by_cases hfull : (recent (window svc) e.now b.approved).length = svc.maxRestarts
    · simp [hfull]
    · rw [if_neg hfull, if_neg Bool.false_ne_true]
      dsimp only
      refine iff_of_false ?_ fun h => hfull h.2
      split
      · unfold afterRestart
        split
        · simp
        · split
          · simp
          · simp
      · simp

theorem windowed_start (svc : Service) : ({} : Breaker).Windowed svc :=
  ⟨.nil, fun _ ht => absurd ht List.not_mem_nil, fun _ => rfl, limited_nil⟩

/-- Along the exits the deque is the window, and the last exit is the last of them. -/
theorem windowed_exec {svc : Service} (hm : 0 < svc.maxRestarts)
    (hu32 : svc.maxRestarts < 2 ^ 32) {es : List Exit} {b b' : Breaker} (hb : b.Windowed svc)
    (hes : es.Pairwise fun e e' => e.now ≤ e'.now) (hlast : ∀ e ∈ es, b.lastExit ≤ e.now)
    (hexec : exec (Breaker.step svc) b es = some b') :
    b'.Windowed svc ∧ ∀ now, b.lastExit ≤ now → (∀ e ∈ es, e.now ≤ now) → b'.lastExit ≤ now := by
  induction es generalizing b with
  | nil =>
    cases hexec
    exact ⟨hb, fun now hnow _ => hnow⟩
  | cons e es ih =>
    obtain ⟨hfirst, hrest⟩ := List.pairwise_cons.1 hes
    obtain ⟨c, hc, hexec⟩ := Option.bind_eq_some_iff.1 hexec
    unfold Breaker.step at hc
    split at hc
    · rename_i hrun
      cases hc
      have hnow : b.lastExit ≤ e.now := hlast e List.mem_cons_self
      have hexit : (b.pass svc e).lastExit = e.now := lastExit_pass svc b e
      obtain ⟨hwindowed, hbound⟩ := ih (windowed_pass hm hu32 hb hrun hnow) hrest
        (fun e' he' => by rw [hexit]; exact hfirst e' he') hexec
      refine ⟨hwindowed, fun now _ hall => hbound now ?_ ?_⟩
      · rw [hexit]
        exact hall e List.mem_cons_self
      · intro e' he'
        exact hall e' (List.mem_cons_of_mem e he')
    · cases hc

theorem breaker_over_exits (svc : Service) (hm : 0 < svc.maxRestarts)
    (hu32 : svc.maxRestarts < 2 ^ 32) {es : List Exit}
    (hes : es.Pairwise fun e e' => e.now ≤ e'.now) {b : Breaker}
    (hexec : exec (Breaker.step svc) {} es = some b) :
    (∀ a, (within (window svc) a b.approved).length ≤ svc.maxRestarts) ∧
    (b.ended = none → b.restartTimes.Pairwise (· ≤ ·) ∧
      b.restartTimes = recent (window svc) b.lastExit b.approved) ∧
    ∀ e b', (∀ e' ∈ es, e'.now ≤ e.now) → b.step svc e = some b' →
      (b'.ended = some .crashLoop ↔ e.stopRequested = false ∧
        (recent (window svc) e.now b.approved).length = svc.maxRestarts) := by
  obtain ⟨hb, hbound⟩ := windowed_exec hm hu32 (windowed_start svc) hes
    (fun e _ => Nat.zero_le e.now) hexec
  refine ⟨hb.limited, fun hrun => ?_, fun e b' hlater hstep => ?_⟩
  · have hsorted : (recent (window svc) b.lastExit b.approved).Pairwise (· ≤ ·) :=
      hb.sorted.filter _
    rw [hb.deque hrun]
    exact ⟨hsorted, rfl⟩
  · unfold Breaker.step at hstep
    split at hstep
    · rename_i hrun
      cases hstep
      exact ended_pass_iff hm hu32 hb hrun (hbound e.now (Nat.zero_le e.now) hlater)
    · cases hstep

/-- A service that fails every second is restarted twice, and no more. -/
theorem breaker_over_exits_twice :
    let svc : Service := { name := "web", command := "/bin/web", restart := .always,
                           maxRestarts := 2 }
    let fails : ℕ → Exit := fun n => ⟨n * 1000000000, 1, false, bareHost⟩
    ∃ b b', exec (Breaker.step svc) {} [fails 1, fails 2] = some b ∧
      b.approved = [1000000000, 2000000000] ∧ b.step svc (fails 3) = some b' ∧
      b'.ended = some .crashLoop := by
  intro svc fails
  have hrun : ((exec (Breaker.step svc) {} [fails 1, fails 2]).map fun b =>
      (b.approved, b.ended)) = some ([1000000000, 2000000000], none) := by decide +kernel
  obtain ⟨b, hexec, hb⟩ := Option.map_eq_some_iff.1 hrun
  have happroved : b.approved = [1000000000, 2000000000] := congrArg Prod.fst hb
  have hended : b.ended = none := congrArg Prod.snd hb
  have hstep : b.step svc (fails 3) = some (b.pass svc (fails 3)) := if_pos hended
  have hes : [fails 1, fails 2].Pairwise fun e e' => e.now ≤ e'.now := by simp [fails]
  have hthird := (breaker_over_exits svc (by decide) (by decide) hes hexec).2.2 (fails 3) _
    (by simp [fails]) hstep
  refine ⟨b, _, hexec, happroved, hstep, hthird.2 ⟨rfl, ?_⟩⟩
  rw [happroved]
  decide +kernel

end Quantra.Supervisor
