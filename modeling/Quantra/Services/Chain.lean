import Quantra.Services.Lifecycle

/-! `chain_to`: the exits that should start another service, and `CHAIN_QUEUE`, into which the
restart monitors put its name. -/
namespace Quantra.Supervisor
open ProcTable Quantra.Services Quantra.Signals

/-- The supervisors with `CHAIN_QUEUE`. -/
structure Chained where
  world : World
  queue : List String

namespace World

/-- The name that a monitor hands to `queue_chain_start`: `svc.chain_to`, after the sleep. -/
def queued (cfg : Config) (w : World) : Event → List String
  | .sup k (.monitor m _) =>
    match (w.sups k).monitors[m]? with
    | some (.sleep _ code) =>
      if Sup.chains (cfg.services k) code then (cfg.services k).chainTo.toList else []
    | _ => []
  | _ => []

/-- The service to be started because of this step: a main process exits, no stop was requested,
and the exit code is 0 or does not matter. -/
def chainDue (cfg : Config) (w : World) : Event → Option String
  | .kernel (.exit i st) =>
    (w.sys.table.get i).bind fun p => p.tag.service.bind fun k =>
      if w.isLiveMain k i ∧ (w.sups k).stopRequested = false ∧
          ((cfg.services k).chainToAlways ∨ exitCode st = 0) then (cfg.services k).chainTo
      else none
  | _ => none

end World

namespace Chained

def init : Chained := ⟨.init, []⟩

/-- Monitors push to the queue. No thread takes anything from it: the callers of `start` are the
boot, the launcher, the control socket and the timers, and none of them looks at the queue. -/
def step (cfg : Config) (s : Chained) (e : Event) : Option Chained :=
  (s.world.step cfg e).map fun world => ⟨world, s.queue ++ s.world.queued cfg e⟩

theorem step_queue {cfg : Config} {s t : Chained} {e : Event} (h : s.step cfg e = some t) :
    t.queue = s.queue ++ s.world.queued cfg e := by
  obtain ⟨world, -, rfl⟩ := Option.map_eq_some_iff.1 h
  rfl

theorem step_world {cfg : Config} {s t : Chained} {e : Event} (h : s.step cfg e = some t) :
    s.world.step cfg e = some t.world := by
  obtain ⟨world, hworld, rfl⟩ := Option.map_eq_some_iff.1 h
  exact hworld

end Chained

/-! Runs and the starts that an exit should cause. -/

section Law
variable {cfg : Config} (run : Runs.Trace (Chained.step cfg) .init)

/-- Step `n` is an exit after which service `c` is to be started. -/
def Due (n : ℕ) (c : String) : Prop :=
  ∃ e, run.event n = some e ∧ (run.state n).world.chainDue cfg e = some c

/-- Step `n` is a start of service `c` by a caller that takes its name from the queue. -/
def ChainStart (n : ℕ) (c : String) : Prop :=
  ∃ k, run.event n = some (.sup k .callStart) ∧ (cfg.services k).name = c ∧
    (run.state (n + 1)).queue.count c < (run.state n).queue.count c

/-- Each such exit is followed by a start of its own, and there are no other chained starts. -/
def ChainLaw : Prop :=
  ∃ served : ℕ → ℕ,
    (∀ n c, Due run n c → n < served n ∧ ChainStart run (served n) c) ∧
    (∀ n n' c c', Due run n c → Due run n' c' → served n = served n' → n = n') ∧
    ∀ m c, ChainStart run m c → ∃ n, Due run n c ∧ served n = m

theorem not_chainStart (n : ℕ) (c : String) : ¬ChainStart run n c := by
  intro h
  obtain ⟨k, hevent, -, hcount⟩ := h
  have hnext := run.next n
  rw [hevent] at hnext
  rw [Chained.step_queue hnext, List.count_append] at hcount
  omega

theorem not_chainLaw_of_due {n : ℕ} {c : String} (hdue : Due run n c) : ¬ChainLaw run := by
  intro h
  obtain ⟨served, hserved, -, -⟩ := h
  exact not_chainStart run (served n) c (hserved n c hdue).2

/-- `chain_to` is kept exactly by the runs in which nothing is to be chained. -/
theorem chainLaw_iff : ChainLaw run ↔ ∀ n c, ¬Due run n c := by
  constructor
  · intro h n c hdue
    exact not_chainLaw_of_due run hdue h
  · intro h
    refine ⟨id, fun n c hdue => absurd hdue (h n c), fun n n' c c' hdue => absurd hdue (h n c),
      fun m c hstart => absurd hstart (not_chainStart run m c)⟩

end Law

/-- A setup service with a successor, under the policy that always restarts. -/
def setupThenNetwork : Config where
  services k :=
    if k = 0 then
      { name := "firewall-setup", command := "/bin/setup", restart := .always,
        chainTo := some "network" }
    else { name := "network", command := "/bin/network" }
  host := bareHost

/-- The setup service exits with code 0 and its monitor sees it. -/
def setupExits : List Event :=
  World.startEvents 0 100 ++ World.exitEvents 0 0 ++ List.replicate 6 (.sup 0 (.monitor 0 false))

/-- The name is queued, and there it stays. -/
theorem chained_service_not_started :
    ∃ run : Runs.Trace (Chained.step setupThenNetwork) .init,
      Due run 7 "network" ∧ (∀ n, 16 ≤ n → (run.state n).queue = ["network"]) ∧ ¬ChainLaw run := by
  let run : Runs.Trace (Chained.step setupThenNetwork) .init :=
    .ofExec Chained.init setupExits (by decide +kernel)
  have hdue : Due run 7 "network" := ⟨_, rfl, by decide +kernel⟩
  refine ⟨run, hdue, fun n hn => ?_, not_chainLaw_of_due run hdue⟩
  have htake : setupExits.take n = setupExits := List.take_of_length_le (Nat.le_trans (by decide) hn)
  have hstate : run.state n =
      (Runs.exec (Chained.step setupThenNetwork) .init setupExits).getD .init := by
    rw [← htake]
    rfl
  rw [hstate]
  decide +kernel

/-! Which exits get as far as the queue. -/

/-- The monitors after a step: old ones, a new one, one that has launched or one that moved. -/
theorem World.monitors_step {cfg : Config} {w w' : World} {e : Event} (h : w.step cfg e = some w')
    {k : ℕ} {mon' : Monitor} (hmem : mon' ∈ (w'.sups k).monitors) :
    mon' ∈ (w.sups k).monitors ∨ mon' = .load ∨ (∃ pid, mon' = .launched pid) ∨
      ∃ mon ∈ (w.sups k).monitors, Moves (cfg.services k) cfg.host w.sys (w.sups k) mon mon' := by
  obtain ⟨hsame, -, -⟩ | ⟨pid, uid, -, -, hsup⟩ | ⟨m, pid, old, uid, -, -, hsup⟩ |
    ⟨le, -, hacts⟩ := step_sups h k
  · rw [hsame] at hmem
    exact .inl hmem
  · rw [hsup] at hmem
    exact .inl hmem
  · rw [hsup] at hmem
    obtain hold | hnew := List.mem_or_eq_of_mem_set hmem
    · exact .inl hold
    · exact .inr (.inr (.inl ⟨pid, hnew⟩))
  · generalize w'.sups k = sup' at hacts hmem
    cases hacts with
    | spawn _ hmonitors =>
      obtain hsame | hnew := hmonitors
      · exact .inl (hsame ▸ hmem)
      · rw [hnew] at hmem
        obtain hold | hload := List.mem_append.1 hmem
        · exact .inl hold
        · exact .inr (.inl (List.mem_singleton.1 hload))
    | monitor hm hmoves _ =>
      obtain hold | hnew := List.mem_or_eq_of_mem_set hmem
      · exact .inl hold
      · exact .inr (.inr (.inr ⟨_, List.mem_of_getElem? hm, hnew ▸ hmoves⟩))
    | _ => exact .inl hmem

/-- The exit in hand of a monitor that sleeps before a restart is one that its policy restarts. -/
def SleepsToRestart (cfg : Config) (w : World) : Prop :=
  ∀ k pid code, .sleep pid code ∈ (w.sups k).monitors → Sup.restarts (cfg.services k) code

theorem sleepsToRestart_step {cfg : Config} {w w' : World} {e : Event}
    (hw : SleepsToRestart cfg w) (h : w.step cfg e = some w') : SleepsToRestart cfg w' := by
  intro k pid code hmem
  obtain hold | hload | ⟨n, hlaunched⟩ | ⟨mon, -, hmoves⟩ := World.monitors_step h hmem
  · exact hw k pid code hold
  · cases hload
  · cases hlaunched
  · cases hmoves with
    | restart hrestarts => exact hrestarts

/-- A service whose exits reach the queue: its policy is not `no`, and under `on-failure` it
chains on any exit code. -/
def ReachesQueue (svc : Service) (c : String) : Prop :=
  svc.chainTo = some c ∧ svc.restart ≠ .no ∧ (svc.restart = .onFailure → svc.chainToAlways)

theorem reachesQueue_of_queued {cfg : Config} {w : World} {e : Event} {c : String}
    (hw : SleepsToRestart cfg w) (h : c ∈ w.queued cfg e) :
    ∃ k, ReachesQueue (cfg.services k) c := by
  unfold World.queued at h
  split at h
  · rename_i k m choice
    split at h
    · rename_i pid code hm
      split at h
      · rename_i hchains
        refine ⟨k, Option.mem_toList.1 h, ?_, ?_⟩
        all_goals have hrestarts := hw k pid code (List.mem_of_getElem? hm)
        · intro hno
          simp [Sup.restarts, hno] at hrestarts
        · intro hfail
          have hcode : code ≠ 0 := by simpa [Sup.restarts, hfail] using hrestarts
          have hboth : (cfg.services k).chainTo.isSome ∧
              ((cfg.services k).chainToAlways ∨ code = 0) := by simpa [Sup.chains] using hchains
          exact hboth.2.resolve_right hcode
      · cases h
    · cases h
  · cases h

/-- In every run the queue holds only names from services that restart. -/
theorem reachesQueue_of_reach {cfg : Config} {s : Chained} {ok : Chained → Event → Prop}
    (h : Runs.Reach (Chained.step cfg) ok .init s) :
    ∀ c ∈ s.queue, ∃ k, ReachesQueue (cfg.services k) c := by
  have hinv : SleepsToRestart cfg s.world ∧ ∀ c ∈ s.queue, ∃ k, ReachesQueue (cfg.services k) c := by
    apply h.invariant
    · intro t u e ht _ hstep
      refine ⟨sleepsToRestart_step ht.1 (Chained.step_world hstep), fun c hc => ?_⟩
      rw [Chained.step_queue hstep] at hc
      obtain hold | hnew := List.mem_append.1 hc
      · exact ht.2 c hold
      · exact reachesQueue_of_queued ht.1 hnew
    · exact ⟨nofun, nofun⟩
  exact hinv.2

end Quantra.Supervisor
