import Quantra.Services.HealthThread

/-! What a healthcheck promises, and all that a health thread can tell the restart monitor, which
waits for the process to exit. -/
namespace Quantra.Supervisor
open Runs ProcTable Quantra.Services Quantra.Signals

namespace Health

/-- The check that a thread makes is the last of as many failures in a row as the service allows. -/
def Trips (cfg : Config) (s : Health) (k pid : ℕ) : HealthEvent → Prop
  | .thread k' h healthy => k' = k ∧ healthy = false ∧ ∃ hc t failures,
      (cfg.services k).healthcheck = some hc ∧ (s.threads k)[h]? = some t ∧
      t.pc = .check failures pid ∧
      hc.failureThreshold ≤ HealthThread.failedInARow (false :: t.results)
  | .base _ => False

/-- A thread of the service is in its loop. -/
def Watched (s : Health) (k : ℕ) : Prop := ∃ t ∈ s.threads k, t.pc ≠ .trip ∧ t.pc ≠ .done

/-- The process of instance `i` is alive. -/
def Alive (s : Health) (i : ℕ) : Prop := ∃ p, s.world.sys.table.get i = some p ∧ p.status = .alive

/-- The step is a launch of the service. -/
def Launch (k : ℕ) (e : HealthEvent) : Prop :=
  ∃ pid, e = .base (.startLaunch k pid) ∨ ∃ m, e = .base (.monitorLaunch k m pid)

/-- Those who go on by themselves: the reaper, the call that holds a supervisor, and the threads. -/
inductive Actor
  | reaper
  | control (k : ℕ)
  | monitor (k m : ℕ)
  | health (k h : ℕ)
  deriving DecidableEq, Repr

def actor : HealthEvent → Option Actor
  | .thread k h _ => some (.health k h)
  | .base (.kernel (.take _)) | .base (.kernel .record) => some .reaper
  | .base (.monitorLaunch k m _) | .base (.sup k (.monitor m _)) => some (.monitor k m)
  | .base (.startLaunch k _) => some (.control k)
  | .base (.sup _ .callStart) | .base (.sup _ .callStop) | .base (.sup _ .callKill)
  | .base (.sup _ .callSignal) | .base (.sup _ (.watcher _)) => none
  | .base (.sup k _) => some (.control k)
  | .base _ => none

/-- The processes, and the supervisors but for the number of their threads. -/
def SameWorld (w w' : World) : Prop :=
  w'.sys = w.sys ∧ ∀ k, ∃ watchers, w'.sups k = { w.sups k with watchers }

end Health

section Law
variable {cfg : Config} (run : Trace (Health.step cfg) .init)

/-- At step `n` the checks of the main process of service `k` have failed too often in a row. -/
def TripsAt (n k pid : ℕ) : Prop :=
  ∃ e, run.event n = some e ∧ (run.state n).Trips cfg k pid e

/-- The process with this pid ends after step `n`, if it has not before. Then the service is launched
once, and not again as long as the new process lives, and is watched. -/
def RestartedOnce (n k pid : ℕ) : Prop :=
  ∃ ended launched m pid', n < ended ∧ ended ≤ launched ∧
    (∀ i, (run.state n).world.sys.table.holder pid = some i → ¬(run.state ended).Alive i) ∧
    run.event launched = some (.base (.monitorLaunch k m pid')) ∧
    (∀ l e, n < l → l < launched → run.event l = some e → ¬Health.Launch k e) ∧
    (∀ l e, launched < l → run.event l = some e → Health.Launch k e →
      ¬(run.state l).Alive (run.state launched).world.sys.table.size) ∧
    ∃ l, launched < l ∧ (run.state l).Watched k

/-- The service is not to be stopped at step `n` or later. -/
def NotStopped (n k : ℕ) : Prop :=
  ((run.state n).world.sups k).stopRequested = false ∧
    ∀ m, n ≤ m → run.event m ≠ some (.base (.sup k .callStop))

/-- What a healthcheck promises on a fair run: an unhealthy main process is ended and the service
launched anew, and as long as none is found the threads change nothing. -/
structure HealthLaw (k : ℕ) : Prop where
  restarted : run.Fair Health.actor → ∀ n pid, TripsAt run n k pid → NotStopped run n k →
    RestartedOnce run n k pid
  untouched : (∀ n pid, ¬TripsAt run n k pid) → ∀ n h healthy,
    run.event n = some (.thread k h healthy) →
      Health.SameWorld (run.state n).world (run.state (n + 1)).world

end Law

namespace Health

variable {cfg : Config} {s s' : Health} {e : HealthEvent} {k : ℕ}

/-- No thread of the service is about to report too many failures. -/
def Quiet (k : ℕ) (s : Health) : Prop := s.Counted ∧ ∀ t ∈ s.threads k, t.pc ≠ .trip

/-- None is unless there were as many. -/
theorem Quiet.step (h : s.Quiet k) (htrips : ∀ pid, ¬s.Trips cfg k pid e)
    (hstep : s.step cfg e = some s') : s'.Quiet k := by
  refine ⟨h.1.step hstep, fun t' ht' => ?_⟩
  obtain hold | ⟨rfl, -⟩ | ⟨_, healthy, hc, t, pc, left, rfl, hhc, ht, hnext, rfl⟩ :=
    threads_step hstep ht'
  · exact h.2 t' hold
  · exact fun hpc => by cases hpc
  · intro hpc
    cases hpc
    obtain ⟨n, pid, hcheck, hfailed, hle⟩ :=
      HealthThread.next_trip (h.1 k t (List.mem_of_getElem? ht)) hnext
    exact htrips pid ⟨rfl, hfailed, hc, t, n, hhc, ht, hcheck, hle⟩

theorem sameWorld_leave {w w' : World} {left : Option Bool} (hleft : left ≠ some true)
    (h : leave cfg w k left = some w') : SameWorld w w' := by
  cases left with
  | none =>
    cases h
    exact ⟨rfl, fun k => ⟨(w.sups k).watchers, rfl⟩⟩
  | some clears =>
    cases clears with
    | true => exact absurd rfl hleft
    | false =>
      obtain ⟨sup, hsup, rfl⟩ := Option.map_eq_some_iff.1 h
      refine ⟨rfl, fun k' => ?_⟩
      rw [World.setSup_sups]
      split
      · rename_i hk
        subst hk
        simp only [Sup.localStep] at hsup
        split at hsup
        · cases hsup
          exact ⟨_, by rw [Bool.not_false, Bool.and_true]⟩
        · cases hsup
      · exact ⟨_, rfl⟩

/-- A thread that is not about to report changes nothing. -/
theorem Quiet.sameWorld {h : ℕ} {healthy : Bool} (hquiet : s.Quiet k)
    (hstep : s.step cfg (.thread k h healthy) = some s') : SameWorld s.world s'.world := by
  obtain ⟨hc, t, pc, left, -, ht, hnext, hleave, -⟩ := step_thread hstep
  refine sameWorld_leave ?_ hleave
  rintro rfl
  obtain ⟨_, _, -, hleft, -⟩ | ⟨htrip, -⟩ | ⟨-, -, hleft⟩ | ⟨-, hleft, -⟩ :=
    HealthThread.next_cases hnext
  · cases hleft
  · exact hquiet.2 t (List.mem_of_getElem? ht) htrip
  · cases hleft
  · cases hleft

theorem Watched.of_step (h : s'.Watched k) (hstep : s.step cfg e = some s')
    (hspawn : ∀ spawned, e ≠ .base (.sup k (.spawnThreads spawned))) : s.Watched k := by
  obtain ⟨t', ht', htrip, hdone⟩ := h
  obtain hold | ⟨-, spawned, rfl⟩ | ⟨_, healthy, hc, t, pc, left, -, -, ht, hnext, rfl⟩ :=
    threads_step hstep ht'
  · exact ⟨t', hold, htrip, hdone⟩
  · exact absurd rfl (hspawn spawned)
  · refine ⟨t, List.mem_of_getElem? ht, fun hpc => ?_, fun hpc => ?_⟩
    · rw [hpc] at hnext
      cases hnext
      exact hdone rfl
    · rw [hpc] at hnext
      cases hnext

/-- The step of a monitor that waits. -/
theorem step_wait {m pid : ℕ} {pc pc' : WaitPc}
    (hmon : (s.world.sups k).monitors[m]? = some (.wait pid pc))
    (hwait : s.world.sys.waitForExit pid pc = some pc') :
    s.step cfg (.base (.sup k (.monitor m false))) =
      some { s with world := s.world.setSup k ((s.world.sups k).setMonitor m (.wait pid pc')) } := by
  have hstep : (s.world.sups k).monitorStep (cfg.services k) cfg.host s.world.sys m false =
      some ((s.world.sups k).setMonitor m (.wait pid pc')) := by
    unfold Sup.monitorStep
    rw [hmon]
    cases pc with
    | returned code => cases hwait
    | poll | probe | grace =>
      dsimp only
      rw [hwait]
      rfl
  simp only [step, watchdogOnly, if_true, World.step, Sup.localStep, hstep, Option.map_some]
  rfl

/-- A monitor that waits for a process which does not end polls on, whatever `running` says. -/
theorem exec_poll {m pid : ℕ} (hmon : (s.world.sups k).monitors[m]? = some (.wait pid .poll))
    (hcode : s.world.sys.getExitCode pid = none) (hexists : s.world.sys.procExists pid = true) :
    exec (step cfg) s (List.replicate 2 (.base (.sup k (.monitor m false)))) = some s := by
  have hpoll : s.world.sys.waitForExit pid .poll = some .probe := by
    unfold Pid1.waitForExit
    rw [hcode]
  have hprobe : s.world.sys.waitForExit pid .probe = some .poll := by
    unfold Pid1.waitForExit
    rw [hexists]
    rfl
  obtain ⟨hlt, hget⟩ := List.getElem?_eq_some_iff.1 hmon
  let polled := s.world.setSup k ((s.world.sups k).setMonitor m (.wait pid .probe))
  have hsup : polled.sups k = (s.world.sups k).setMonitor m (.wait pid .probe) := by
    rw [World.setSup_sups, if_pos rfl]
  have hmon' : (polled.sups k).monitors[m]? = some (.wait pid .probe) := by
    rw [hsup]
    exact List.getElem?_set_self hlt
  have hback : (polled.sups k).setMonitor m (.wait pid .poll) = s.world.sups k := by
    rw [hsup]
    unfold Sup.setMonitor
    rw [List.set_set, ← hget, List.set_getElem_self]
  have hworld : polled.setSup k (s.world.sups k) = s.world := by
    simp only [polled, World.setSup, Function.update_idem, Function.update_eq_self]
  have hfirst : s.step cfg (.base (.sup k (.monitor m false))) = some { s with world := polled } :=
    step_wait hmon hpoll
  have hsecond : ({ s with world := polled } : Health).step cfg (.base (.sup k (.monitor m false))) =
      some s := by
    rw [step_wait (s := { s with world := polled }) hmon' hprobe, hback, hworld]
  exact Option.bind_eq_some_iff.2 ⟨_, hfirst, Option.bind_eq_some_iff.2 ⟨_, hsecond, rfl⟩⟩

/-- No call is in progress, nothing is left to be reaped, and every health thread has returned. -/
structure Resting (s : Health) : Prop where
  idle : ∀ k, (s.world.sups k).ctl = .idle
  done : ∀ k, ∀ t ∈ s.threads k, t.pc = .done
  alive : ∀ i p, s.world.sys.table.get i = some p → p.status = .alive
  holding : s.world.sys.holding = none

/-- Then only monitors go on. -/
theorem Resting.actor_cases (h : s.Resting) {a : Actor} (ha : actor e = some a)
    (hstep : s.step cfg e = some s') :
    ∃ k m mon, a = .monitor k m ∧ (s.world.sups k).monitors[m]? = some mon := by
  cases e with
  | thread k i healthy =>
    obtain ⟨hc, t, pc, left, -, ht, hnext, -⟩ := step_thread hstep
    rw [h.done k t (List.mem_of_getElem? ht)] at hnext
    cases hnext
  | base e =>
    obtain ⟨-, hworld, -⟩ := step_base hstep
    cases e with
    | kernel ke =>
      obtain ⟨sys, hsys, -⟩ := Option.map_eq_some_iff.1 hworld
      cases ke with
      | take i =>
        obtain ⟨-, st, table, -, -, hcollect, -⟩ := Pid1.take_eq_some hsys
        obtain ⟨p, hp, -, hzombie, -⟩ := Table.get_collect hcollect
        rw [h.alive i p hp] at hzombie
        cases hzombie
      | record =>
        obtain ⟨pid, code, hholding, -⟩ := Pid1.record_eq_some hsys
        rw [h.holding] at hholding
        cases hholding
      | exit | adopt | vanish => cases ha
    | foreign | daemonize => cases ha
    | startLaunch k pid =>
      obtain ⟨uid, hctl, -⟩ := World.step_startLaunch hworld
      rw [h.idle k] at hctl
      cases hctl
    | monitorLaunch k m pid =>
      obtain ⟨old, uid, hmon, -⟩ := World.step_monitorLaunch hworld
      cases ha
      exact ⟨k, m, _, rfl, hmon⟩
    | sup k le =>
      obtain ⟨sup, hlocal, -⟩ := Option.map_eq_some_iff.1 hworld
      have hidle := h.idle k
      cases Sup.localStep_acts hlocal with
      | monitor hmon _ _ =>
        cases ha
        exact ⟨k, _, _, rfl, hmon⟩
      | callStart | callStop | callKill | callSignal | watcher => cases ha
      | giveUp _ hahead =>
        rw [hidle] at hahead
        cases hahead
      | resolve hctl | storePid hctl | setRunning hctl | settle hctl | oneshotWait hctl
      | oneshotDone hctl | spawn hctl | stopNone hctl | stopLoad hctl | stopStep hctl
      | stopDone hctl =>
        rw [hidle] at hctl
        cases hctl
      | signal hctl =>
        rw [hidle] at hctl
        obtain hctl | hctl := hctl
        · cases hctl
        · cases hctl

end Health

section Law
variable {cfg : Config} (run : Trace (Health.step cfg) .init)

/-- Nobody watches a service again before it is started again. -/
theorem not_watched_after {n k : ℕ} (h : ¬(run.state n).Watched k)
    (hspawn : ∀ m spawned, n ≤ m → run.event m ≠ some (.base (.sup k (.spawnThreads spawned))))
    {m : ℕ} (hm : n ≤ m) : ¬(run.state m).Watched k := by
  refine run.invariant_from (P := fun s => ¬s.Watched k) h (fun m e hm he hstep hnot => ?_) hm
  intro hwatched
  refine hnot (hwatched.of_step hstep fun spawned heq => ?_)
  exact hspawn m spawned hm (heq ▸ he)

/-- When the last thread that watches a service finds it unhealthy, the law is broken: it can only
tell the monitor, which does not look, and is itself not there for a new process. -/
theorem not_healthLaw_of_trip {n k pid : ℕ} (hfair : run.Fair Health.actor)
    (htrips : TripsAt run n k pid) (hstop : NotStopped run n k)
    (hlast : ¬(run.state (n + 1)).Watched k)
    (hspawn : ∀ m spawned, n < m → run.event m ≠ some (.base (.sup k (.spawnThreads spawned)))) :
    ¬HealthLaw run k := by
  intro hlaw
  obtain ⟨ended, launched, _, _, hended, hlaunched, -, -, -, -, l, hl, hwatched⟩ :=
    hlaw.restarted hfair n pid htrips hstop
  have hle : n + 1 ≤ l := by omega
  exact not_watched_after run hlast hspawn hle hwatched

theorem untouched_of_no_trips {k : ℕ} (h : ∀ n pid, ¬TripsAt run n k pid) {n i : ℕ} {healthy : Bool}
    (hevent : run.event n = some (.thread k i healthy)) :
    Health.SameWorld (run.state n).world (run.state (n + 1)).world := by
  have hinit : (run.state 0).Quiet k := by
    rw [run.start]
    exact ⟨nofun, nofun⟩
  have hquiet : (run.state n).Quiet k := by
    refine run.invariant_from hinit (fun m e _ he hstep hm => ?_) (Nat.zero_le n)
    exact hm.step (fun pid htrips => h m pid ⟨e, he, htrips⟩) hstep
  have hnext := run.next n
  rw [hevent] at hnext
  exact hquiet.sameWorld hnext

/-- Every run in which no check is the last of too many failures in a row keeps the law. -/
theorem healthLaw_of_no_trips {k : ℕ} (h : ∀ n pid, ¬TripsAt run n k pid) : HealthLaw run k where
  restarted _ n pid htrips := absurd htrips (h n pid)
  untouched hno _ _ _ hevent := untouched_of_no_trips run hno hevent

end Law

/-- A service that is always restarted, with a healthcheck. -/
def checkedWeb : Config where
  services _ :=
    { name := "web", command := "/bin/web", restart := .always,
      healthcheck := some { command := "/bin/check" } }
  host := bareHost

/-- The event is no check that fails. -/
def HealthEvent.passes : HealthEvent → Bool
  | .thread _ _ healthy => healthy
  | .base _ => true

/-- The service is started, and its first check is passed. -/
def healthyWeb : List HealthEvent :=
  (World.startEvents 0 100).map .base ++ List.replicate 6 (.thread 0 0 true)

theorem healthLaw_healthyWeb :
    ∃ run : Trace (Health.step checkedWeb) .init,
      (∀ n pid, ¬TripsAt run n 0 pid) ∧ run.event 12 = some (.thread 0 0 true) ∧
        HealthLaw run 0 := by
  let run : Trace (Health.step checkedWeb) .init :=
    .ofExec Health.init healthyWeb (by decide +kernel)
  have hpassed : ∀ e ∈ healthyWeb, e.passes := by decide
  have hno : ∀ n pid, ¬TripsAt run n 0 pid := by
    intro n pid htrips
    obtain ⟨e, he, htrips⟩ := htrips
    have hpass := hpassed e (List.mem_of_getElem? he)
    cases e with
    | base e => exact htrips
    | thread k h healthy =>
      obtain ⟨-, rfl, -⟩ := htrips
      cases hpass
  exact ⟨run, hno, rfl, healthLaw_of_no_trips run hno⟩

/-- The service is started, its monitor waits, and three checks in a row fail. -/
def unhealthyWeb : List HealthEvent :=
  (World.startEvents 0 100).map .base ++ [.base (.sup 0 (.monitor 0 false))] ++
    List.replicate 19 (.thread 0 0 false)

/-- One turn of the monitor. -/
def webPolls : List HealthEvent := List.replicate 2 (.base (.sup 0 (.monitor 0 false)))

/-- `running` is cleared, the process lives on, and the monitor waits for it to exit. -/
def unhealthyEnd : Health := (exec (Health.step checkedWeb) .init unhealthyWeb).getD .init

theorem exec_unhealthyWeb :
    exec (Health.step checkedWeb) .init unhealthyWeb = some unhealthyEnd := rfl

theorem exec_webPolls :
    exec (Health.step checkedWeb) unhealthyEnd webPolls = some unhealthyEnd :=
  Health.exec_poll (m := 0) rfl rfl rfl

theorem resting_unhealthyEnd : unhealthyEnd.Resting where
  idle k := by cases k <;> rfl
  done k t ht := by
    cases k with
    | zero =>
      cases List.mem_singleton.1 ht
      rfl
    | succ k => cases ht
  alive i p hp := by
    cases i with
    | zero =>
      cases hp
      rfl
    | succ i => cases hp
  holding := rfl

theorem monitors_unhealthyEnd {k m : ℕ} {mon : Monitor}
    (hmon : (unhealthyEnd.world.sups k).monitors[m]? = some mon) : k = 0 ∧ m = 0 := by
  cases k with
  | zero =>
    cases m with
    | zero => exact ⟨rfl, rfl⟩
    | succ m => cases hmon
  | succ k => cases hmon

def unhealthyRun : Trace (Health.step checkedWeb) .init :=
  .after unhealthyWeb exec_unhealthyWeb (.cycle webPolls (by decide) exec_webPolls)

/-- Nobody but the monitor has anything left to do. -/
theorem fair_unhealthyRun : unhealthyRun.Fair Health.actor := by
  refine Trace.Fair.after (Trace.fair_cycle _ _ fun a henabled => ?_) exec_unhealthyWeb
  obtain ⟨e, ha, hstep⟩ := henabled 0 unhealthyEnd (by decide) rfl
  obtain ⟨s', hs'⟩ := Option.isSome_iff_exists.1 hstep
  obtain ⟨k, m, mon, rfl, hmon⟩ := resting_unhealthyEnd.actor_cases ha hs'
  obtain ⟨rfl, rfl⟩ := monitors_unhealthyEnd hmon
  exact ⟨_, List.mem_replicate.2 ⟨by decide, rfl⟩, rfl⟩

theorem event_unhealthyRun {n : ℕ} (hle : 25 ≤ n) (hlt : n < 27) :
    unhealthyRun.event n = some (.thread 0 0 false) := by
  refine (Trace.event_after_of_lt exec_unhealthyWeb _ hlt).trans ?_
  have hn : n = 25 ∨ n = 26 := by omega
  obtain rfl | rfl := hn <;> rfl

theorem late_unhealthyRun {n : ℕ} {e : HealthEvent} (hn : 25 ≤ n)
    (he : unhealthyRun.event n = some e) :
    e = .thread 0 0 false ∨ e = .base (.sup 0 (.monitor 0 false)) := by
  by_cases hlt : n < 27
  · rw [event_unhealthyRun hn hlt] at he
    exact .inl (Option.some.inj he).symm
  · rw [unhealthyRun, Trace.event_after_of_le _ _ (Nat.not_lt.1 hlt)] at he
    exact .inr (List.mem_replicate.1 (Trace.mem_of_event_cycle he)).2

/-- Before the last check. -/
theorem before_trip_unhealthyRun :
    (unhealthyRun.state 25).threads 0 = [⟨.check 2 100, [false, false]⟩] ∧
      ((unhealthyRun.state 25).world.sups 0).stopRequested = false := by
  obtain ⟨s, hs, hview⟩ := Option.map_eq_some_iff.1 (show
    (exec (Health.step checkedWeb) .init (unhealthyWeb.take 25)).map (fun s =>
      (s.threads 0, (s.world.sups 0).stopRequested)) =
        some ([⟨.check 2 100, [false, false]⟩], false) by decide +kernel)
  rw [unhealthyRun, Trace.state_after_of_lt _ _ (by decide) hs]
  exact Prod.mk.injEq .. ▸ hview

/-- After it the only thread is on its way out. -/
theorem not_watched_unhealthyRun : ¬(unhealthyRun.state 26).Watched 0 := by
  obtain ⟨s, hs, hthreads⟩ := Option.map_eq_some_iff.1 (show
    (exec (Health.step checkedWeb) .init (unhealthyWeb.take 26)).map (fun s => s.threads 0) =
        some [⟨.trip, [false, false, false]⟩] by decide +kernel)
  rw [unhealthyRun, Trace.state_after_of_lt _ _ (by decide) hs]
  rintro ⟨t, ht, htrip, -⟩
  rw [hthreads, List.mem_singleton] at ht
  exact htrip (by rw [ht])

theorem not_healthLaw_unhealthyRun :
    unhealthyRun.Fair Health.actor ∧ TripsAt unhealthyRun 25 0 100 ∧ ¬HealthLaw unhealthyRun 0 := by
  obtain ⟨hthreads, hrequested⟩ := before_trip_unhealthyRun
  have htrips : TripsAt unhealthyRun 25 0 100 := by
    refine ⟨_, event_unhealthyRun (by decide) (by decide), rfl, rfl, _,
      ⟨.check 2 100, [false, false]⟩, 2, rfl, ?_, rfl, by decide⟩
    rw [hthreads]
    rfl
  have hstop : NotStopped unhealthyRun 25 0 := by
    refine ⟨hrequested, fun m hm he => ?_⟩
    obtain h | h := late_unhealthyRun hm he
    · cases h
    · cases h
  have hspawn : ∀ m spawned, 25 < m →
      unhealthyRun.event m ≠ some (.base (.sup 0 (.spawnThreads spawned))) := by
    intro m spawned hm he
    obtain h | h := late_unhealthyRun (Nat.le_of_lt hm) he
    · cases h
    · cases h
  exact ⟨fair_unhealthyRun, htrips, not_healthLaw_of_trip unhealthyRun fair_unhealthyRun htrips hstop
    not_watched_unhealthyRun hspawn⟩

end Quantra.Supervisor
