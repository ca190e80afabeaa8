import Quantra.Services.Supervisor

/-! Runs of the supervisors: which launches can follow a stop, and how many main processes and
restart monitors a service can have. -/
namespace Quantra.Supervisor
open ProcTable Quantra.Services Quantra.Signals

/-! Restart monitors. -/

/-- The monitor ends without another launch. -/
def Monitor.finished (svc : Service) (host : Host) : Monitor → Bool
  | .dead => true
  | .wait _ (.returned code) | .check _ code | .decide _ code =>
    !Sup.restarts svc code || Sup.chains svc code || givesUp
  | .sleep _ code => Sup.chains svc code || givesUp
  | .resolve _ => givesUp
  | _ => false
where
  givesUp : Bool :=
    match restartLaunch host none svc with
    | .error (.giveUp _) => true
    | _ => false

/-- The monitor has passed its test of `stop_requested` and may go on to a launch. -/
def Monitor.armed (svc : Service) (host : Host) (mon : Monitor) : Bool :=
  match mon with
  | .decide _ _ | .sleep _ _ | .resolve _ | .launch _ _ => !mon.finished svc host
  | _ => false

theorem Moves.finished {svc : Service} {host : Host} {sys : Pid1 Tag} {sup : Sup}
    {mon mon' : Monitor} (h : Moves svc host sys sup mon mon') (hmon : mon.finished svc host) :
    mon'.finished svc host := by
  cases h with
  | load | fails | store | runs => cases hmon
  | wait hwait =>
    rename_i pid pc pc'
    cases pc with
    | poll | probe | grace => cases hmon
    | returned code => cases hwait
  | exited | proceed => exact hmon
  | suppressed | giveUp | chain | invalid => rfl
  | restart hrestarts => simpa [Monitor.finished, hrestarts] using hmon
  | awake hchains => simpa [Monitor.finished, hchains] using hmon
  | resolved hok => simp [Monitor.finished, Monitor.finished.givesUp, hok] at hmon
  | retry hretry => simp [Monitor.finished, Monitor.finished.givesUp, hretry] at hmon

/-- Only the test of `stop_requested` arms a monitor. -/
theorem Moves.armed {svc : Service} {host : Host} {sys : Pid1 Tag} {sup : Sup}
    {mon mon' : Monitor} (h : Moves svc host sys sup mon mon') (hmon' : mon'.armed svc host) :
    mon.armed svc host ∨ sup.stopRequested = false := by
  have hback : mon.finished svc host = false := by
    cases hfin : mon.finished svc host with
    | false => rfl
    | true =>
      have hfin' := h.finished hfin
      unfold Monitor.armed at hmon'
      split at hmon' <;> simp [hfin'] at hmon'
  cases h with
  | load | wait | exited | suppressed | giveUp | chain | retry | invalid | fails | store
  | runs => cases hmon'
  | proceed hstop => exact .inr hstop
  | restart | awake | resolved => exact .inl (by simp [Monitor.armed, hback])

/-! Launches after a stop. -/

def Ctl.inStop : Ctl → Bool
  | .stopping | .stop _ _ => true
  | _ => false

/-- Once a stop is requested no monitor is on its way to a launch, and only `start` takes the
request back. -/
structure StopRespected (svc : Service) (host : Host) (sup : Sup) : Prop where
  quiet : sup.stopRequested → ∀ mon ∈ sup.monitors, mon.armed svc host = false
  starting : sup.ctl.launchAhead → sup.stopRequested = false
  stopping : sup.ctl.inStop → sup.stopRequested
  stopped : sup.stopped → sup.stopRequested

theorem StopRespected.setMonitor {svc : Service} {host : Host} {sup : Sup}
    (h : StopRespected svc host sup) {m : ℕ} {mon' : Monitor}
    (hmon' : sup.stopRequested → mon'.armed svc host = false) :
    StopRespected svc host (sup.setMonitor m mon') := by
  refine ⟨fun hstop mon hmon => ?_, h.starting, h.stopping, h.stopped⟩
  rcases List.mem_or_eq_of_mem_set hmon with hold | rfl
  · exact h.quiet hstop mon hold
  · exact hmon' hstop

theorem StopRespected.acts {svc : Service} {host : Host} {sys : Pid1 Tag} {members : List ℕ}
    {sup sup' : Sup} {e : LocalEvent} (h : StopRespected svc host sup)
    (hacts : Acts svc host sys members sup e sup')
    (hok : e = .callStop → ∀ mon ∈ sup.monitors, mon.armed svc host = false) :
    StopRespected svc host sup' := by
  cases hacts with
  | callStart => exact ⟨nofun, fun _ => rfl, nofun, nofun⟩
  | giveUp | storePid | setRunning | oneshotWait | oneshotDone | callKill | callSignal | signal =>
    exact ⟨h.quiet, nofun, nofun, h.stopped⟩
  | resolve hctl =>
    have hahead : sup.ctl.launchAhead := by rw [hctl]; rfl
    exact ⟨h.quiet, fun _ => h.starting hahead, nofun, h.stopped⟩
  | settle hctl hnext =>
    rcases hnext with rfl | rfl <;> exact ⟨h.quiet, nofun, nofun, h.stopped⟩
  | spawn hctl hmonitors =>
    refine ⟨fun hstop mon hmon => ?_, nofun, nofun, h.stopped⟩
    rcases hmonitors with rfl | rfl
    · exact h.quiet hstop mon hmon
    · rcases List.mem_append.1 hmon with hold | hnew
      · exact h.quiet hstop mon hold
      · rw [List.mem_singleton.1 hnew]
        rfl
  | callStop hctl => exact ⟨fun _ => hok rfl, nofun, fun _ => rfl, fun _ => rfl⟩
  | stopLoad hctl | stopStep hctl =>
    have hrequested : sup.stopRequested := h.stopping (by rw [hctl]; rfl)
    exact ⟨h.quiet, nofun, fun _ => hrequested, h.stopped⟩
  | stopNone hctl | stopDone hctl =>
    have hrequested : sup.stopRequested := h.stopping (by rw [hctl]; rfl)
    exact ⟨h.quiet, nofun, nofun, fun _ => hrequested⟩
  | monitor hm hmoves hpid =>
    rename_i m choice mon mon' pid running
    have hset : StopRespected svc host (sup.setMonitor m mon') := by
      refine h.setMonitor fun hstop => ?_
      by_contra harmed
      rcases hmoves.armed (by simpa using harmed) with hold | hnot
      · rw [h.quiet hstop mon (List.mem_of_getElem? hm)] at hold
        cases hold
      · rw [hstop] at hnot
        cases hnot
    exact ⟨hset.quiet, h.starting, h.stopping, h.stopped⟩
  | watcher => exact ⟨h.quiet, h.starting, h.stopping, h.stopped⟩

/-- The service whose `stop` is called. -/
def Event.stopCall : Event → Option ℕ
  | .sup k .callStop => some k
  | _ => none

namespace World

/-- The step from `w` to `w'` launched a new main process of service `k`. -/
def Launches (w w' : World) (k : ℕ) : Prop :=
  ∃ p, w'.sys.table.get w.sys.table.size = some p ∧ p.tag.service = some k ∧
    (p.tag.origin = .start ∨ p.tag.origin = .monitor)

/-- No step launches a service whose stop was requested, or has returned, since it was last
started. -/
def StaysStopped (cfg : Config) (w : World) : Prop :=
  ∀ e w' k, w.step cfg e = some w' → Launches w w' k →
    (w.sups k).stopRequested = false ∧ (w.sups k).stopped = false

/-- `stop` is called while no monitor of the service is between its test of `stop_requested` and
the launch that follows. -/
def StopAwaitsMonitors (cfg : Config) (w : World) (e : Event) : Prop :=
  ∀ k ∈ e.stopCall, ∀ mon ∈ (w.sups k).monitors, mon.armed (cfg.services k) cfg.host = false

instance (cfg : Config) (w : World) (e : Event) : Decidable (StopAwaitsMonitors cfg w e) :=
  inferInstanceAs (Decidable (∀ k ∈ e.stopCall, ∀ mon ∈ (w.sups k).monitors, _))

theorem stopRespected_step {cfg : Config} {w w' : World} {e : Event}
    (h : ∀ k, StopRespected (cfg.services k) cfg.host (w.sups k))
    (hok : StopAwaitsMonitors cfg w e) (hstep : w.step cfg e = some w') (k : ℕ) :
    StopRespected (cfg.services k) cfg.host (w'.sups k) := by
  rcases step_sups hstep k with ⟨hsame, -⟩ | ⟨pid, uid, rfl, -, hsup⟩ |
    ⟨m, pid, old, uid, rfl, -, hsup⟩ | ⟨le, rfl, hacts⟩
  · rw [hsame]
    exact h k
  · rw [hsup]
    exact ⟨(h k).quiet, nofun, nofun, (h k).stopped⟩
  · rw [hsup]
    exact (h k).setMonitor fun _ => rfl
  · apply (h k).acts hacts
    intro he
    subst he
    exact hok k rfl

theorem staysStopped_of_respected {cfg : Config} {w : World}
    (h : ∀ k, StopRespected (cfg.services k) cfg.host (w.sups k)) : StaysStopped cfg w := by
  intro e w' k hstep ⟨p, hp, hservice, horigin⟩
  suffices hrequest : (w.sups k).stopRequested = false by
    refine ⟨hrequest, ?_⟩
    cases hstopped : (w.sups k).stopped with
    | false => rfl
    | true =>
      have := (h k).stopped hstopped
      rw [hrequest] at this
      cases this
  rcases step_procs hstep hp with ⟨q, hq, -⟩ | ⟨-, hborn⟩
  · rw [Table.get_size] at hq
    cases hq
  · cases hborn with
    | start hctl =>
      cases hservice
      have hahead : (w.sups k).ctl.launchAhead := by rw [hctl]; rfl
      exact (h k).starting hahead
    | monitor hm =>
      cases hservice
      cases hrequest : (w.sups k).stopRequested with
      | false => rfl
      | true =>
        have := (h k).quiet hrequest _ (List.mem_of_getElem? hm)
        cases this
    | daemon => rcases horigin with horigin | horigin <;> cases horigin
    | foreign => rcases horigin with horigin | horigin <;> cases horigin

/-- In every run in which `stop` is only called while no monitor is on its way to a launch, a
stopped service stays stopped. -/
theorem staysStopped_of_reach (cfg : Config) (w : World)
    (hreach : Runs.Reach (step cfg) (StopAwaitsMonitors cfg) init w) : StaysStopped cfg w := by
  have hinit : ∀ k, StopRespected (cfg.services k) cfg.host (init.sups k) :=
    fun k => ⟨nofun, nofun, nofun, nofun⟩
  exact staysStopped_of_respected (hreach.invariant stopRespected_step hinit)

/-- One service that is always restarted. -/
def alwaysWeb : Config where
  services _ := { name := "web", command := "/bin/web", restart := .always }
  host := bareHost

/-- A `start` that launches `pid` and spawns a monitor. -/
def startEvents (k pid : ℕ) : List Event :=
  [.sup k .callStart, .sup k .resolve, .startLaunch k pid, .sup k .storePid, .sup k .setRunning,
    .sup k (.settle none), .sup k (.spawnThreads true)]

/-- A process exits and the reaper takes and records its code. -/
def exitEvents (i : ℕ) (code : Fin 256) : List Event :=
  [.kernel (.exit i (.exited code)), .kernel (.take i), .kernel .record]

theorem staysStopped_of_polling_monitor :
    ∃ w, Runs.Reach (step alwaysWeb) (StopAwaitsMonitors alwaysWeb) init w ∧
      (w.sups 0).stopped ∧ (w.sups 0).monitors = [.dead] ∧ StaysStopped alwaysWeb w := by
  obtain ⟨w, hreach, hcheck⟩ := Runs.exists_reach_of_exec (step alwaysWeb)
    (StopAwaitsMonitors alwaysWeb) init
    (startEvents 0 100 ++ [Event.sup 0 (.monitor 0 false)] ++ exitEvents 0 1 ++
      [Event.sup 0 .callStop, .sup 0 .stopLoad, .sup 0 (.stopStep false)] ++
      List.replicate 3 (Event.sup 0 (.monitor 0 false)))
    (fun w => (w.sups 0).stopped ∧ (w.sups 0).monitors = [.dead]) (by decide +kernel)
  obtain ⟨hstopped, hdead⟩ := of_decide_eq_true hcheck
  exact ⟨w, hreach, hstopped, hdead, staysStopped_of_reach alwaysWeb w hreach⟩

/-- The monitor of an exited process sleeps before the restart; `stop` finds the process gone and
returns, and the monitor launches the service again. -/
theorem restart_after_stop :
    ∃ w, Runs.Reach (step alwaysWeb) (fun _ _ => True) init w ∧ (w.sups 0).stopped ∧
      ¬ StaysStopped alwaysWeb w := by
  obtain ⟨w, hreach, hcheck⟩ := Runs.exists_reach_of_exec (step alwaysWeb) (fun _ _ => True) init
    (startEvents 0 100 ++ exitEvents 0 1 ++ List.replicate 5 (Event.sup 0 (.monitor 0 false)) ++
      [Event.sup 0 .callStop, .sup 0 .stopLoad, .sup 0 (.stopStep false)] ++
      List.replicate 2 (Event.sup 0 (.monitor 0 false)))
    (fun w => (w.sups 0).stopped && (w.step alwaysWeb (.monitorLaunch 0 0 101)).any fun w' =>
      (w'.sys.table.get w.sys.table.size).any fun p => p.tag == ⟨some 0, none, .monitor⟩)
    (by decide +kernel)
  simp only [Bool.and_eq_true, Option.any_eq_true, beq_iff_eq] at hcheck
  obtain ⟨hstopped, w', hstep, p, hp, htag⟩ := hcheck
  refine ⟨w, hreach, hstopped, fun h => ?_⟩
  have hlaunches : Launches w w' 0 := ⟨p, hp, by rw [htag], .inr (by rw [htag])⟩
  have hnot := (h _ w' 0 hstep hlaunches).2
  rw [hstopped] at hnot
  cases hnot

end World

/-! One main process at a time. -/

/-- The call is inside `start`. -/
def Ctl.inStart : Ctl → Bool
  | .starting | .launching _ | .launched _ | .stored _ | .up _ | .oneshot _ _ | .ready => true
  | _ => false

/-- `start` has launched a process and not yet settled on the pid that monitors will follow. -/
def Ctl.unsettled : Ctl → Bool
  | .launched _ | .stored _ | .up _ | .oneshot _ _ => true
  | _ => false

def Ctl.upPid : Ctl → Option ℕ
  | .up pid => some pid
  | _ => none

/-- What `start` knows at each point about the live main processes (instances with their pids)
and the pid cell. -/
def Ctl.Follows (main : ℕ → ℕ → Prop) (cell : Option ℕ) : Ctl → Prop
  | .starting | .launching _ => ∀ i pid, ¬ main i pid
  | .stored pid | .up pid => cell = some pid
  | .ready => ∀ i pid, main i pid → cell = some pid
  | _ => True

/-- What a monitor knows about them: it polls the pid of the live one, and once that has ended
there is none. -/
def Monitor.Follows (main : ℕ → ℕ → Prop) (cell : Option ℕ) : Monitor → Prop
  | .dead => True
  | .load => ∀ i pid, main i pid → cell = some pid
  | .wait pid pc => ∀ i pid', main i pid' → pid' = pid ∧ (pc = .poll ∨ pc = .probe)
  | .launched pid | .stored pid => ∀ i pid', main i pid' → pid' = pid
  | _ => ∀ i pid, ¬ main i pid

structure OneMain (svc : Service) (host : Host) (main : ℕ → ℕ → Prop) (sup : Sup) : Prop where
  unique : ∀ {i j pid pid' : ℕ}, main i pid → main j pid' → i = j
  finished : sup.ctl.inStart → ∀ mon ∈ sup.monitors, mon.finished svc host
  ctl : sup.ctl.Follows main sup.pid
  monitors : ∀ mon ∈ sup.monitors, mon.finished svc host ∨ mon.Follows main sup.pid
  single : sup.monitors.Pairwise fun a b => a.finished svc host ∨ b.finished svc host

theorem Ctl.Follows.mono {main main' : ℕ → ℕ → Prop} (hsub : ∀ i pid, main' i pid → main i pid)
    {cell : Option ℕ} {ctl : Ctl} (h : ctl.Follows main cell) : ctl.Follows main' cell := by
  cases ctl with
  | starting | launching => exact fun i pid hmain => h i pid (hsub i pid hmain)
  | ready => exact fun i pid hmain => h i pid (hsub i pid hmain)
  | _ => exact h

theorem Monitor.Follows.mono {main main' : ℕ → ℕ → Prop}
    (hsub : ∀ i pid, main' i pid → main i pid) {cell : Option ℕ} {mon : Monitor}
    (h : mon.Follows main cell) : mon.Follows main' cell := by
  cases mon with
  | dead => trivial
  | _ => exact fun i pid hmain => h i pid (hsub i pid hmain)

theorem OneMain.mono {svc : Service} {host : Host} {main main' : ℕ → ℕ → Prop} {sup : Sup}
    (h : OneMain svc host main sup) (hsub : ∀ i pid, main' i pid → main i pid) :
    OneMain svc host main' sup := by
  refine ⟨fun hi hj => h.unique (hsub _ _ hi) (hsub _ _ hj), h.finished, h.ctl.mono hsub,
    fun mon hmon => ?_, h.single⟩
  rcases h.monitors mon hmon with hfin | hfollows
  · exact .inl hfin
  · exact .inr (hfollows.mono hsub)

/-- A pid that is polled in vain belongs to no live main process. -/
theorem Moves.follows {svc : Service} {host : Host} {sys : Pid1 Tag} {sup : Sup}
    {mon mon' : Monitor} {main : ℕ → ℕ → Prop} (h : Moves svc host sys sup mon mon')
    (hfresh : ∀ i pid, main i pid → sys.Fresh pid)
    (hexists : ∀ i pid, main i pid → sys.procExists pid)
    (hmon : mon.Follows main sup.pid) (cell : Option ℕ) : mon'.Follows main cell := by
  have hnone : ∀ {pid : ℕ} {pc : WaitPc}, (∀ i pid, ¬ main i pid) →
      (Monitor.wait pid pc).Follows main cell := fun hno i pid' hmain => absurd hmain (hno i pid')
  cases h with
  | load =>
    intro i pid hmain
    rw [hmon i pid hmain]
    exact ⟨rfl, .inl rfl⟩
  | wait hwait =>
    rename_i pid pc pc'
    intro i pid' hmain
    obtain ⟨rfl, hpc⟩ := hmon i pid' hmain
    refine ⟨rfl, ?_⟩
    rcases hpc with rfl | rfl
    · have hcode : sys.getExitCode pid' = none := (hfresh i pid' hmain).1
      simp only [Pid1.waitForExit, hcode, Option.some.injEq] at hwait
      exact .inr hwait.symm
    · simp only [Pid1.waitForExit, hexists i pid' hmain, if_true, Option.some.injEq] at hwait
      exact .inl hwait.symm
  | exited =>
    intro i pid hmain
    rcases (hmon i pid hmain).2 with hpc | hpc <;> cases hpc
  | suppressed | giveUp | chain | invalid => trivial
  | proceed | restart | awake | resolved => exact hmon
  | retry | fails => exact hnone hmon
  | store => exact hmon
  | runs => exact fun i pid' hmain => ⟨hmon i pid' hmain, .inl rfl⟩

/-- At most one monitor is not finished. -/
theorem OneMain.others_finished {svc : Service} {host : Host} {main : ℕ → ℕ → Prop} {sup : Sup}
    (h : OneMain svc host main sup) {m : ℕ} {mon : Monitor} (hm : sup.monitors[m]? = some mon)
    (hmon : mon.finished svc host = false) {n : ℕ} {other : Monitor}
    (hn : sup.monitors[n]? = some other) (hne : n ≠ m) : other.finished svc host := by
  obtain ⟨hmlt, rfl⟩ := List.getElem?_eq_some_iff.1 hm
  obtain ⟨hnlt, rfl⟩ := List.getElem?_eq_some_iff.1 hn
  have hpair := List.pairwise_iff_getElem.1 h.single
  rcases Nat.lt_or_gt_of_ne hne with hlt | hgt
  · rcases hpair n m hnlt hmlt hlt with hfin | hfin
    · exact hfin
    · rw [hmon] at hfin
      cases hfin
  · rcases hpair m n hmlt hnlt hgt with hfin | hfin
    · rw [hmon] at hfin
      cases hfin
    · exact hfin

/-- One monitor moves on; if it was not finished, the mains may change with it. -/
theorem OneMain.setMonitor {svc : Service} {host : Host} {main main' : ℕ → ℕ → Prop} {sup : Sup}
    (h : OneMain svc host main sup) {m : ℕ} {mon mon' : Monitor} {pid : Option ℕ} {running : Bool}
    (hm : sup.monitors[m]? = some mon) (hmon : mon.finished svc host = false)
    (hunique : ∀ {i j pid pid' : ℕ}, main' i pid → main' j pid' → i = j)
    (hfollows : mon'.Follows main' pid) :
    OneMain svc host main'
      { sup with monitors := sup.monitors.set m mon', pid, running } := by
  have hout : sup.ctl.inStart = false := by
    cases hin : sup.ctl.inStart with
    | false => rfl
    | true =>
      have hfin := h.finished hin mon (List.mem_of_getElem? hm)
      rw [hmon] at hfin
      cases hfin
  have hothers : ∀ n other, (sup.monitors.set m mon')[n]? = some other →
      other.finished svc host ∨ (n = m ∧ other = mon') := by
    intro n other hn
    rw [List.getElem?_set] at hn
    split at hn
    · rename_i hmn
      split at hn
      · cases hn
        exact .inr ⟨hmn.symm, rfl⟩
      · cases hn
    · rename_i hmn
      exact .inl (h.others_finished hm hmon hn (Ne.symm hmn))
  refine ⟨hunique, fun hin => ?_, ?_, fun other hother => ?_, ?_⟩
  · rw [hout] at hin
    cases hin
  · revert hout
    cases sup.ctl <;> simp [Ctl.inStart, Ctl.Follows]
  · obtain ⟨n, hn⟩ := List.mem_iff_getElem?.1 hother
    rcases hothers n other hn with hfin | ⟨-, rfl⟩
    · exact .inl hfin
    · exact .inr hfollows
  · rw [List.pairwise_iff_getElem]
    intro a b ha hb hab
    rcases hothers a _ (List.getElem?_eq_getElem ha) with hfin | ⟨rfl, -⟩
    · exact .inl hfin
    · rcases hothers b _ (List.getElem?_eq_getElem hb) with hfin | ⟨rfl, -⟩
      · exact .inr hfin
      · omega

/-- A monitor that is finished plays no part. -/
theorem OneMain.setFinished {svc : Service} {host : Host} {main : ℕ → ℕ → Prop} {sup : Sup}
    (h : OneMain svc host main sup) {m : ℕ} {mon' : Monitor} {running : Bool}
    (hfin : mon'.finished svc host) :
    OneMain svc host main { sup with monitors := sup.monitors.set m mon', running } := by
  have hmem : ∀ other ∈ sup.monitors.set m mon',
      other ∈ sup.monitors ∨ other.finished svc host := by
    intro other hother
    rcases List.mem_or_eq_of_mem_set hother with hold | rfl
    · exact .inl hold
    · exact .inr hfin
  refine ⟨h.unique, fun hin other hother => ?_, h.ctl, fun other hother => ?_, ?_⟩
  · rcases hmem other hother with hold | hdone
    · exact h.finished hin other hold
    · exact hdone
  · rcases hmem other hother with hold | hdone
    · exact h.monitors other hold
    · exact .inl hdone
  · rw [List.pairwise_iff_getElem]
    intro a b ha hb hab
    simp only [List.getElem_set]
    split
    · exact .inl hfin
    · split
      · exact .inr hfin
      · rw [List.length_set] at ha hb
        exact List.pairwise_iff_getElem.1 h.single a b ha hb hab

/-- The monitor that `start` spawns reads the pid of the live main process. -/
theorem OneMain.spawn {svc : Service} {host : Host} {main : ℕ → ℕ → Prop} {sup : Sup}
    (h : OneMain svc host main sup) (hfin : ∀ mon ∈ sup.monitors, mon.finished svc host)
    (hcell : ∀ i pid, main i pid → sup.pid = some pid) {watchers : ℕ} :
    OneMain svc host main
      { sup with ctl := .idle, monitors := sup.monitors ++ [.load], watchers } := by
  refine ⟨h.unique, nofun, trivial, fun mon hmon => ?_, ?_⟩
  · rcases List.mem_append.1 hmon with hold | hnew
    · exact h.monitors mon hold
    · rw [List.mem_singleton.1 hnew]
      exact .inr hcell
  · rw [List.pairwise_append]
    exact ⟨h.single, List.pairwise_singleton _ _, fun a ha _ _ => .inl (hfin a ha)⟩

theorem OneMain.acts {svc : Service} {host : Host} {sys : Pid1 Tag} {members : List ℕ}
    {main : ℕ → ℕ → Prop} {sup sup' : Sup} {e : LocalEvent} (h : OneMain svc host main sup)
    (hfresh : ∀ i pid, main i pid → sys.Fresh pid)
    (hexists : ∀ i pid, main i pid → sys.procExists pid)
    (hacts : Acts svc host sys members sup e sup')
    (hstart : e = .callStart →
      (∀ i pid, ¬ main i pid) ∧ ∀ mon ∈ sup.monitors, mon.finished svc host)
    (hsettle : ∀ named, e = .settle named → ∀ pid, sup.ctl = .up pid →
      ∀ i pid', main i pid' → pid' = named.getD pid) :
    OneMain svc host main sup' := by
  -- while `start` runs every monitor is finished, so the pid cell may change
  have hall : sup.ctl.inStart → ∀ cell, ∀ mon ∈ sup.monitors,
      mon.finished svc host ∨ mon.Follows main cell :=
    fun hin _ mon hmon => .inl (h.finished hin mon hmon)
  cases hacts with
  | callStart =>
    obtain ⟨hnone, hfin⟩ := hstart rfl
    exact ⟨h.unique, fun _ => hfin, hnone, h.monitors, h.single⟩
  | giveUp | oneshotDone | callStop | stopNone | stopLoad | stopStep | stopDone | callKill
  | callSignal | signal => exact ⟨h.unique, nofun, trivial, h.monitors, h.single⟩
  | resolve hctl =>
    have hfollows := h.ctl
    have hfin := h.finished
    rw [hctl] at hfollows hfin
    exact ⟨h.unique, fun _ => hfin rfl, hfollows, h.monitors, h.single⟩
  | storePid hctl =>
    have hin : sup.ctl.inStart := by rw [hctl]; rfl
    exact ⟨h.unique, fun _ => h.finished hin, rfl, hall hin _, h.single⟩
  | setRunning hctl =>
    have hfollows := h.ctl
    have hfin := h.finished
    rw [hctl] at hfollows hfin
    exact ⟨h.unique, fun _ => hfin rfl, hfollows, h.monitors, h.single⟩
  | settle hctl hnext =>
    rename_i pid named ctl
    have hin : sup.ctl.inStart := by rw [hctl]; rfl
    have hcell : named.or sup.pid = some (named.getD pid) := by
      have hfollows := h.ctl
      rw [hctl] at hfollows
      rw [hfollows]
      cases named <;> rfl
    refine ⟨h.unique, fun _ => h.finished hin, ?_, hall hin _, h.single⟩
    rcases hnext with rfl | rfl
    · trivial
    · intro i pid' hmain
      rw [hcell, hsettle named rfl pid hctl i pid' hmain]
  | oneshotWait hctl =>
    have hin : sup.ctl.inStart := by rw [hctl]; rfl
    exact ⟨h.unique, fun _ => h.finished hin, trivial, h.monitors, h.single⟩
  | spawn hctl hmonitors =>
    have hin : sup.ctl.inStart := by rw [hctl]; rfl
    have hready := h.ctl
    rw [hctl] at hready
    rcases hmonitors with rfl | rfl
    · exact ⟨h.unique, nofun, trivial, h.monitors, h.single⟩
    · exact h.spawn (h.finished hin) hready
  | monitor hm hmoves hpid =>
    rename_i m choice mon mon' pid running
    cases hfin : mon.finished svc host with
    | false =>
      have hfollows := h.monitors mon (List.mem_of_getElem? hm)
      rw [hfin] at hfollows
      exact h.setMonitor hm hfin h.unique
        (hmoves.follows hfresh hexists (hfollows.resolve_left nofun) pid)
    | true =>
      have hcell : pid = sup.pid := by
        rcases hpid with hsame | ⟨n, rfl, -⟩
        · exact hsame
        · cases hfin
      subst hcell
      exact h.setFinished (hmoves.finished hfin)
  | watcher => exact ⟨h.unique, h.finished, h.ctl, h.monitors, h.single⟩

namespace World

/-- Instance `i` is a live main process of service `k` and has this pid. -/
def mainAt (w : World) (k i pid : ℕ) : Prop :=
  w.isLiveMain k i ∧ (w.sys.table.get i).map (·.pid) = some pid

theorem mainAt_iff {w : World} {k i pid : ℕ} :
    w.mainAt k i pid ↔ ∃ p, w.sys.table.get i = some p ∧ p.pid = pid ∧ p.status = .alive ∧
      p.tag.service = some k ∧ p.tag.origin ≠ .other ∧ w.handedOver i = false := by
  unfold mainAt
  rw [isLiveMain_iff]
  constructor
  · intro ⟨⟨p, hp, hlive⟩, hpid⟩
    rw [hp, Option.map_some, Option.some.injEq] at hpid
    exact ⟨p, hp, hpid, hlive⟩
  · intro ⟨p, hp, hpid, hlive⟩
    have hget : (w.sys.table.get i).map (·.pid) = some pid := by rw [hp, Option.map_some, hpid]
    exact ⟨⟨p, hp, hlive⟩, hget⟩

theorem exists_mainAt {w : World} {k i : ℕ} (h : w.isLiveMain k i) : ∃ pid, w.mainAt k i pid := by
  obtain ⟨p, hp, -⟩ := isLiveMain_iff.1 h
  exact ⟨p.pid, h, by rw [hp]; rfl⟩

theorem handedOver_of_step {cfg : Config} {w w' : World} {e : Event}
    (h : w.step cfg e = some w') {i : ℕ} (hi : w'.handedOver i = false) :
    w.handedOver i = false := by
  rcases (step_marks h).1 with hsame | ⟨j, pid, -, hupdate⟩
  · rw [← hsame]
    exact hi
  · rw [hupdate] at hi
    by_cases hij : i = j
    · simp [hij] at hi
    · simpa [hij] using hi

/-- A main process was one before the step, or is the one that the step has started. -/
theorem mainAt_of_step {cfg : Config} {w w' : World} {e : Event} (h : w.step cfg e = some w')
    {k i pid : ℕ} (hmain : w'.mainAt k i pid) :
    w.mainAt k i pid ∨ (i = w.sys.table.size ∧
      ((e = .startLaunch k pid ∧ ∃ uid, (w.sups k).ctl = .launching uid) ∨
      (∃ m old uid, e = .monitorLaunch k m pid ∧
        (w.sups k).monitors[m]? = some (.launch old uid)) ∨
      (∃ j, e = .daemonize j pid ∧ w.isLiveMain k j))) := by
  obtain ⟨p', hp', rfl, halive, hservice, horigin, hhanded⟩ := mainAt_iff.1 hmain
  rcases step_procs h hp' with ⟨p, hp, hlater⟩ | ⟨hi, hborn⟩
  · left
    rw [hlater.pid]
    rw [hlater.tag] at hservice horigin
    exact mainAt_iff.2 ⟨p, hp, rfl, hlater.alive halive, hservice, horigin,
      handedOver_of_step h hhanded⟩
  · right
    refine ⟨hi, ?_⟩
    cases hborn with
    | start hctl =>
      cases hservice
      exact .inl ⟨rfl, _, hctl⟩
    | monitor hm =>
      cases hservice
      exact .inr (.inl ⟨_, _, _, rfl, hm⟩)
    | daemon hp hlive hk =>
      cases hservice
      exact .inr (.inr ⟨_, rfl, hlive⟩)
    | foreign => exact absurd rfl horigin

/-- A service has at most one live main process, and at most one monitor that may launch it. -/
structure OneAtATime (cfg : Config) (w : World) : Prop where
  mains : ∀ k i j, w.isLiveMain k i → w.isLiveMain k j → i = j
  monitors : ∀ k, (w.sups k).monitors.Pairwise fun a b =>
    a.finished (cfg.services k) cfg.host ∨ b.finished (cfg.services k) cfg.host

/-- `start` is called for services without a live main process whose monitors are finished;
launched processes and daemons get pids without a recorded code; a daemon takes over only while
`start` has not settled on a pid, and then it settles on the pid of the live main process. -/
def StartsAlone (cfg : Config) (w : World) : Event → Prop
  | .startLaunch _ pid | .monitorLaunch _ _ pid => w.sys.Fresh pid
  | .daemonize i pid => w.sys.Fresh pid ∧
    ∀ p ∈ w.sys.table.get i, ∀ k ∈ p.tag.service, (w.sups k).ctl.unsettled
  | .sup k .callStart => w.liveMains k = [] ∧
    ∀ mon ∈ (w.sups k).monitors, mon.finished (cfg.services k) cfg.host
  | .sup k (.settle named) => ∀ pid ∈ (w.sups k).ctl.upPid, ∀ i ∈ w.liveMains k,
    (w.sys.table.get i).map (·.pid) = some (named.getD pid)
  | _ => True

instance (cfg : Config) (w : World) (e : Event) : Decidable (StartsAlone cfg w e) :=
  match e with
  | .startLaunch _ pid | .monitorLaunch _ _ pid => inferInstanceAs (Decidable (w.sys.Fresh pid))
  | .daemonize i pid => inferInstanceAs (Decidable (w.sys.Fresh pid ∧
      ∀ p ∈ w.sys.table.get i, ∀ k ∈ p.tag.service, (w.sups k).ctl.unsettled))
  | .sup k .callStart => inferInstanceAs (Decidable (w.liveMains k = [] ∧
      ∀ mon ∈ (w.sups k).monitors, mon.finished (cfg.services k) cfg.host))
  | .sup k (.settle named) => inferInstanceAs (Decidable (∀ pid ∈ (w.sups k).ctl.upPid,
      ∀ i ∈ w.liveMains k, (w.sys.table.get i).map (·.pid) = some (named.getD pid)))
  | .kernel _ | .foreign _ _ _ _ | .sup _ .startReturn | .sup _ .resolve | .sup _ .launchFails
  | .sup _ .storePid | .sup _ .setRunning | .sup _ .wait | .sup _ (.spawnThreads _)
  | .sup _ .callStop | .sup _ .stopLoad | .sup _ (.stopStep _) | .sup _ .callKill
  | .sup _ .callSignal | .sup _ .signal | .sup _ (.monitor _ _) | .sup _ (.watcher _) =>
    inferInstanceAs (Decidable True)

/-- Only a step of the kernel records codes, and not for the pid of a live process. -/
theorem fresh_of_step {cfg : Config} {w w' : World} {e : Event} (h : w.step cfg e = some w')
    {pid : ℕ} (hmain : (∃ k i, w.mainAt k i pid) ∨ ∀ ke, e ≠ .kernel ke)
    (hfresh : w.sys.Fresh pid) : w'.sys.Fresh pid := by
  rcases step_sys h with ⟨ke, he, hsys⟩ | ⟨⟨pid', tag, child, hsys⟩, -⟩ | ⟨hsys, -⟩
  · rcases hmain with ⟨k, i, hmain⟩ | hnot
    · obtain ⟨p, hp, hpid, halive, -⟩ := mainAt_iff.1 hmain
      exact hfresh.step hsys hp halive hpid
    · exact absurd he (hnot ke)
  · obtain ⟨t, -, heq⟩ := Pid1.fork_eq_some hsys
    rw [heq]
    exact hfresh
  · rw [hsys]
    exact hfresh

structure Singles (cfg : Config) (w : World) : Prop where
  fresh : ∀ k i pid, w.mainAt k i pid → w.sys.Fresh pid
  one : ∀ k, OneMain (cfg.services k) cfg.host (w.mainAt k) (w.sups k)

theorem procExists_of_mainAt {w : World} {k i pid : ℕ} (h : w.mainAt k i pid) :
    w.sys.procExists pid := by
  obtain ⟨p, hp, hpid, halive, -⟩ := mainAt_iff.1 h
  cases hexists : w.sys.procExists pid with
  | true => rfl
  | false => exact absurd hpid (Table.inUse_eq_false.1 hexists i p hp (Proc.held_of_alive halive))

theorem Singles.fresh_step {cfg : Config} {w w' : World} {e : Event} (h : Singles cfg w)
    (hok : StartsAlone cfg w e) (hstep : w.step cfg e = some w') (k i pid : ℕ)
    (hmain : w'.mainAt k i pid) : w'.sys.Fresh pid := by
  rcases mainAt_of_step hstep hmain with hold | ⟨-, ⟨rfl, -⟩ | ⟨m, old, uid, rfl, -⟩ | ⟨j, rfl, -⟩⟩
  · exact fresh_of_step hstep (.inl ⟨k, i, hold⟩) (h.fresh k i pid hold)
  · exact fresh_of_step hstep (.inr nofun) hok
  · exact fresh_of_step hstep (.inr nofun) hok
  · exact fresh_of_step hstep (.inr nofun) hok.1

/-- A daemon replaces the process that forked it. -/
theorem mainAt_of_daemonize {cfg : Config} {w w' : World} {j pid : ℕ}
    (hstep : w.step cfg (.daemonize j pid) = some w') {k : ℕ} (hj : w.isLiveMain k j)
    (hunique : ∀ {i j pid pid' : ℕ}, w.mainAt k i pid → w.mainAt k j pid' → i = j) {i pid' : ℕ}
    (hmain : w'.mainAt k i pid') : i = w.sys.table.size := by
  rcases mainAt_of_step hstep hmain with hold | ⟨hi, -⟩
  · obtain ⟨q, hq⟩ := exists_mainAt hj
    have hij := hunique hold hq
    obtain ⟨p, k', sys, -, -, -, -, rfl⟩ := step_daemonize hstep
    obtain ⟨-, -, -, -, -, -, hnot⟩ := mainAt_iff.1 hmain
    simp [hij] at hnot
  · exact hi

/-- A step that launches no process of the service adds no main process to it. -/
theorem mainAt_of_quiet {cfg : Config} {w w' : World} {e : Event} (hstep : w.step cfg e = some w')
    {k : ℕ} (hstart : ∀ pid, e ≠ .startLaunch k pid) (hmonitor : ∀ m pid, e ≠ .monitorLaunch k m pid)
    (hdaemon : ∀ j pid, e = .daemonize j pid → w.isLiveMain k j = false) (i pid : ℕ)
    (hmain : w'.mainAt k i pid) : w.mainAt k i pid := by
  rcases mainAt_of_step hstep hmain with hold | ⟨-, hnew⟩
  · exact hold
  rcases hnew with ⟨he, -⟩ | ⟨m, old, uid, he, -⟩ | ⟨j, he, hj⟩
  · exact absurd he (hstart pid)
  · exact absurd he (hmonitor m pid)
  · rw [hdaemon j pid he] at hj
    cases hj

/-- While `start` has not settled on a pid nothing depends on which process is the main one. -/
theorem Singles.one_daemonize {cfg : Config} {w w' : World} {j pid k : ℕ} (h : Singles cfg w)
    (hok : StartsAlone cfg w (.daemonize j pid)) (hstep : w.step cfg (.daemonize j pid) = some w')
    (hj : w.isLiveMain k j) :
    OneMain (cfg.services k) cfg.host (w'.mainAt k) (w.sups k) := by
  have hone := h.one k
  obtain ⟨p, hp, -, hservice, -⟩ := isLiveMain_iff.1 hj
  have hunsettled : (w.sups k).ctl.unsettled := hok.2 p hp k hservice
  have hin : (w.sups k).ctl.inStart := by
    revert hunsettled
    cases (w.sups k).ctl <;> simp [Ctl.unsettled, Ctl.inStart]
  have hfollows : (w.sups k).ctl.Follows (w'.mainAt k) (w.sups k).pid := by
    have hold := hone.ctl
    revert hunsettled hold
    cases (w.sups k).ctl <;> simp [Ctl.unsettled, Ctl.Follows]
  have hnew : ∀ {i pid'}, w'.mainAt k i pid' → i = w.sys.table.size :=
    fun hmain => mainAt_of_daemonize hstep hj hone.unique hmain
  exact ⟨fun hi hj => (hnew hi).trans (hnew hj).symm, hone.finished, hfollows,
    fun mon hmon => .inl (hone.finished hin mon hmon), hone.single⟩

theorem Singles.one_startLaunch {cfg : Config} {w w' : World} {k pid : ℕ} {uid : Option ℕ}
    (h : Singles cfg w) (hstep : w.step cfg (.startLaunch k pid) = some w')
    (hctl : (w.sups k).ctl = .launching uid) :
    OneMain (cfg.services k) cfg.host (w'.mainAt k) { w.sups k with ctl := .launched pid } := by
  have hone := h.one k
  have hin : (w.sups k).ctl.inStart := by rw [hctl]; rfl
  have hnone := hone.ctl
  rw [hctl] at hnone
  have hnew : ∀ {i pid'}, w'.mainAt k i pid' → i = w.sys.table.size := by
    intro i pid' hmain
    rcases mainAt_of_step hstep hmain with hold | ⟨hi, -⟩
    · exact absurd hold (hnone i pid')
    · exact hi
  exact ⟨fun hi hj => (hnew hi).trans (hnew hj).symm, fun _ => hone.finished hin, trivial,
    fun mon hmon => .inl (hone.finished hin mon hmon), hone.single⟩

theorem Singles.one_monitorLaunch {cfg : Config} {w w' : World} {k m pid old : ℕ} {uid : Option ℕ}
    (h : Singles cfg w) (hstep : w.step cfg (.monitorLaunch k m pid) = some w')
    (hm : (w.sups k).monitors[m]? = some (.launch old uid)) :
    OneMain (cfg.services k) cfg.host (w'.mainAt k) ((w.sups k).setMonitor m (.launched pid)) := by
  have hone := h.one k
  have hnone := (hone.monitors _ (List.mem_of_getElem? hm)).resolve_left nofun
  have hnew : ∀ {i pid'}, w'.mainAt k i pid' → i = w.sys.table.size ∧ pid' = pid := by
    intro i pid' hmain
    rcases mainAt_of_step hstep hmain with hold | ⟨hi, hborn⟩
    · exact absurd hold (hnone i pid')
    rcases hborn with ⟨he, -⟩ | ⟨m', old', uid', he, -⟩ | ⟨j, he, -⟩
    · cases he
    · cases he
      exact ⟨hi, rfl⟩
    · cases he
  exact hone.setMonitor hm rfl (fun hi hj => (hnew hi).1.trans (hnew hj).1.symm)
    fun i pid' hmain => (hnew hmain).2

theorem Singles.one_local {cfg : Config} {w : World} {k : ℕ} {le : LocalEvent} {sup' : Sup}
    (h : Singles cfg w) (hok : StartsAlone cfg w (.sup k le))
    (hacts : Acts (cfg.services k) cfg.host w.sys (w.cgroupProcs k) (w.sups k) le sup') :
    OneMain (cfg.services k) cfg.host (w.mainAt k) sup' := by
  apply (h.one k).acts (h.fresh k) (fun i pid => procExists_of_mainAt) hacts
  · intro he
    subst he
    have hnone : ∀ i pid, ¬ w.mainAt k i pid := by
      intro i pid hmain
      have hnot := liveMains_eq_nil.1 hok.1 i
      rw [hmain.1] at hnot
      cases hnot
    exact ⟨hnone, hok.2⟩
  · intro named he pid hctl i pid' hmain
    subst he
    have hup : pid ∈ (w.sups k).ctl.upPid := by rw [hctl]; rfl
    have hpid := hok pid hup i (mem_liveMains.2 hmain.1)
    rw [hmain.2] at hpid
    exact Option.some.inj hpid

theorem Singles.one_step {cfg : Config} {w w' : World} {e : Event} (h : Singles cfg w)
    (hok : StartsAlone cfg w e) (hstep : w.step cfg e = some w') (k : ℕ) :
    OneMain (cfg.services k) cfg.host (w'.mainAt k) (w'.sups k) := by
  rcases step_sups hstep k with ⟨hsame, hnostart, hnomonitor⟩ | ⟨pid, uid, rfl, hctl, hsup⟩ |
    ⟨m, pid, old, uid, rfl, hm, hsup⟩ | ⟨le, rfl, hacts⟩
  · rw [hsame]
    by_cases hdaemon : ∃ j pid, e = .daemonize j pid ∧ w.isLiveMain k j
    · obtain ⟨j, pid, rfl, hj⟩ := hdaemon
      exact h.one_daemonize hok hstep hj
    · refine (h.one k).mono (mainAt_of_quiet hstep hnostart hnomonitor fun j pid he => ?_)
      by_contra hj
      exact hdaemon ⟨j, pid, he, by simpa using hj⟩
  · rw [hsup]
    exact h.one_startLaunch hstep hctl
  · rw [hsup]
    exact h.one_monitorLaunch hstep hm
  · exact (h.one_local hok hacts).mono (mainAt_of_quiet hstep nofun nofun nofun)

/-- In every run whose starts, launches and hand-overs meet the condition, a service has one main
process and one monitor that may launch it at most. -/
theorem oneAtATime_of_reach (cfg : Config) (w : World)
    (hreach : Runs.Reach (step cfg) (StartsAlone cfg) init w) : OneAtATime cfg w := by
  have hnone : ∀ k i pid, ¬ init.mainAt k i pid := fun k i pid hmain => by cases hmain.2
  have hinit : Singles cfg init :=
    ⟨fun k i pid hmain => absurd hmain (hnone k i pid),
      fun k => ⟨fun hi => absurd hi (hnone k _ _), nofun, trivial, nofun, .nil⟩⟩
  have hinv : Singles cfg w :=
    hreach.invariant (fun h hok hstep => ⟨h.fresh_step hok hstep, h.one_step hok hstep⟩) hinit
  refine ⟨fun k i j hi hj => ?_, fun k => (hinv.one k).single⟩
  obtain ⟨pid, hpid⟩ := exists_mainAt hi
  obtain ⟨pid', hpid'⟩ := exists_mainAt hj
  exact (hinv.one k).unique hpid hpid'

theorem oneAtATime_of_restart :
    ∃ w, Runs.Reach (step alwaysWeb) (StartsAlone alwaysWeb) init w ∧ w.liveMains 0 = [1] ∧
      (w.sups 0).monitors = [.launched 101] ∧ OneAtATime alwaysWeb w := by
  obtain ⟨w, hreach, hcheck⟩ := Runs.exists_reach_of_exec (step alwaysWeb) (StartsAlone alwaysWeb)
    init
    (startEvents 0 100 ++ exitEvents 0 1 ++ List.replicate 7 (Event.sup 0 (.monitor 0 false)) ++
      [Event.monitorLaunch 0 0 101])
    (fun w => w.liveMains 0 = [1] ∧ (w.sups 0).monitors = [.launched 101]) (by decide +kernel)
  obtain ⟨hmains, hmonitors⟩ := of_decide_eq_true hcheck
  exact ⟨w, hreach, hmains, hmonitors, oneAtATime_of_reach alwaysWeb w hreach⟩

/-- `stop` and `start` run between two polls of the monitor of the stopped process; it then finds
that process gone and no stop requested, and launches the service next to the new process. -/
theorem two_mains_after_restart :
    ∃ w, Runs.Reach (step alwaysWeb) (fun _ _ => True) init w ∧ w.liveMains 0 = [1, 2] ∧
      (w.sups 0).monitors = [.launched 102, .load] ∧ ¬ OneAtATime alwaysWeb w := by
  obtain ⟨w, hreach, hcheck⟩ := Runs.exists_reach_of_exec (step alwaysWeb) (fun _ _ => True) init
    (startEvents 0 100 ++ [Event.sup 0 (.monitor 0 false), .sup 0 .callStop, .sup 0 .stopLoad,
      .sup 0 (.stopStep false)] ++ exitEvents 0 1 ++ [Event.sup 0 (.stopStep false)] ++
      startEvents 0 101 ++ List.replicate 6 (Event.sup 0 (.monitor 0 false)) ++
      [Event.monitorLaunch 0 0 102])
    (fun w => w.liveMains 0 = [1, 2] ∧ (w.sups 0).monitors = [.launched 102, .load])
    (by decide +kernel)
  obtain ⟨hmains, hmonitors⟩ := of_decide_eq_true hcheck
  have hone : w.isLiveMain 0 1 := mem_liveMains.1 (by simp [hmains])
  have htwo : w.isLiveMain 0 2 := mem_liveMains.1 (by simp [hmains])
  refine ⟨w, hreach, hmains, hmonitors, fun h => ?_⟩
  have heq := h.mains 0 1 2 hone htwo
  cases heq

end World

end Quantra.Supervisor
