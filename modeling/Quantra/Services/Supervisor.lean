import Quantra.Lib.Runs
import Quantra.Services.Launch
import Quantra.Signals.Reaper

/-! The threads of `services/supervisor.rs` and `control.rs` that share a supervisor: the calls of
`start`, `stop` and the signal handlers, which the manager's lock keeps apart, the restart monitors
and the health and watchdog threads. Each step reads or writes one shared cell. -/
namespace Quantra.Supervisor
open ProcTable Quantra.Services Quantra.Signals

/-- The configuration: services by number, and the machine they are resolved on. -/
structure Config where
  services : ℕ → Service
  host : Host

/-- How a process came to be: launched by `start` or by a restart monitor, forked as its daemon by
a launched process, or anything else. -/
inductive Origin
  | start
  | monitor
  | daemon
  | other
  deriving DecidableEq, Repr

/-- The service in whose cgroup a process is from the start, and its uid (`none` if left at
root). -/
structure Tag where
  service : Option ℕ
  uid : Option ℕ
  origin : Origin
  deriving DecidableEq, Repr

/-- The stages of `stop` after it has read the pid. `walk` goes through the pids that it has read
from `cgroup.procs`. -/
inductive StopStage
  | abrt
  | abrtPoll
  | command
  | term
  | termPoll
  | cgroupKill
  | kill
  | killWait
  | walkRead (last : Bool)
  | walk (last : Bool) (pids : List ℕ)
  deriving DecidableEq, Repr

/-- Where the call that holds the supervisor is. -/
inductive Ctl
  | idle
  | starting
  | launching (uid : Option ℕ)
  | launched (pid : ℕ)
  | stored (pid : ℕ)
  | up (pid : ℕ)
  | oneshot (pid : ℕ) (pc : WaitPc)
  | ready
  | stopping
  | stop (pid : ℕ) (stage : StopStage)
  | kill (pid : ℕ)
  | signal (pid : ℕ)
  deriving DecidableEq, Repr

/-- Where a `restart_monitor` thread is; `dead` is a thread that ended. -/
inductive Monitor
  | dead
  | load
  | wait (pid : ℕ) (pc : WaitPc)
  | check (pid : ℕ) (code : ℤ)
  | decide (pid : ℕ) (code : ℤ)
  | sleep (pid : ℕ) (code : ℤ)
  | resolve (pid : ℕ)
  | launch (pid : ℕ) (uid : Option ℕ)
  | launched (pid : ℕ)
  | stored (pid : ℕ)
  deriving DecidableEq, Repr

/-- A supervisor and the threads that use it. The pid cell holds `none` for -1. `stopped` is no
variable of the program: it records that `stop` has returned and `start` was not called since. -/
structure Sup where
  pid : Option ℕ := none
  running : Bool := false
  stopRequested : Bool := false
  ctl : Ctl := .idle
  monitors : List Monitor := []
  watchers : ℕ := 0
  stopped : Bool := false

inductive LocalEvent
  | callStart
  | startReturn
  | resolve
  | launchFails
  | storePid
  | setRunning
  | settle (named : Option ℕ)
  | wait
  | spawnThreads (spawned : Bool)
  | callStop
  | stopLoad
  | stopStep (choice : Bool)
  | callKill
  | callSignal
  | signal
  | monitor (m : ℕ) (choice : Bool)
  | watcher (clears : Bool)
  deriving DecidableEq, Repr

namespace Sup

/-- `start`, between the launch and the spawning of the threads. Of the pid file only services of
type bgprocess that name one take a pid. -/
def settle (svc : Service) (sup : Sup) (pid : ℕ) (named : Option ℕ) : Option Sup :=
  let ctl := if svc.oneshot then .oneshot pid .poll else .ready
  match named with
  | none => some { sup with ctl }
  | some daemon =>
    if svc.notifyType = .bgProcess ∧ svc.pidFile.isSome then
      some { sup with ctl, pid := some daemon }
    else none

/-- The end of `start`; a monitor that cannot be spawned makes it return early. -/
def spawnThreads (svc : Service) (sup : Sup) (spawned : Bool) : Sup :=
  let watchers := sup.watchers + (if 0 < svc.watchdogSec then 1 else 0) +
    (if svc.healthcheck.isSome then 1 else 0)
  if svc.restart = .no then { sup with ctl := .idle, watchers }
  else if spawned then { sup with ctl := .idle, monitors := sup.monitors ++ [.load], watchers }
  else { sup with ctl := .idle }

def stopDone (sup : Sup) : Sup := { sup with running := false, ctl := .idle, stopped := true }

def afterWatchdog (svc : Service) : StopStage :=
  if svc.stopCommand.isSome then .command else .term

def firstStage (svc : Service) : StopStage :=
  if 0 < svc.watchdogSec then .abrt else afterWatchdog svc

/-- One step of `stop` on the pid it has read. `choice` is what time or another program decides:
that a polling loop has run out, that `stop_command` succeeded, or that `cgroup.procs` could be
read; `members` are the pids listed there. -/
def stopStep (svc : Service) (sys : Pid1 Tag) (members : List ℕ) (sup : Sup) (pid : ℕ)
    (choice : Bool) : StopStage → Sup
  | .abrt => { sup with ctl := .stop pid .abrtPoll }
  | .abrtPoll =>
    if choice then { sup with ctl := .stop pid (afterWatchdog svc) }
    else if sys.procExists pid then sup
    else sup.stopDone
  | .command =>
    if choice ∧ sys.procExists pid = false then sup.stopDone
    else { sup with ctl := .stop pid .term }
  | .term =>
    if sys.procExists pid then { sup with ctl := .stop pid .termPoll } else sup.stopDone
  | .termPoll =>
    if choice then { sup with ctl := .stop pid .cgroupKill }
    else if sys.procExists pid then sup
    else sup.stopDone
  | .cgroupKill => { sup with ctl := .stop pid .kill }
  | .kill => { sup with ctl := .stop pid .killWait }
  | .killWait => { sup with ctl := .stop pid (.walkRead false) }
  | .walkRead last => { sup with ctl := .stop pid (.walk last (if choice then members else [])) }
  | .walk last (_ :: rest) => { sup with ctl := .stop pid (.walk last rest) }
  | .walk false [] => { sup with ctl := .stop pid (.walkRead true) }
  | .walk true [] => sup.stopDone

def setMonitor (sup : Sup) (m : ℕ) (mon : Monitor) : Sup :=
  { sup with monitors := sup.monitors.set m mon }

/-- `match svc.restart` in `restart_monitor`. -/
def restarts (svc : Service) (code : ℤ) : Bool :=
  match svc.restart with
  | .no => false
  | .onFailure => code ≠ 0
  | .always => true

/-- Whether the monitor hands over to the `chain_to` service instead of relaunching. -/
def chains (svc : Service) (code : ℤ) : Bool :=
  svc.chainTo.isSome && (svc.chainToAlways || code == 0)

/-- One step of `restart_monitor` other than a successful launch. `choice` decides whether the
crash-loop breaker trips, and that a launch fails. -/
def monitorStep (svc : Service) (host : Host) (sys : Pid1 Tag) (sup : Sup) (m : ℕ) (choice : Bool) :
    Option Sup :=
  match sup.monitors[m]? with
  | none | some .dead => none
  -- an unset cell is read `as u32`
  | some .load => some (sup.setMonitor m (.wait (sup.pid.getD 4294967295) .poll))
  | some (.wait pid (.returned code)) =>
    some { sup.setMonitor m (.check pid code) with running := false }
  | some (.wait pid pc) => (sys.waitForExit pid pc).map fun pc' => sup.setMonitor m (.wait pid pc')
  | some (.check pid code) =>
    some (sup.setMonitor m (if sup.stopRequested then .dead else .decide pid code))
  | some (.decide pid code) =>
    if 0 < svc.maxRestarts ∧ choice then some (sup.setMonitor m .dead)
    else some (sup.setMonitor m (if restarts svc code then .sleep pid code else .dead))
  | some (.sleep pid code) =>
    some (sup.setMonitor m (if chains svc code then .dead else .resolve pid))
  | some (.resolve pid) =>
    match restartLaunch host none svc with
    | .ok l => some (sup.setMonitor m (.launch pid l.uid))
    | .error (.retry _) => some (sup.setMonitor m (.wait pid .poll))
    | .error (.giveUp _) => some (sup.setMonitor m .dead)
  | some (.launch pid _) => if choice then some (sup.setMonitor m (.wait pid .poll)) else none
  | some (.launched pid) => some { sup.setMonitor m (.stored pid) with pid := some pid }
  | some (.stored pid) => some { sup.setMonitor m (.wait pid .poll) with running := true }

/-- The steps that change one supervisor only. -/
def localStep (svc : Service) (host : Host) (sys : Pid1 Tag) (members : List ℕ) (sup : Sup) :
    LocalEvent → Option Sup
  | .callStart =>
    if sup.ctl = .idle ∧ sup.running = false then
      some { sup with stopRequested := false, running := false, stopped := false, ctl := .starting }
    else none
  | .startReturn => if sup.ctl = .starting then some { sup with ctl := .idle } else none
  | .resolve =>
    if sup.ctl = .starting then
      match startLaunch host none svc with
      | .ok l => some { sup with ctl := .launching l.uid }
      | .error _ => some { sup with ctl := .idle }
    else none
  | .launchFails =>
    match sup.ctl with
    | .launching _ => some { sup with ctl := .idle }
    | _ => none
  | .storePid =>
    match sup.ctl with
    | .launched pid => some { sup with pid := some pid, ctl := .stored pid }
    | _ => none
  | .setRunning =>
    match sup.ctl with
    | .stored pid => some { sup with running := true, ctl := .up pid }
    | _ => none
  | .settle named =>
    match sup.ctl with
    | .up pid => sup.settle svc pid named
    | _ => none
  | .wait =>
    match sup.ctl with
    | .oneshot _ (.returned _) => some { sup with running := false, ctl := .idle }
    | .oneshot pid pc =>
      (sys.waitForExit pid pc).map fun pc' => { sup with ctl := .oneshot pid pc' }
    | _ => none
  | .spawnThreads spawned =>
    if sup.ctl = .ready then some (sup.spawnThreads svc spawned) else none
  | .callStop =>
    if sup.ctl = .idle then some { sup with stopRequested := true, ctl := .stopping } else none
  | .stopLoad =>
    if sup.ctl = .stopping then
      match sup.pid with
      | none => some { sup with ctl := .idle, stopped := true }
      | some pid => some { sup with ctl := .stop pid (firstStage svc) }
    else none
  | .stopStep choice =>
    match sup.ctl with
    | .stop pid stage => some (sup.stopStep svc sys members pid choice stage)
    | _ => none
  | .callKill =>
    if sup.ctl = .idle then sup.pid.map fun pid => { sup with ctl := .kill pid } else none
  | .callSignal =>
    if sup.ctl = .idle then sup.pid.map fun pid => { sup with ctl := .signal pid } else none
  | .signal =>
    match sup.ctl with
    | .kill _ | .signal _ => some { sup with ctl := .idle }
    | _ => none
  | .monitor m choice => sup.monitorStep svc host sys m choice
  | .watcher clears =>
    if 0 < sup.watchers then
      some { sup with running := sup.running && !clears, watchers := sup.watchers - 1 }
    else none

end Sup

/-- `handedOver i` records that instance `i` has forked the daemon that is now the main process
of its service, and `moved i` lists the services to whose cgroups it was moved, the last one
first. -/
structure World where
  sys : Pid1 Tag
  sups : ℕ → Sup
  handedOver : ℕ → Bool
  moved : ℕ → List ℕ

inductive Event
  | kernel (e : KernelEvent)
  | foreign (pid : ℕ) (child : Bool) (service uid : Option ℕ)
  | daemonize (i pid : ℕ)
  | startLaunch (k pid : ℕ)
  | monitorLaunch (k m pid : ℕ)
  | sup (k : ℕ) (e : LocalEvent)
  deriving DecidableEq, Repr

namespace World

def init : World := ⟨.init, fun _ => {}, fun _ => false, fun _ => []⟩

/-- The pids in `cgroup.procs` of a service. -/
def cgroupProcs (w : World) (k : ℕ) : List ℕ :=
  (List.range w.sys.table.size).filterMap fun i => (w.sys.table.get i).bind fun p =>
    if p.status = .alive ∧ (w.moved i).head?.or p.tag.service = some k then some p.pid else none

/-- `assign_pid_to_cgroup` for the pid that the pid file names. -/
def assign (w : World) (k : ℕ) : LocalEvent → ℕ → List ℕ
  | .settle (some pid) => fun i =>
    if w.sys.table.holder pid = some i then k :: w.moved i else w.moved i
  | _ => w.moved

def setSup (w : World) (k : ℕ) (sup : Sup) : World :=
  { w with sups := Function.update w.sups k sup }

/-- `start_service_as`: fork a main process of service `k`. -/
def launch (w : World) (k pid : ℕ) (uid : Option ℕ) (origin : Origin) (sup : Sup) : Option World :=
  (w.sys.fork pid ⟨some k, uid, origin⟩ true).map fun sys => { w with sys }.setSup k sup

def step (cfg : Config) (w : World) : Event → Option World
  | .kernel e => (w.sys.step e).map fun sys => { w with sys }
  | .foreign pid child service uid =>
    (w.sys.fork pid ⟨service, uid, .other⟩ child).map fun sys => { w with sys }
  | .daemonize i pid =>
    match w.sys.table.get i with
    | some ⟨_, ⟨some k, uid, origin⟩, _, .alive⟩ =>
      if (origin = .start ∨ origin = .monitor) ∧ (cfg.services k).notifyType = .bgProcess ∧
          w.handedOver i = false then
        (w.sys.fork pid ⟨some k, uid, .daemon⟩ false).map fun sys =>
          { w with sys, handedOver := Function.update w.handedOver i true }
      else none
    | _ => none
  | .startLaunch k pid =>
    match (w.sups k).ctl with
    | .launching uid => w.launch k pid uid .start { w.sups k with ctl := .launched pid }
    | _ => none
  | .monitorLaunch k m pid =>
    match (w.sups k).monitors[m]? with
    | some (.launch _ uid) => w.launch k pid uid .monitor ((w.sups k).setMonitor m (.launched pid))
    | _ => none
  | .sup k e =>
    ((w.sups k).localStep (cfg.services k) cfg.host w.sys (w.cgroupProcs k) e).map fun sup =>
      { w with moved := w.assign k e }.setSup k sup

/-! Main processes. -/

/-- The process of this instance is alive and is a main process of service `k`: it was launched as
one and has not forked a daemon, or is such a daemon. -/
def isLiveMain (w : World) (k i : ℕ) : Bool :=
  match w.sys.table.get i with
  | some p => p.status == .alive && p.tag.service == some k && p.tag.origin != .other &&
      !w.handedOver i
  | none => false

def liveMains (w : World) (k : ℕ) : List ℕ :=
  (List.range w.sys.table.size).filter (w.isLiveMain k)

theorem isLiveMain_iff {w : World} {k i : ℕ} :
    w.isLiveMain k i ↔ ∃ p, w.sys.table.get i = some p ∧ p.status = .alive ∧
      p.tag.service = some k ∧ p.tag.origin ≠ .other ∧ w.handedOver i = false := by
  unfold isLiveMain
  cases w.sys.table.get i with
  | none => simp
  | some p => simp [and_assoc]

theorem mem_liveMains {w : World} {k i : ℕ} : i ∈ w.liveMains k ↔ w.isLiveMain k i := by
  simp only [liveMains, List.mem_filter, List.mem_range, and_iff_right_iff_imp]
  intro h
  obtain ⟨p, hp, -⟩ := isLiveMain_iff.1 h
  exact Table.lt_size_of_get hp

theorem liveMains_eq_nil {w : World} {k : ℕ} :
    w.liveMains k = [] ↔ ∀ i, w.isLiveMain k i = false := by
  rw [List.eq_nil_iff_forall_not_mem]
  simp [mem_liveMains]

theorem setSup_sups (w : World) (k k' : ℕ) (sup : Sup) :
    (w.setSup k sup).sups k' = if k' = k then sup else w.sups k' := by
  simp [setSup, Function.update_apply]

/-- A launch adds one live main process of its service. -/
theorem launch_cases {w w' : World} {k pid : ℕ} {uid : Option ℕ} {origin : Origin} {sup : Sup}
    (h : w.launch k pid uid origin sup = some w') :
    ∃ sys, w.sys.fork pid ⟨some k, uid, origin⟩ true = some sys ∧
      w' = { w with sys }.setSup k sup := by
  obtain ⟨sys, hsys, rfl⟩ := Option.map_eq_some_iff.1 h
  exact ⟨sys, hsys, rfl⟩

theorem step_startLaunch {cfg : Config} {w w' : World} {k pid : ℕ}
    (h : w.step cfg (.startLaunch k pid) = some w') :
    ∃ uid, (w.sups k).ctl = .launching uid ∧
      w.launch k pid uid .start { w.sups k with ctl := .launched pid } = some w' := by
  simp only [step] at h
  split at h
  · rename_i uid hctl
    exact ⟨uid, hctl, h⟩
  · cases h

theorem step_monitorLaunch {cfg : Config} {w w' : World} {k m pid : ℕ}
    (h : w.step cfg (.monitorLaunch k m pid) = some w') :
    ∃ old uid, (w.sups k).monitors[m]? = some (.launch old uid) ∧
      w.launch k pid uid .monitor ((w.sups k).setMonitor m (.launched pid)) = some w' := by
  simp only [step] at h
  split at h
  · rename_i old uid hm
    exact ⟨old, uid, hm, h⟩
  · cases h

theorem step_daemonize {cfg : Config} {w w' : World} {i pid : ℕ}
    (h : w.step cfg (.daemonize i pid) = some w') :
    ∃ p k sys, w.sys.table.get i = some p ∧ w.isLiveMain k i ∧ p.tag.service = some k ∧
      w.sys.fork pid ⟨some k, p.tag.uid, .daemon⟩ false = some sys ∧
      w' = { w with sys, handedOver := Function.update w.handedOver i true } := by
  simp only [step] at h
  split at h
  · rename_i pid' k uid origin child hi
    split at h
    · rename_i hcond
      obtain ⟨sys, hsys, rfl⟩ := Option.map_eq_some_iff.1 h
      refine ⟨_, k, sys, hi, isLiveMain_iff.2 ⟨_, hi, rfl, rfl, ?_, hcond.2.2⟩, rfl, hsys, rfl⟩
      rcases hcond.1 with horigin | horigin <;> simp [horigin]
    · cases h
  · cases h

/-- A step of the world is one of the kernel, forks one process or leaves the system alone. -/
theorem step_sys {cfg : Config} {w w' : World} {e : Event} (h : w.step cfg e = some w') :
    (∃ ke, e = .kernel ke ∧ w.sys.step ke = some w'.sys) ∨
    ((∃ pid tag child, w.sys.fork pid tag child = some w'.sys) ∧ ∀ ke, e ≠ .kernel ke) ∨
    (w'.sys = w.sys ∧ ∀ ke, e ≠ .kernel ke) := by
  cases e with
  | kernel ke =>
    obtain ⟨sys, hsys, rfl⟩ := Option.map_eq_some_iff.1 h
    exact .inl ⟨ke, rfl, hsys⟩
  | foreign pid child service uid =>
    obtain ⟨sys, hsys, rfl⟩ := Option.map_eq_some_iff.1 h
    exact .inr (.inl ⟨⟨_, _, _, hsys⟩, nofun⟩)
  | daemonize j pid =>
    obtain ⟨p, k, sys, -, -, -, hsys, rfl⟩ := step_daemonize h
    exact .inr (.inl ⟨⟨_, _, _, hsys⟩, nofun⟩)
  | startLaunch k pid =>
    obtain ⟨uid, -, hlaunch⟩ := step_startLaunch h
    obtain ⟨sys, hsys, rfl⟩ := launch_cases hlaunch
    exact .inr (.inl ⟨⟨_, _, _, hsys⟩, nofun⟩)
  | monitorLaunch k m pid =>
    obtain ⟨old, uid, -, hlaunch⟩ := step_monitorLaunch h
    obtain ⟨sys, hsys, rfl⟩ := launch_cases hlaunch
    exact .inr (.inl ⟨⟨_, _, _, hsys⟩, nofun⟩)
  | sup k le =>
    obtain ⟨sup', -, rfl⟩ := Option.map_eq_some_iff.1 h
    exact .inr (.inr ⟨rfl, nofun⟩)

/-- Only daemons take over, and only the local steps assign processes to cgroups. -/
theorem step_marks {cfg : Config} {w w' : World} {e : Event} (h : w.step cfg e = some w') :
    (w'.handedOver = w.handedOver ∨
      ∃ i pid, e = .daemonize i pid ∧ w'.handedOver = Function.update w.handedOver i true) ∧
    (w'.moved = w.moved ∨ ∃ k le, e = .sup k le ∧ w'.moved = w.assign k le) := by
  cases e with
  | kernel ke =>
    obtain ⟨sys, -, rfl⟩ := Option.map_eq_some_iff.1 h
    exact ⟨.inl rfl, .inl rfl⟩
  | foreign pid child service uid =>
    obtain ⟨sys, -, rfl⟩ := Option.map_eq_some_iff.1 h
    exact ⟨.inl rfl, .inl rfl⟩
  | daemonize j pid =>
    obtain ⟨p, k, sys, -, -, -, -, rfl⟩ := step_daemonize h
    exact ⟨.inr ⟨j, pid, rfl, rfl⟩, .inl rfl⟩
  | startLaunch k pid =>
    obtain ⟨uid, -, hlaunch⟩ := step_startLaunch h
    obtain ⟨sys, -, rfl⟩ := launch_cases hlaunch
    exact ⟨.inl rfl, .inl rfl⟩
  | monitorLaunch k m pid =>
    obtain ⟨old, uid, -, hlaunch⟩ := step_monitorLaunch h
    obtain ⟨sys, -, rfl⟩ := launch_cases hlaunch
    exact ⟨.inl rfl, .inl rfl⟩
  | sup k le =>
    obtain ⟨sup', -, rfl⟩ := Option.map_eq_some_iff.1 h
    exact ⟨.inl rfl, .inr ⟨k, le, rfl, rfl⟩⟩

theorem later_of_step {cfg : Config} {w w' : World} {e : Event} (h : w.step cfg e = some w') :
    w.sys.table.Later w'.sys.table := by
  rcases step_sys h with ⟨ke, -, hsys⟩ | ⟨⟨pid, tag, child, hsys⟩, -⟩ | ⟨hsys, -⟩
  · exact Pid1.later_step hsys
  · obtain ⟨t, ht, heq⟩ := Pid1.fork_eq_some hsys
    rw [heq]
    exact Table.later_fork ht
  · rw [hsys]
    exact .refl _

/-- The process that a step starts. -/
inductive Born (w : World) : Event → Proc Tag → Prop
  | start {k pid : ℕ} {uid : Option ℕ} : (w.sups k).ctl = .launching uid →
      Born w (.startLaunch k pid) ⟨pid, ⟨some k, uid, .start⟩, true, .alive⟩
  | monitor {k m pid old : ℕ} {uid : Option ℕ} :
      (w.sups k).monitors[m]? = some (.launch old uid) →
      Born w (.monitorLaunch k m pid) ⟨pid, ⟨some k, uid, .monitor⟩, true, .alive⟩
  | daemon {i pid k : ℕ} {p : Proc Tag} : w.sys.table.get i = some p → w.isLiveMain k i →
      p.tag.service = some k →
      Born w (.daemonize i pid) ⟨pid, ⟨some k, p.tag.uid, .daemon⟩, false, .alive⟩
  | foreign {pid : ℕ} {child : Bool} {service uid : Option ℕ} :
      Born w (.foreign pid child service uid) ⟨pid, ⟨service, uid, .other⟩, child, .alive⟩

/-- A process is an earlier one some time later, or has just been started. -/
theorem step_procs {cfg : Config} {w w' : World} {e : Event} (h : w.step cfg e = some w') {i : ℕ}
    {p' : Proc Tag} (hp' : w'.sys.table.get i = some p') :
    (∃ p, w.sys.table.get i = some p ∧ p.Later p') ∨ (i = w.sys.table.size ∧ Born w e p') := by
  have hfork : ∀ {pid : ℕ} {tag : Tag} {child : Bool} {sys : Pid1 Tag},
      w.sys.fork pid tag child = some sys → sys.table.get i = some p' →
      Born w e ⟨pid, tag, child, .alive⟩ →
      (∃ p, w.sys.table.get i = some p ∧ p.Later p') ∨ (i = w.sys.table.size ∧ Born w e p') := by
    intro pid tag child sys hsys hget hborn
    obtain ⟨t, ht, rfl⟩ := Pid1.fork_eq_some hsys
    rw [(Table.get_fork ht).2 i] at hget
    split at hget
    · rename_i hi
      cases hget
      exact .inr ⟨hi, hborn⟩
    · exact .inl ⟨p', hget, .refl p'⟩
  cases e with
  | kernel ke =>
    obtain ⟨sys, hsys, rfl⟩ := Option.map_eq_some_iff.1 h
    exact .inl (Pid1.get_of_step hsys hp')
  | foreign pid child service uid =>
    obtain ⟨sys, hsys, rfl⟩ := Option.map_eq_some_iff.1 h
    exact hfork hsys hp' .foreign
  | daemonize j pid =>
    obtain ⟨p, k, sys, hp, hlive, hk, hsys, rfl⟩ := step_daemonize h
    exact hfork hsys hp' (.daemon hp hlive hk)
  | startLaunch k pid =>
    obtain ⟨uid, hctl, hlaunch⟩ := step_startLaunch h
    obtain ⟨sys, hsys, rfl⟩ := launch_cases hlaunch
    exact hfork hsys hp' (.start hctl)
  | monitorLaunch k m pid =>
    obtain ⟨old, uid, hm, hlaunch⟩ := step_monitorLaunch h
    obtain ⟨sys, hsys, rfl⟩ := launch_cases hlaunch
    exact hfork hsys hp' (.monitor hm)
  | sup k le =>
    obtain ⟨sup', -, rfl⟩ := Option.map_eq_some_iff.1 h
    exact .inl ⟨p', hp', .refl p'⟩

end World

/-! What `stop` and a monitor can do. -/

/-- The pids of `cgroup.procs` still to be signalled. -/
def StopStage.pids : StopStage → List ℕ
  | .walk _ pids => pids
  | _ => []

theorem Sup.stopStep_cases {svc : Service} {sys : Pid1 Tag} {members : List ℕ} {sup sup' : Sup}
    {pid : ℕ} {choice : Bool} {stage : StopStage} (hctl : sup.ctl = .stop pid stage)
    (h : sup.stopStep svc sys members pid choice stage = sup') :
    sup' = sup.stopDone ∨ ∃ stage', sup' = { sup with ctl := .stop pid stage' } ∧
      ∀ q ∈ stage'.pids, q ∈ members ∨ q ∈ stage.pids := by
  have hstay : sup = { sup with ctl := .stop pid stage } := by rw [← hctl]
  have hnext : ∀ {stage'}, stage'.pids = [] → { sup with ctl := .stop pid stage' } = sup' →
      sup' = sup.stopDone ∨ ∃ stage', sup' = { sup with ctl := .stop pid stage' } ∧
        ∀ q ∈ stage'.pids, q ∈ members ∨ q ∈ stage.pids :=
    fun hnil heq => .inr ⟨_, heq.symm, by simp [hnil]⟩
  have hsame : sup = sup' →
      sup' = sup.stopDone ∨ ∃ stage', sup' = { sup with ctl := .stop pid stage' } ∧
        ∀ q ∈ stage'.pids, q ∈ members ∨ q ∈ stage.pids :=
    fun heq => .inr ⟨stage, heq ▸ hstay, fun q hq => .inr hq⟩
  have hafter : (afterWatchdog svc).pids = [] := by
    unfold afterWatchdog
    split <;> rfl
  cases stage with
  | abrt => exact hnext rfl h
  | abrtPoll =>
    simp only [stopStep] at h
    split at h
    · exact hnext hafter h
    · split at h
      · exact hsame h
      · exact .inl h.symm
  | command =>
    simp only [stopStep] at h
    split at h
    · exact .inl h.symm
    · exact hnext rfl h
  | term =>
    simp only [stopStep] at h
    split at h
    · exact hnext rfl h
    · exact .inl h.symm
  | termPoll =>
    simp only [stopStep] at h
    split at h
    · exact hnext rfl h
    · split at h
      · exact hsame h
      · exact .inl h.symm
  | cgroupKill => exact hnext rfl h
  | kill => exact hnext rfl h
  | killWait => exact hnext rfl h
  | walkRead last =>
    refine .inr ⟨_, h.symm, fun q hq => .inl ?_⟩
    cases choice with
    | false => cases hq
    | true => exact hq
  | walk last pids =>
    cases pids with
    | cons q rest => exact .inr ⟨_, h.symm, fun r hr => .inr (List.mem_cons_of_mem q hr)⟩
    | nil =>
      cases last with
      | false => exact hnext rfl h
      | true => exact .inl h.symm

/-- The moves of a monitor other than a successful launch. -/
inductive Moves (svc : Service) (host : Host) (sys : Pid1 Tag) (sup : Sup) :
    Monitor → Monitor → Prop
  | load : Moves svc host sys sup .load (.wait (sup.pid.getD 4294967295) .poll)
  | wait {pid : ℕ} {pc pc' : WaitPc} : sys.waitForExit pid pc = some pc' →
      Moves svc host sys sup (.wait pid pc) (.wait pid pc')
  | exited {pid : ℕ} {code : ℤ} :
      Moves svc host sys sup (.wait pid (.returned code)) (.check pid code)
  | suppressed {pid : ℕ} {code : ℤ} : Moves svc host sys sup (.check pid code) .dead
  | proceed {pid : ℕ} {code : ℤ} : sup.stopRequested = false →
      Moves svc host sys sup (.check pid code) (.decide pid code)
  | giveUp {pid : ℕ} {code : ℤ} : Moves svc host sys sup (.decide pid code) .dead
  | restart {pid : ℕ} {code : ℤ} : Sup.restarts svc code →
      Moves svc host sys sup (.decide pid code) (.sleep pid code)
  | chain {pid : ℕ} {code : ℤ} : Moves svc host sys sup (.sleep pid code) .dead
  | awake {pid : ℕ} {code : ℤ} : Sup.chains svc code = false →
      Moves svc host sys sup (.sleep pid code) (.resolve pid)
  | resolved {pid : ℕ} {l : ServiceLaunch} : restartLaunch host none svc = .ok l →
      Moves svc host sys sup (.resolve pid) (.launch pid l.uid)
  | retry {pid : ℕ} {message : String} : restartLaunch host none svc = .error (.retry message) →
      Moves svc host sys sup (.resolve pid) (.wait pid .poll)
  | invalid {pid : ℕ} : Moves svc host sys sup (.resolve pid) .dead
  | fails {pid : ℕ} {uid : Option ℕ} : Moves svc host sys sup (.launch pid uid) (.wait pid .poll)
  | store {pid : ℕ} : Moves svc host sys sup (.launched pid) (.stored pid)
  | runs {pid : ℕ} : Moves svc host sys sup (.stored pid) (.wait pid .poll)

/-- A monitor writes the pid cell after a launch, and `running`; nothing else is shared. -/
theorem Sup.monitorStep_cases {svc : Service} {host : Host} {sys : Pid1 Tag} {sup sup' : Sup}
    {m : ℕ} {choice : Bool} (h : sup.monitorStep svc host sys m choice = some sup') :
    ∃ mon mon' pid running, sup.monitors[m]? = some mon ∧ Moves svc host sys sup mon mon' ∧
      sup' = { sup with monitors := sup.monitors.set m mon', pid, running } ∧
      (pid = sup.pid ∨ ∃ n, mon = .launched n ∧ mon' = .stored n ∧ pid = some n) := by
  unfold monitorStep at h
  split at h
  · cases h
  · cases h
  · rename_i hm
    cases h
    exact ⟨_, _, sup.pid, sup.running, hm, .load, rfl, .inl rfl⟩
  · rename_i pid code hm
    cases h
    exact ⟨_, _, sup.pid, false, hm, .exited, rfl, .inl rfl⟩
  · rename_i pid pc _ hm
    obtain ⟨pc', hpc', rfl⟩ := Option.map_eq_some_iff.1 h
    exact ⟨_, _, sup.pid, sup.running, hm, .wait hpc', rfl, .inl rfl⟩
  · rename_i pid code hm
    cases h
    refine ⟨_, _, sup.pid, sup.running, hm, ?_, rfl, .inl rfl⟩
    split
    · exact .suppressed
    · rename_i hstop
      exact .proceed (by simpa using hstop)
  · rename_i pid code hm
    split at h
    · cases h
      exact ⟨_, _, sup.pid, sup.running, hm, .giveUp, rfl, .inl rfl⟩
    · cases h
      refine ⟨_, _, sup.pid, sup.running, hm, ?_, rfl, .inl rfl⟩
      split
      · rename_i hrestarts
        exact .restart hrestarts
      · exact .giveUp
  · rename_i pid code hm
    cases h
    refine ⟨_, _, sup.pid, sup.running, hm, ?_, rfl, .inl rfl⟩
    split
    · exact .chain
    · rename_i hchains
      exact .awake (by simpa using hchains)
  · rename_i pid hm
    split at h
    · rename_i l hl
      cases h
      exact ⟨_, _, sup.pid, sup.running, hm, .resolved hl, rfl, .inl rfl⟩
    · rename_i message hretry
      cases h
      exact ⟨_, _, sup.pid, sup.running, hm, .retry hretry, rfl, .inl rfl⟩
    · cases h
      exact ⟨_, _, sup.pid, sup.running, hm, .invalid, rfl, .inl rfl⟩
  · rename_i pid uid hm
    split at h
    · cases h
      exact ⟨_, _, sup.pid, sup.running, hm, .fails, rfl, .inl rfl⟩
    · cases h
  · rename_i pid hm
    cases h
    exact ⟨_, _, some pid, sup.running, hm, .store, rfl, .inr ⟨pid, rfl, rfl, rfl⟩⟩
  · rename_i pid hm
    cases h
    exact ⟨_, _, sup.pid, true, hm, .runs, rfl, .inl rfl⟩

/-- `start` has cleared the flags and not yet launched. -/
def Ctl.launchAhead : Ctl → Bool
  | .starting | .launching _ => true
  | _ => false

/-- All that a local event can do to a supervisor. -/
inductive Acts (svc : Service) (host : Host) (sys : Pid1 Tag) (members : List ℕ) (sup : Sup) :
    LocalEvent → Sup → Prop
  | callStart : sup.ctl = .idle → sup.running = false →
      Acts svc host sys members sup .callStart
        { sup with stopRequested := false, running := false, stopped := false, ctl := .starting }
  | giveUp {e : LocalEvent} : e ≠ .callStop → sup.ctl.launchAhead →
      Acts svc host sys members sup e { sup with ctl := .idle }
  | resolve {l : ServiceLaunch} : sup.ctl = .starting → startLaunch host none svc = .ok l →
      Acts svc host sys members sup .resolve { sup with ctl := .launching l.uid }
  | storePid {pid : ℕ} : sup.ctl = .launched pid →
      Acts svc host sys members sup .storePid { sup with pid := some pid, ctl := .stored pid }
  | setRunning {pid : ℕ} : sup.ctl = .stored pid →
      Acts svc host sys members sup .setRunning { sup with running := true, ctl := .up pid }
  | settle {pid : ℕ} {named : Option ℕ} {ctl : Ctl} : sup.ctl = .up pid →
      ctl = .oneshot pid .poll ∨ ctl = .ready →
      Acts svc host sys members sup (.settle named)
        { sup with ctl, pid := named.or sup.pid }
  | oneshotWait {pid : ℕ} {pc pc' : WaitPc} : sup.ctl = .oneshot pid pc →
      Acts svc host sys members sup .wait { sup with ctl := .oneshot pid pc' }
  | oneshotDone {pid : ℕ} {pc : WaitPc} : sup.ctl = .oneshot pid pc →
      Acts svc host sys members sup .wait { sup with running := false, ctl := .idle }
  | spawn {spawned : Bool} {monitors : List Monitor} {watchers : ℕ} : sup.ctl = .ready →
      monitors = sup.monitors ∨ monitors = sup.monitors ++ [.load] →
      Acts svc host sys members sup (.spawnThreads spawned)
        { sup with ctl := .idle, monitors, watchers }
  | callStop : sup.ctl = .idle →
      Acts svc host sys members sup .callStop { sup with stopRequested := true, ctl := .stopping }
  | stopNone : sup.ctl = .stopping →
      Acts svc host sys members sup .stopLoad { sup with ctl := .idle, stopped := true }
  | stopLoad {pid : ℕ} {stage : StopStage} : sup.ctl = .stopping → sup.pid = some pid →
      stage.pids = [] →
      Acts svc host sys members sup .stopLoad { sup with ctl := .stop pid stage }
  | stopStep {choice : Bool} {pid : ℕ} {stage stage' : StopStage} : sup.ctl = .stop pid stage →
      (∀ q ∈ stage'.pids, q ∈ members ∨ q ∈ stage.pids) →
      Acts svc host sys members sup (.stopStep choice) { sup with ctl := .stop pid stage' }
  | stopDone {choice : Bool} {pid : ℕ} {stage : StopStage} : sup.ctl = .stop pid stage →
      Acts svc host sys members sup (.stopStep choice) sup.stopDone
  | callKill {pid : ℕ} : sup.ctl = .idle → sup.pid = some pid →
      Acts svc host sys members sup .callKill { sup with ctl := .kill pid }
  | callSignal {pid : ℕ} : sup.ctl = .idle → sup.pid = some pid →
      Acts svc host sys members sup .callSignal { sup with ctl := .signal pid }
  | signal {pid : ℕ} : sup.ctl = .kill pid ∨ sup.ctl = .signal pid →
      Acts svc host sys members sup .signal { sup with ctl := .idle }
  | monitor {m : ℕ} {choice : Bool} {mon mon' : Monitor} {pid : Option ℕ} {running : Bool} :
      sup.monitors[m]? = some mon → Moves svc host sys sup mon mon' →
      (pid = sup.pid ∨ ∃ n, mon = .launched n ∧ mon' = .stored n ∧ pid = some n) →
      Acts svc host sys members sup (.monitor m choice)
        { sup with monitors := sup.monitors.set m mon', pid, running }
  | watcher {clears : Bool} {running : Bool} {watchers : ℕ} :
      Acts svc host sys members sup (.watcher clears) { sup with running, watchers }

theorem Sup.localStep_acts {svc : Service} {host : Host} {sys : Pid1 Tag} {members : List ℕ}
    {sup sup' : Sup} {e : LocalEvent} (h : sup.localStep svc host sys members e = some sup') :
    Acts svc host sys members sup e sup' := by
  cases e with
  | callStart =>
    simp only [localStep] at h
    split at h
    · rename_i hcond
      cases h
      exact .callStart hcond.1 hcond.2
    · cases h
  | startReturn =>
    simp only [localStep] at h
    split at h
    · rename_i hctl
      cases h
      exact .giveUp nofun (by rw [hctl]; rfl)
    · cases h
  | resolve =>
    simp only [localStep] at h
    split at h
    · rename_i hctl
      split at h
      · rename_i l hl
        cases h
        exact .resolve hctl hl
      · cases h
        exact .giveUp nofun (by rw [hctl]; rfl)
    · cases h
  | launchFails =>
    simp only [localStep] at h
    split at h
    · rename_i uid hctl
      cases h
      exact .giveUp nofun (by rw [hctl]; rfl)
    · cases h
  | storePid =>
    simp only [localStep] at h
    split at h
    · rename_i pid hctl
      cases h
      exact .storePid hctl
    · cases h
  | setRunning =>
    simp only [localStep] at h
    split at h
    · rename_i pid hctl
      cases h
      exact .setRunning hctl
    · cases h
  | settle named =>
    simp only [localStep] at h
    split at h
    · rename_i pid hctl
      have hnext : ∀ b : Bool, (if b then Ctl.oneshot pid .poll else .ready) = .oneshot pid .poll ∨
          (if b then Ctl.oneshot pid .poll else .ready) = .ready := by
        intro b
        cases b
        · exact .inr rfl
        · exact .inl rfl
      unfold settle at h
      cases named with
      | none =>
        cases h
        exact .settle hctl (hnext svc.oneshot)
      | some daemon =>
        dsimp only at h
        split at h
        · cases h
          exact .settle hctl (hnext svc.oneshot)
        · cases h
    · cases h
  | wait =>
    simp only [localStep] at h
    split at h
    · rename_i pid code hctl
      cases h
      exact .oneshotDone hctl
    · rename_i pid pc _ hctl
      obtain ⟨pc', -, rfl⟩ := Option.map_eq_some_iff.1 h
      exact .oneshotWait hctl
    · cases h
  | spawnThreads spawned =>
    simp only [localStep] at h
    split at h
    · rename_i hctl
      cases h
      unfold spawnThreads
      dsimp only
      split
      · exact .spawn hctl (.inl rfl)
      · split
        · exact .spawn hctl (.inr rfl)
        · exact .spawn hctl (.inl rfl)
    · cases h
  | callStop =>
    simp only [localStep] at h
    split at h
    · rename_i hctl
      cases h
      exact .callStop hctl
    · cases h
  | stopLoad =>
    simp only [localStep] at h
    split at h
    · rename_i hctl
      split at h
      · cases h
        exact .stopNone hctl
      · rename_i pid hpid
        cases h
        refine .stopLoad hctl hpid ?_
        unfold firstStage afterWatchdog
        split
        · rfl
        · split <;> rfl
    · cases h
  | stopStep choice =>
    simp only [localStep] at h
    split at h
    · rename_i pid stage hctl
      rcases stopStep_cases hctl (Option.some.inj h) with rfl | ⟨stage', rfl, hpids⟩
      · exact .stopDone hctl
      · exact .stopStep hctl hpids
    · cases h
  | callKill =>
    simp only [localStep] at h
    split at h
    · rename_i hctl
      obtain ⟨pid, hpid, rfl⟩ := Option.map_eq_some_iff.1 h
      exact .callKill hctl hpid
    · cases h
  | callSignal =>
    simp only [localStep] at h
    split at h
    · rename_i hctl
      obtain ⟨pid, hpid, rfl⟩ := Option.map_eq_some_iff.1 h
      exact .callSignal hctl hpid
    · cases h
  | signal =>
    simp only [localStep] at h
    split at h
    · rename_i pid hctl
      cases h
      exact .signal (.inl hctl)
    · rename_i pid hctl
      cases h
      exact .signal (.inr hctl)
    · cases h
  | monitor m choice =>
    obtain ⟨mon, mon', pid, running, hm, hmoves, rfl, hpid⟩ := monitorStep_cases h
    exact .monitor hm hmoves hpid
  | watcher clears =>
    simp only [localStep] at h
    split at h
    · cases h
      exact .watcher
    · cases h

/-- What one step of the world can do to one supervisor. -/
theorem World.step_sups {cfg : Config} {w w' : World} {e : Event} (h : w.step cfg e = some w')
    (k : ℕ) :
    (w'.sups k = w.sups k ∧ (∀ pid, e ≠ .startLaunch k pid) ∧ ∀ m pid, e ≠ .monitorLaunch k m pid) ∨
    (∃ pid uid, e = .startLaunch k pid ∧ (w.sups k).ctl = .launching uid ∧
      w'.sups k = { w.sups k with ctl := .launched pid }) ∨
    (∃ m pid old uid, e = .monitorLaunch k m pid ∧
      (w.sups k).monitors[m]? = some (.launch old uid) ∧
      w'.sups k = (w.sups k).setMonitor m (.launched pid)) ∨
    (∃ le, e = .sup k le ∧
      Acts (cfg.services k) cfg.host w.sys (w.cgroupProcs k) (w.sups k) le (w'.sups k)) := by
  cases e with
  | kernel ke =>
    obtain ⟨sys, -, rfl⟩ := Option.map_eq_some_iff.1 h
    exact .inl ⟨rfl, nofun, nofun⟩
  | foreign pid child service uid =>
    obtain ⟨sys, -, rfl⟩ := Option.map_eq_some_iff.1 h
    exact .inl ⟨rfl, nofun, nofun⟩
  | daemonize i pid =>
    obtain ⟨p, k', sys, -, -, -, -, rfl⟩ := step_daemonize h
    exact .inl ⟨rfl, nofun, nofun⟩
  | startLaunch k' pid =>
    obtain ⟨uid, hctl, hlaunch⟩ := step_startLaunch h
    obtain ⟨sys, -, rfl⟩ := launch_cases hlaunch
    rw [setSup_sups]
    split
    · rename_i hk
      subst hk
      exact .inr (.inl ⟨pid, uid, rfl, hctl, rfl⟩)
    · rename_i hk
      refine .inl ⟨rfl, fun pid' heq => ?_, nofun⟩
      cases heq
      exact hk rfl
  | monitorLaunch k' m pid =>
    obtain ⟨old, uid, hm, hlaunch⟩ := step_monitorLaunch h
    obtain ⟨sys, -, rfl⟩ := launch_cases hlaunch
    rw [setSup_sups]
    split
    · rename_i hk
      subst hk
      exact .inr (.inr (.inl ⟨m, pid, old, uid, rfl, hm, rfl⟩))
    · rename_i hk
      refine .inl ⟨rfl, nofun, fun m' pid' heq => ?_⟩
      cases heq
      exact hk rfl
  | sup k' le =>
    obtain ⟨sup', hlocal, rfl⟩ := Option.map_eq_some_iff.1 h
    rw [setSup_sups]
    split
    · rename_i hk
      subst hk
      exact .inr (.inr (.inr ⟨le, rfl, Sup.localStep_acts hlocal⟩))
    · exact .inl ⟨rfl, nofun, nofun⟩

end Quantra.Supervisor
