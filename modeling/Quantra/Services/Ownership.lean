import Quantra.Services.Lifecycle

/-! The pids that `stop` and the handlers of Kill and Signal send signals to. -/
namespace Quantra.Supervisor
open ProcTable Quantra.Services Quantra.Signals

/-- The pid that a step sends a signal to. -/
def Sup.signals (sup : Sup) : LocalEvent → Option ℕ
  | .stopStep _ =>
    match sup.ctl with
    | .stop pid .abrt | .stop pid .term | .stop pid .kill => some pid
    | .stop _ (.walk _ (pid :: _)) => some pid
    | _ => none
  | .signal =>
    match sup.ctl with
    | .kill pid | .signal pid => some pid
    | _ => none
  | _ => none

/-- The pid that `start` has read from the pid file. -/
def LocalEvent.named : LocalEvent → Option ℕ
  | .settle named => named
  | _ => none

/-- The call is in one of the two walks through the service's cgroup that end `stop`. -/
def Ctl.walks : Ctl → Bool
  | .stop _ (.walk _ _) => true
  | _ => false

/-- The pid that the call has read from the pid cell. -/
def Ctl.readPid : Ctl → Option ℕ
  | .stop pid _ | .kill pid | .signal pid => some pid
  | _ => none

def Ctl.walkPids : Ctl → List ℕ
  | .stop _ stage => stage.pids
  | _ => []

/-- Pids that the supervisor has noted are pids of main processes, and those to be walked through
are of members of the cgroup. -/
structure NotesOwn (main member : ℕ → Prop) (sup : Sup) : Prop where
  cell : ∀ pid ∈ sup.pid, main pid
  launch : ∀ pid, sup.ctl = .launched pid → main pid
  read : ∀ pid ∈ sup.ctl.readPid, main pid
  walk : ∀ pid ∈ sup.ctl.walkPids, member pid
  monitors : ∀ pid, .launched pid ∈ sup.monitors → main pid

theorem NotesOwn.mono {main main' member member' : ℕ → Prop} {sup : Sup}
    (h : NotesOwn main member sup) (hmain : ∀ pid, main pid → main' pid)
    (hmember : ∀ pid, member pid → member' pid) : NotesOwn main' member' sup :=
  ⟨fun pid hpid => hmain pid (h.cell pid hpid), fun pid hpid => hmain pid (h.launch pid hpid),
    fun pid hpid => hmain pid (h.read pid hpid), fun pid hpid => hmember pid (h.walk pid hpid),
    fun pid hpid => hmain pid (h.monitors pid hpid)⟩

theorem NotesOwn.setMonitor {main member : ℕ → Prop} {sup : Sup}
    (h : NotesOwn main member sup) {m : ℕ} {mon' : Monitor}
    (hmon' : ∀ pid, mon' = .launched pid → main pid) :
    NotesOwn main member (sup.setMonitor m mon') := by
  refine ⟨h.cell, h.launch, h.read, h.walk, fun pid hmem => ?_⟩
  rcases List.mem_or_eq_of_mem_set hmem with hold | hnew
  · exact h.monitors pid hold
  · exact hmon' pid hnew.symm

theorem NotesOwn.acts {svc : Service} {host : Host} {sys : Pid1 Tag} {members : List ℕ}
    {main member : ℕ → Prop} {sup sup' : Sup} {e : LocalEvent}
    (h : NotesOwn main member sup) (hacts : Acts svc host sys members sup e sup')
    (hmembers : ∀ pid ∈ members, member pid) (hnamed : ∀ pid, e = .settle (some pid) → main pid) :
    NotesOwn main member sup' := by
  cases hacts with
  | callStart | giveUp | resolve | setRunning | oneshotWait | oneshotDone | callStop | stopNone
  | stopDone | signal => exact ⟨h.cell, nofun, nofun, nofun, h.monitors⟩
  | storePid hctl =>
    refine ⟨fun pid hpid => ?_, nofun, nofun, nofun, h.monitors⟩
    cases hpid
    exact h.launch _ hctl
  | settle hctl hnext =>
    rename_i pid named ctl
    have hcell : ∀ q ∈ named.or sup.pid, main q := by
      intro q hq
      cases named with
      | none => exact h.cell q hq
      | some daemon =>
        cases hq
        exact hnamed q rfl
    rcases hnext with rfl | rfl <;> exact ⟨hcell, nofun, nofun, nofun, h.monitors⟩
  | spawn hctl hmonitors =>
    refine ⟨h.cell, nofun, nofun, nofun, fun pid hmem => ?_⟩
    rcases hmonitors with rfl | rfl
    · exact h.monitors pid hmem
    · rcases List.mem_append.1 hmem with hold | hnew
      · exact h.monitors pid hold
      · cases List.mem_singleton.1 hnew
  | stopLoad hctl hpid hnil =>
    refine ⟨h.cell, nofun, fun pid hread => ?_, fun pid hwalk => ?_, h.monitors⟩
    · cases hread
      exact h.cell _ hpid
    · simp only [Ctl.walkPids, hnil] at hwalk
      cases hwalk
  | stopStep hctl hpids =>
    have hread := h.read
    have hwalk := h.walk
    rw [hctl] at hread hwalk
    refine ⟨h.cell, nofun, hread, fun pid hmem => ?_, h.monitors⟩
    rcases hpids pid hmem with hnew | hold
    · exact hmembers pid hnew
    · exact hwalk pid hold
  | callKill hctl hpid | callSignal hctl hpid =>
    refine ⟨h.cell, nofun, fun pid hread => ?_, nofun, h.monitors⟩
    cases hread
    exact h.cell _ hpid
  | monitor hm hmoves hpid =>
    rename_i m choice mon mon' pid running
    have hset : NotesOwn main member (sup.setMonitor m mon') := by
      refine h.setMonitor fun q heq => ?_
      subst heq
      cases hmoves
    refine ⟨fun q hq => ?_, h.launch, h.read, h.walk, hset.monitors⟩
    rcases hpid with rfl | ⟨n, rfl, -, rfl⟩
    · exact h.cell q hq
    · cases hq
      exact h.monitors q (List.mem_of_getElem? hm)
  | watcher => exact ⟨h.cell, h.launch, h.read, h.walk, h.monitors⟩

/-- A signal goes to the pid that was read from the cell, or in the walks to a member. -/
theorem NotesOwn.signals {main member : ℕ → Prop} {sup : Sup} (h : NotesOwn main member sup)
    {e : LocalEvent} {pid : ℕ} (he : sup.signals e = some pid) :
    if sup.ctl.walks then member pid else main pid := by
  have hread := h.read
  have hwalk := h.walk
  cases e with
  | stopStep choice =>
    cases hctl : sup.ctl with
    | stop q stage =>
      rw [hctl] at hread hwalk
      cases stage with
      | abrt | term | kill =>
        simp only [Sup.signals, hctl, Option.some.injEq] at he
        subst he
        exact hread q rfl
      | walk last pids =>
        cases pids with
        | nil => simp [Sup.signals, hctl] at he
        | cons r rest =>
          simp only [Sup.signals, hctl, Option.some.injEq] at he
          subst he
          exact hwalk r List.mem_cons_self
      | _ => simp [Sup.signals, hctl] at he
    | _ => simp [Sup.signals, hctl] at he
  | signal =>
    cases hctl : sup.ctl with
    | kill q | signal q =>
      rw [hctl] at hread
      simp only [Sup.signals, hctl, Option.some.injEq] at he
      subst he
      exact hread q rfl
    | _ => simp [Sup.signals, hctl] at he
  | _ => cases he

namespace World

/-- The process was launched as a main process of service `k`, or is one that its pid file has
named. -/
def isMain (w : World) (k i : ℕ) (p : Proc Tag) : Bool :=
  p.tag.service == some k && (p.tag.origin == .start || p.tag.origin == .monitor) ||
    (w.moved i).contains k

/-- The process is, or was, in the cgroup of service `k`. -/
def isMember (w : World) (k i : ℕ) (p : Proc Tag) : Bool :=
  p.tag.service == some k || (w.moved i).contains k

/-- What a pid noted for service `k` is taken for. -/
def owns (w : World) (k i : ℕ) (p : Proc Tag) : Bool :=
  if (w.sups k).ctl.walks then w.isMember k i p else w.isMain k i p

/-- One of the processes that `who` picks has, or had, this pid. -/
def Noted (w : World) (who : ℕ → Proc Tag → Bool) (pid : ℕ) : Prop :=
  ∃ i p, w.sys.table.get i = some p ∧ p.pid = pid ∧ who i p

/-- The last of the processes that `who` picks with this pid: the one that it was noted for. -/
def lastWith (w : World) (who : ℕ → Proc Tag → Bool) (pid : ℕ) : Option ℕ :=
  (List.range w.sys.table.size).reverse.find? fun i =>
    (w.sys.table.get i).any fun p => p.pid == pid && who i p

def unreaped (w : World) (i : ℕ) : Bool := (w.sys.table.get i).any (·.held)

/-- No signal is sent once the process whose pid was read for it has been reaped, and pid files
name processes that are there. -/
def InTime (w : World) : Event → Prop
  | .sup k e => (∀ pid ∈ e.named, w.sys.procExists pid) ∧
      ∀ pid ∈ (w.sups k).signals e, ∀ i ∈ w.lastWith (w.owns k) pid, w.unreaped i
  | _ => True

instance (w : World) (e : Event) : Decidable (w.InTime e) :=
  match e with
  | .sup k e => inferInstanceAs (Decidable ((∀ pid ∈ e.named, w.sys.procExists pid) ∧
      ∀ pid ∈ (w.sups k).signals e, ∀ i ∈ w.lastWith (w.owns k) pid, w.unreaped i))
  | .kernel _ | .foreign _ _ _ _ | .daemonize _ _ | .startLaunch _ _ | .monitorLaunch _ _ _ =>
    inferInstanceAs (Decidable True)

/-- The process that a signal reaches is at that moment a main process of the service, or in the
walks at the end of `stop` a process of its cgroup. -/
def SignalsOwn (w : World) : Event → Prop
  | .sup k e => ∀ pid ∈ (w.sups k).signals e, ∃ i p, w.sys.table.holder pid = some i ∧
      w.sys.table.get i = some p ∧ p.held ∧ w.owns k i p
  | _ => True

theorem owns_of_walks {w : World} {k : ℕ} (h : (w.sups k).ctl.walks) : w.owns k = w.isMember k := by
  funext i p
  rw [owns, if_pos h]

theorem owns_of_not_walks {w : World} {k : ℕ} (h : ¬ (w.sups k).ctl.walks) :
    w.owns k = w.isMain k := by
  funext i p
  rw [owns, if_neg h]

theorem exists_lastWith {w : World} {who : ℕ → Proc Tag → Bool} {pid : ℕ} (h : w.Noted who pid) :
    ∃ i p, w.lastWith who pid = some i ∧ w.sys.table.get i = some p ∧ p.pid = pid ∧ who i p := by
  obtain ⟨j, q, hq, hqpid, hwho⟩ := h
  cases hlast : w.lastWith who pid with
  | none =>
    have hmem : j ∈ (List.range w.sys.table.size).reverse :=
      List.mem_reverse.2 (List.mem_range.2 (Table.lt_size_of_get hq))
    have hnot := List.find?_eq_none.1 hlast j hmem
    simp [hq, hqpid, hwho] at hnot
  | some i =>
    have hcond := List.find?_some hlast
    obtain ⟨p, hp, hboth⟩ := (Option.any_eq_true _ _).1 hcond
    rw [Bool.and_eq_true, beq_iff_eq] at hboth
    exact ⟨i, p, rfl, hp, hboth⟩

theorem moved_of_step {cfg : Config} {w w' : World} {e : Event} (h : w.step cfg e = some w')
    {k i : ℕ} (hk : k ∈ w.moved i) : k ∈ w'.moved i := by
  rcases (step_marks h).2 with hsame | ⟨k', le, -, hassign⟩
  · rw [hsame]
    exact hk
  · rw [hassign]
    unfold assign
    split
    · split
      · exact List.mem_cons_of_mem k' hk
      · exact hk
    · exact hk

/-- What a process was taken for it stays. -/
theorem noted_of_step {cfg : Config} {w w' : World} {e : Event} (hstep : w.step cfg e = some w')
    {who who' : ℕ → Proc Tag → Bool} {pid : ℕ}
    (hwho : ∀ i p p', p.Later p' → who i p → who' i p') (h : w.Noted who pid) :
    w'.Noted who' pid := by
  obtain ⟨i, p, hp, hpid, hi⟩ := h
  obtain ⟨p', hp', hlater⟩ := later_of_step hstep i p hp
  exact ⟨i, p', hp', hlater.pid.trans hpid, hwho i p p' hlater hi⟩

theorem noted_main_of_step {cfg : Config} {w w' : World} {e : Event}
    (hstep : w.step cfg e = some w') {k pid : ℕ} (h : w.Noted (w.isMain k) pid) :
    w'.Noted (w'.isMain k) pid := by
  refine noted_of_step hstep (fun i p p' hlater hmain => ?_) h
  simp only [isMain, Bool.or_eq_true, List.contains_iff_mem] at hmain ⊢
  rw [hlater.tag]
  exact hmain.imp_right (moved_of_step hstep)

theorem noted_member_of_step {cfg : Config} {w w' : World} {e : Event}
    (hstep : w.step cfg e = some w') {k pid : ℕ} (h : w.Noted (w.isMember k) pid) :
    w'.Noted (w'.isMember k) pid := by
  refine noted_of_step hstep (fun i p p' hlater hmember => ?_) h
  simp only [isMember, Bool.or_eq_true, List.contains_iff_mem] at hmember ⊢
  rw [hlater.tag]
  exact hmember.imp_right (moved_of_step hstep)

theorem noted_of_launch {w w' : World} {k pid : ℕ} {uid : Option ℕ} {origin : Origin} {sup : Sup}
    (h : w.launch k pid uid origin sup = some w') (horigin : origin = .start ∨ origin = .monitor) :
    w'.Noted (w'.isMain k) pid := by
  obtain ⟨sys, hsys, rfl⟩ := launch_cases h
  refine ⟨_, _, Pid1.get_forked hsys, rfl, ?_⟩
  rcases horigin with rfl | rfl <;> simp [isMain]

theorem noted_of_cgroupProcs {w : World} {k pid : ℕ} (h : pid ∈ w.cgroupProcs k) :
    w.Noted (w.isMember k) pid := by
  obtain ⟨i, -, hi⟩ := List.mem_filterMap.1 h
  obtain ⟨p, hp, hcond⟩ := Option.bind_eq_some_iff.1 hi
  split at hcond
  · rename_i hmember
    cases hcond
    refine ⟨i, p, hp, rfl, ?_⟩
    simp only [isMember, Bool.or_eq_true, beq_iff_eq, List.contains_iff_mem]
    rcases Option.or_eq_some_iff.1 hmember.2 with hmoved | ⟨-, hservice⟩
    · exact .inr (List.mem_of_head? hmoved)
    · exact .inl hservice
  · cases hcond

/-- The process that the pid file names becomes a main process of the service. -/
theorem noted_of_settle {cfg : Config} {w w' : World} {k pid : ℕ}
    (hstep : w.step cfg (.sup k (.settle (some pid))) = some w') (hexists : w.sys.procExists pid) :
    w'.Noted (w'.isMain k) pid := by
  obtain ⟨p, hmem, hheld, rfl⟩ : ∃ p ∈ w.sys.table.procs, p.held ∧ p.pid = pid := by
    simpa [Pid1.procExists, Table.inUse] using hexists
  obtain ⟨i, hi⟩ := List.mem_iff_getElem?.1 hmem
  obtain ⟨sup', -, rfl⟩ := Option.map_eq_some_iff.1 hstep
  refine ⟨i, p, hi, rfl, ?_⟩
  have hmoved : k ∈ w.assign k (.settle (some p.pid)) i := by
    simp [assign, Table.holder_of_get hi hheld]
  simp only [isMain, Bool.or_eq_true, List.contains_iff_mem]
  exact .inr hmoved

theorem notesOwn_step {cfg : Config} {w w' : World} {e : Event}
    (h : ∀ k, NotesOwn (w.Noted (w.isMain k)) (w.Noted (w.isMember k)) (w.sups k))
    (hok : w.InTime e) (hstep : w.step cfg e = some w') (k : ℕ) :
    NotesOwn (w'.Noted (w'.isMain k)) (w'.Noted (w'.isMember k)) (w'.sups k) := by
  have hnow := (h k).mono (fun pid => noted_main_of_step hstep) fun pid => noted_member_of_step hstep
  rcases step_sups hstep k with ⟨hsame, -⟩ | ⟨pid, uid, rfl, -, hsup⟩ |
    ⟨m, pid, old, uid, rfl, -, hsup⟩ | ⟨le, rfl, hacts⟩
  · rw [hsame]
    exact hnow
  · rw [hsup]
    obtain ⟨uid', -, hlaunch⟩ := step_startLaunch hstep
    refine ⟨hnow.cell, fun q hq => ?_, nofun, nofun, hnow.monitors⟩
    cases hq
    exact noted_of_launch hlaunch (.inl rfl)
  · rw [hsup]
    obtain ⟨old', uid', -, hlaunch⟩ := step_monitorLaunch hstep
    refine hnow.setMonitor fun q hq => ?_
    cases hq
    exact noted_of_launch hlaunch (.inr rfl)
  · refine hnow.acts hacts (fun pid hpid => ?_) fun pid hnamed => ?_
    · exact noted_member_of_step hstep (noted_of_cgroupProcs hpid)
    · subst hnamed
      exact noted_of_settle hstep (hok.1 pid rfl)

/-- In every run in which nobody signals for a process that has been reaped, what `stop` and the
handlers signal are processes of the service. -/
theorem signalsOwn_of_reach (cfg : Config) (w : World)
    (hreach : Runs.Reach (step cfg) InTime init w) (e : Event) (he : w.InTime e) :
    w.SignalsOwn e := by
  have hinit : ∀ k, NotesOwn (init.Noted (init.isMain k)) (init.Noted (init.isMember k))
      (init.sups k) :=
    fun k => ⟨nofun, nofun, nofun, nofun, nofun⟩
  have hinv := hreach.invariant (fun h hok hnext => notesOwn_step h hok hnext) hinit
  cases e with
  | sup k le =>
    intro pid hpid
    have hnoted : w.Noted (w.owns k) pid := by
      have hsignals := (hinv k).signals hpid
      split at hsignals
      · rename_i hwalks
        rwa [owns_of_walks hwalks]
      · rename_i hwalks
        rwa [owns_of_not_walks hwalks]
    obtain ⟨i, p, hlast, hp, rfl, howns⟩ := exists_lastWith hnoted
    have hunreaped : w.unreaped i := he.2 _ hpid i hlast
    have hheld : p.held := by simpa [unreaped, hp] using hunreaped
    exact ⟨i, p, Table.holder_of_get hp hheld, hp, hheld, howns⟩
  | _ => trivial

/-- The service is restarted, its first pid goes to another process, and Kill is called. -/
theorem signalsOwn_of_kill :
    ∃ w, Runs.Reach (step alwaysWeb) InTime init w ∧
      (w.sups 0).signals .signal = some 101 ∧ w.SignalsOwn (.sup 0 .signal) := by
  obtain ⟨w, hreach, hcheck⟩ := Runs.exists_reach_of_exec (step alwaysWeb) InTime init
    (startEvents 0 100 ++ exitEvents 0 1 ++ List.replicate 7 (Event.sup 0 (.monitor 0 false)) ++
      [Event.monitorLaunch 0 0 101, .sup 0 (.monitor 0 false), .foreign 100 false none none,
        .sup 0 .callKill])
    (fun w => (w.sups 0).signals .signal = some 101 ∧ w.InTime (.sup 0 .signal)) (by decide +kernel)
  obtain ⟨hsignals, hintime⟩ := of_decide_eq_true hcheck
  exact ⟨w, hreach, hsignals, signalsOwn_of_reach alwaysWeb w hreach _ hintime⟩

/-- Only live main processes are signalled. -/
def SignalsMains (w : World) : Prop :=
  ∀ k e pid, (w.sups k).signals e = some pid → ∃ i, w.mainAt k i pid

/-- A child of the main process survives it, and `stop` ends it in the walk through the cgroup. -/
theorem stop_signals_survivor :
    ∃ w, Runs.Reach (step alwaysWeb) InTime init w ∧
      (w.sups 0).signals (.stopStep false) = some 101 ∧ ¬ SignalsMains w := by
  obtain ⟨w, hreach, hcheck⟩ := Runs.exists_reach_of_exec (step alwaysWeb) InTime init
    (startEvents 0 100 ++ [Event.foreign 101 false (some 0) none, .sup 0 .callStop, .sup 0 .stopLoad,
      .sup 0 (.stopStep false), .sup 0 (.stopStep true), .sup 0 (.stopStep false),
      .sup 0 (.stopStep false), .kernel (.exit 0 (.signaled 9 false (by decide))), .kernel (.take 0),
      .kernel .record, .sup 0 (.stopStep false), .sup 0 (.stopStep true)])
    (fun w => (w.sups 0).signals (.stopStep false) = some 101 ∧ w.liveMains 0 = [])
    (by decide +kernel)
  obtain ⟨hsignals, hnone⟩ := of_decide_eq_true hcheck
  refine ⟨w, hreach, hsignals, fun h => ?_⟩
  obtain ⟨i, hmain⟩ := h 0 _ 101 hsignals
  have hnot := liveMains_eq_nil.1 hnone i
  rw [hmain.1] at hnot
  cases hnot

end World
end Quantra.Supervisor
