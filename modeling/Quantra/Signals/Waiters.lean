import Quantra.Lib.Runs
import Quantra.Signals.Reaper

/-! Everything in PID 1 that waits for processes: `wait_for_exit`, which polls the table of the
reaper, and the synchronous waits of `Command::status` and `run_with_timeout`, which compete with
the reaper for the same children. -/
namespace Quantra.Signals
open ProcTable

/-- Who started a process: `start_service_as`, a `std::process::Command` of PID 1, or another
process. -/
inductive Role
  | main
  | command
  | foreign
  deriving DecidableEq, Repr

/-- A call of `wait_for_exit(pid)` for the launched instance `inst`. -/
structure Waiter where
  inst : ℕ
  pid : ℕ
  pc : WaitPc
  deriving DecidableEq, Repr

inductive Purpose
  | pre (start : ℕ)
  | hook
  | timed
  deriving DecidableEq, Repr

inductive HandleState
  | waiting
  | done (r : WaitResult)
  | timedOut
  deriving DecidableEq, Repr

/-- A spawned `Child`: an `ExecStartPre` hook of a call of `start`, another hook, or the command
of `run_with_timeout`. -/
structure Handle where
  purpose : Purpose
  state : HandleState
  deriving DecidableEq, Repr

/-- The `ExecStartPre` loop of `start`. With no hooks left it goes on to launch the service. -/
inductive PreStart
  | hooks (left : ℕ)
  | waiting (left inst : ℕ)
  | err (inst : ℕ)
  | spawnFailed
  deriving DecidableEq, Repr

/-- `handles` is indexed by the spawned instance. -/
structure World where
  sys : Pid1 Role
  waiters : ℕ → Option Waiter
  handles : ℕ → Option Handle
  starts : ℕ → Option PreStart

inductive Event
  | kernel (e : KernelEvent)
  | foreign (pid : ℕ) (child : Bool)
  | launch (pid : ℕ)
  | call (k i : ℕ)
  | advance (k : ℕ)
  | start (k hooks : ℕ)
  | spawn (purpose : Purpose) (pid : ℕ)
  | spawnFails (k : ℕ)
  | wait (i : ℕ)
  | timeout (i : ℕ)

/-- `ExitStatus::success`, on what a wait returned. -/
def WaitResult.success : WaitResult → Bool
  | .status (.exited code) => code.val == 0
  | _ => false

theorem WaitResult.success_exited_zero : (WaitResult.status (.exited 0)).success = true := rfl

namespace World

def init : World := ⟨.init, fun _ => none, fun _ => none, fun _ => none⟩

def setWaiter (w : World) (k : ℕ) (waiter : Waiter) : World :=
  { w with waiters := Function.update w.waiters k (some waiter) }

def setHandle (w : World) (i : ℕ) (handle : Handle) : World :=
  { w with handles := Function.update w.handles i (some handle) }

def setStart (w : World) (k : ℕ) (s : PreStart) : World :=
  { w with starts := Function.update w.starts k (some s) }

/-- `Command::spawn`. -/
def spawn (w : World) (purpose : Purpose) (pid : ℕ) : Option World :=
  (w.sys.fork pid .command true).map fun sys =>
    { w with sys }.setHandle w.sys.table.size ⟨purpose, .waiting⟩

/-- What the hook loop makes of the result of a wait: anything but exit code 0 is `bail!`. -/
def resume (w : World) (purpose : Purpose) (i : ℕ) (r : WaitResult) : World :=
  match purpose with
  | .pre k =>
    match w.starts k with
    | some (.waiting left _) =>
      w.setStart k (if r.success then .hooks left else .err i)
    | _ => w
  | _ => w

def step (w : World) : Event → Option World
  | .kernel e => (w.sys.step e).map fun sys => { w with sys }
  | .foreign pid child => (w.sys.fork pid .foreign child).map fun sys => { w with sys }
  | .launch pid => (w.sys.fork pid .main true).map fun sys => { w with sys }
  | .call k i =>
    match w.waiters k, w.sys.table.get i with
    | none, some p => if p.tag = .main then some (w.setWaiter k ⟨i, p.pid, .poll⟩) else none
    | _, _ => none
  | .advance k =>
    match w.waiters k with
    | some ⟨i, pid, pc⟩ =>
      (w.sys.waitForExit pid pc).map fun pc' => w.setWaiter k ⟨i, pid, pc'⟩
    | none => none
  | .start k hooks =>
    match w.starts k with
    | none => some (w.setStart k (.hooks hooks))
    | some _ => none
  | .spawn (.pre k) pid =>
    match w.starts k with
    | some (.hooks (left + 1)) =>
      (w.spawn (.pre k) pid).map fun w' => w'.setStart k (.waiting left w.sys.table.size)
    | _ => none
  | .spawn purpose pid => w.spawn purpose pid
  | .spawnFails k =>
    match w.starts k with
    | some (.hooks (_ + 1)) => some (w.setStart k .spawnFailed)
    | _ => none
  | .wait i =>
    match w.handles i, w.sys.table.get i with
    | some ⟨purpose, .waiting⟩, some p =>
      (w.sys.waitPid p.pid).map fun r =>
        ({ w with sys := r.2 }.setHandle i ⟨purpose, .done r.1⟩).resume purpose i r.1
    | _, _ => none
  | .timeout i =>
    match w.handles i, w.sys.table.get i with
    | some ⟨.timed, .waiting⟩, some p =>
      if w.sys.stillRunning p.pid then some (w.setHandle i ⟨.timed, .timedOut⟩) else none
    | _, _ => none

/-! What the composed steps do. -/

theorem spawn_eq_some {w w' : World} {purpose : Purpose} {pid : ℕ}
    (h : w.spawn purpose pid = some w') :
    ∃ sys, w.sys.fork pid .command true = some sys ∧
      w' = { w with sys }.setHandle w.sys.table.size ⟨purpose, .waiting⟩ := by
  obtain ⟨sys, hsys, rfl⟩ := Option.map_eq_some_iff.1 h
  exact ⟨sys, hsys, rfl⟩

theorem step_spawn_cases {w w' : World} {purpose : Purpose} {pid : ℕ}
    (h : w.step (.spawn purpose pid) = some w') :
    ∃ sys, w.sys.fork pid .command true = some sys ∧ w'.sys = sys ∧ w'.waiters = w.waiters ∧
      w'.handles = Function.update w.handles w.sys.table.size (some ⟨purpose, .waiting⟩) ∧
      (w'.starts = w.starts ∨ ∃ k left,
        w'.starts = Function.update w.starts k (some (.waiting left w.sys.table.size))) := by
  cases purpose with
  | pre k =>
    simp only [step] at h
    split at h
    · rename_i left hstart
      obtain ⟨w₁, hspawn, rfl⟩ := Option.map_eq_some_iff.1 h
      obtain ⟨sys, hsys, rfl⟩ := spawn_eq_some hspawn
      exact ⟨sys, hsys, rfl, rfl, rfl, .inr ⟨k, left, rfl⟩⟩
    · cases h
  | hook =>
    obtain ⟨sys, hsys, rfl⟩ := spawn_eq_some h
    exact ⟨sys, hsys, rfl, rfl, rfl, .inl rfl⟩
  | timed =>
    obtain ⟨sys, hsys, rfl⟩ := spawn_eq_some h
    exact ⟨sys, hsys, rfl, rfl, rfl, .inl rfl⟩

theorem resume_cases (w : World) (purpose : Purpose) (i : ℕ) (r : WaitResult) :
    (w.resume purpose i r).sys = w.sys ∧ (w.resume purpose i r).waiters = w.waiters ∧
      (w.resume purpose i r).handles = w.handles ∧
      ∀ k j, (w.resume purpose i r).starts k = some (.err j) →
        w.starts k = some (.err j) ∨ (j = i ∧ r ≠ .status (.exited 0)) := by
  unfold resume
  split
  · rename_i k
    split
    · rename_i left inst hstart
      refine ⟨rfl, rfl, rfl, fun k' j hj => ?_⟩
      simp only [setStart, Function.update_apply] at hj
      split at hj
      · split at hj
        · cases hj
        · rename_i hr
          cases hj
          exact .inr ⟨rfl, fun hzero => hr (hzero ▸ WaitResult.success_exited_zero)⟩
      · exact .inl hj
    · exact ⟨rfl, rfl, rfl, fun _ _ => .inl⟩
  · exact ⟨rfl, rfl, rfl, fun _ _ => .inl⟩

theorem step_wait_cases {w w' : World} {i : ℕ} (h : w.step (.wait i) = some w') :
    ∃ purpose p r sys, w.handles i = some ⟨purpose, .waiting⟩ ∧ w.sys.table.get i = some p ∧
      w.sys.waitPid p.pid = some (r, sys) ∧ w'.sys = sys ∧ w'.waiters = w.waiters ∧
      w'.handles = Function.update w.handles i (some ⟨purpose, .done r⟩) ∧
      ∀ k j, w'.starts k = some (.err j) →
        w.starts k = some (.err j) ∨ (j = i ∧ r ≠ .status (.exited 0)) := by
  simp only [step] at h
  split at h
  · rename_i purpose p hhandle hget
    obtain ⟨⟨r, sys⟩, hwait, rfl⟩ := Option.map_eq_some_iff.1 h
    obtain ⟨hsys, hwaiters, hhandles, hstarts⟩ :=
      resume_cases ({ w with sys := sys }.setHandle i ⟨purpose, .done r⟩) purpose i r
    exact ⟨purpose, p, r, sys, hhandle, hget, hwait, hsys, hwaiters, hhandles, hstarts⟩
  · cases h

theorem step_call_cases {w w' : World} {k i : ℕ} (h : w.step (.call k i) = some w') :
    ∃ p, w.sys.table.get i = some p ∧ p.tag = .main ∧ w' = w.setWaiter k ⟨i, p.pid, .poll⟩ := by
  simp only [step] at h
  split at h
  · rename_i p hnone hp
    split at h
    · rename_i hmain
      cases h
      exact ⟨p, hp, hmain, rfl⟩
    · cases h
  · cases h

theorem step_advance_cases {w w' : World} {k : ℕ} (h : w.step (.advance k) = some w') :
    ∃ i pid pc pc', w.waiters k = some ⟨i, pid, pc⟩ ∧ w.sys.waitForExit pid pc = some pc' ∧
      w' = w.setWaiter k ⟨i, pid, pc'⟩ := by
  simp only [step] at h
  split at h
  · rename_i i pid pc hk
    obtain ⟨pc', hpc', rfl⟩ := Option.map_eq_some_iff.1 h
    exact ⟨i, pid, pc, pc', hk, hpc', rfl⟩
  · cases h

theorem step_start_cases {w w' : World} {k hooks : ℕ} (h : w.step (.start k hooks) = some w') :
    w' = w.setStart k (.hooks hooks) := by
  simp only [step] at h
  split at h
  · cases h
    rfl
  · cases h

theorem step_spawnFails_cases {w w' : World} {k : ℕ} (h : w.step (.spawnFails k) = some w') :
    w' = w.setStart k .spawnFailed := by
  simp only [step] at h
  split at h
  · cases h
    rfl
  · cases h

theorem step_timeout_cases {w w' : World} {i : ℕ} (h : w.step (.timeout i) = some w') :
    w' = w.setHandle i ⟨.timed, .timedOut⟩ := by
  simp only [step] at h
  split at h
  · split at h
    · cases h
      rfl
    · cases h
  · cases h

/-! Exit codes and the instances they belong to. -/

/-- Every return of `wait_for_exit` is the exit code of the launched instance, after its end. -/
def CodesAttributed (w : World) : Prop :=
  ∀ k waiter code, w.waiters k = some waiter → waiter.pc = .returned code →
    ∃ p st, w.sys.table.get waiter.inst = some p ∧ p.ended = some st ∧ exitCode st = code

/-- The kernel gives no child of PID 1 a pid that still has an exit code recorded or on its way
there, and `wait_for_exit` ends its pause only when the reaper has recorded what it collected. -/
def PidsNotReused (w : World) : Event → Prop
  | .kernel e => w.sys.FreshAdoption e
  | .foreign pid child => child → w.sys.Fresh pid
  | .launch pid => w.sys.Fresh pid
  | .spawn _ pid => w.sys.Fresh pid
  | .advance k => ∀ waiter, w.waiters k = some waiter → waiter.pc = .grace →
      ∀ c, w.sys.holding ≠ some (waiter.pid, c)
  | _ => True

instance (w : World) (e : Event) : Decidable (PidsNotReused w e) :=
  match e with
  | .kernel e => inferInstanceAs (Decidable (w.sys.FreshAdoption e))
  | .foreign pid child => inferInstanceAs (Decidable (child → w.sys.Fresh pid))
  | .launch pid | .spawn _ pid => inferInstanceAs (Decidable (w.sys.Fresh pid))
  | .advance k => decidable_of_iff (∀ waiter ∈ w.waiters k, waiter.pc = .grace →
      w.sys.holding.map Prod.fst ≠ some waiter.pid) <| by
        simp [PidsNotReused, Option.map_eq_some_iff]
  | .call _ _ | .start _ _ | .spawnFails _ | .wait _ | .timeout _ =>
    inferInstanceAs (Decidable True)

def WaiterOk (s : Pid1 Role) (waiter : Waiter) : Prop :=
  ∃ p, s.table.get waiter.inst = some p ∧ p.tag = .main ∧ p.pid = waiter.pid ∧
    (waiter.pc = .grace → p.held = false) ∧
    ∀ code, waiter.pc = .returned code → ∃ st, p.ended = some st ∧ exitCode st = code

/-- A synchronous wait is for a child that still has its pid, or the reaper took that child. -/
def HandleOk (s : Pid1 Role) (i : ℕ) : Prop :=
  ∃ p, s.table.get i = some p ∧ p.tag = .command ∧ (p.child ∧ p.held ∨ ¬ s.Fresh p.pid)

theorem WaiterOk.later {s s' : Pid1 Role} {waiter : Waiter} (h : WaiterOk s waiter)
    (hlater : s.table.Later s'.table) : WaiterOk s' waiter := by
  obtain ⟨p, hp, hmain, hpid, hgrace, hret⟩ := h
  obtain ⟨p', hp', hpp'⟩ := hlater _ p hp
  refine ⟨p', hp', hpp'.tag.trans hmain, hpp'.pid.trans hpid, fun hpc => ?_, fun code hpc => ?_⟩
  · by_contra hheld
    have := hpp'.held (by simpa using hheld)
    rw [hgrace hpc] at this
    cases this
  · obtain ⟨st, hst, hcode⟩ := hret code hpc
    exact ⟨st, hpp'.ended st hst, hcode⟩

theorem HandleOk.fork {s s' : Pid1 Role} {i pid : ℕ} {tag : Role} {child : Bool}
    (h : HandleOk s i) (hfork : s.fork pid tag child = some s') : HandleOk s' i := by
  obtain ⟨p, hp, htag, hstate⟩ := h
  obtain ⟨t, ht, rfl⟩ := Pid1.fork_eq_some hfork
  have hlt := Table.lt_size_of_get hp
  refine ⟨p, ?_, htag, hstate⟩
  rw [(Table.get_fork ht).2 i, if_neg (by omega), hp]

theorem HandleOk.kernel {s s' : Pid1 Role} {i : ℕ} {e : KernelEvent} (h : HandleOk s i)
    (hstep : s.step e = some s') : HandleOk s' i := by
  obtain ⟨p, hp, htag, hstate⟩ := h
  obtain ⟨p', hp', hpp'⟩ := Pid1.later_step hstep i p hp
  refine ⟨p', hp', hpp'.tag.trans htag, ?_⟩
  rw [hpp'.pid]
  rcases hstate with ⟨hchild, hheld⟩ | hstale
  · by_cases hheld' : p'.held
    · exact .inl ⟨hpp'.child hchild, hheld'⟩
    · right
      have htake := Pid1.take_of_lost hstep hp hchild hheld hp' (by simpa using hheld')
      subst htake
      obtain ⟨q, st, t, -, hq, -, rfl⟩ := Pid1.take_eq_some hstep
      rw [hp] at hq
      cases hq
      exact fun hfresh => hfresh.2 _ rfl
  · exact .inr (Pid1.not_fresh_step hstep hstale)

structure Attributable (w : World) : Prop where
  sound : w.sys.Sound (· = Role.main)
  waiters : ∀ k waiter, w.waiters k = some waiter → WaiterOk w.sys waiter
  handles : ∀ i handle, w.handles i = some handle → handle.state = .waiting → HandleOk w.sys i

theorem Attributable.init : Attributable init :=
  ⟨Pid1.sound_init, nofun, nofun⟩

theorem Attributable.codesAttributed {w : World} (h : Attributable w) : CodesAttributed w := by
  intro k waiter code hk hpc
  obtain ⟨p, hp, -, -, -, hret⟩ := h.waiters k waiter hk
  obtain ⟨st, hst, hcode⟩ := hret code hpc
  exact ⟨p, st, hp, hst, hcode⟩

theorem Attributable.fork {w : World} (h : Attributable w) {sys : Pid1 Role} {pid : ℕ} {tag : Role}
    {child : Bool} (hfork : w.sys.fork pid tag child = some sys) (hmain : tag = .main → child)
    (hfresh : child → w.sys.Fresh pid) : Attributable { w with sys } := by
  refine ⟨h.sound.fork hfork hmain hfresh, fun k waiter hk => ?_, fun i handle hi hst => ?_⟩
  · obtain ⟨t, ht, rfl⟩ := Pid1.fork_eq_some hfork
    exact (h.waiters k waiter hk).later (Table.later_fork ht)
  · exact (h.handles i handle hi hst).fork hfork

theorem Attributable.setWaiter {w : World} (h : Attributable w) {k : ℕ} {waiter : Waiter}
    (hwaiter : WaiterOk w.sys waiter) : Attributable (w.setWaiter k waiter) := by
  refine ⟨h.sound, fun k' waiter' hk' => ?_, h.handles⟩
  simp only [World.setWaiter, Function.update_apply] at hk'
  split at hk'
  · cases hk'
    exact hwaiter
  · exact h.waiters k' waiter' hk'

/-- A code found in the table is that of the process waited for. -/
theorem Attributable.waiterOk_of_code {w : World} (h : Attributable w) {i pid : ℕ} {pc : WaitPc}
    {code : ℤ} (hwaiter : WaiterOk w.sys ⟨i, pid, pc⟩) (hcode : w.sys.exitCodes pid = some code) :
    WaiterOk w.sys ⟨i, pid, .returned code⟩ := by
  obtain ⟨p, hp, hmain, hpid, -, -⟩ := hwaiter
  refine ⟨p, hp, hmain, hpid, nofun, fun code' hpc => ?_⟩
  cases hpc
  rw [← show p.pid = pid from hpid] at hcode
  have hgone : p.held = false := by
    by_contra hheld
    have hfresh := h.sound.fresh i p hp (h.sound.child i p hp hmain) (by simpa using hheld)
    rw [hfresh.1] at hcode
    cases hcode
  obtain ⟨st, hst⟩ := Proc.status_of_not_held hgone
  refine ⟨st, by simp [Proc.ended, hst], ?_⟩
  rcases h.sound.recorded i p st hp hmain hst with hhold | hown
  · rw [h.sound.pending _ _ hhold] at hcode
    cases hcode
  · rw [hown] at hcode
    exact Option.some.inj hcode

/-- After the pause the code is there, unless the reaper still holds it. -/
theorem Attributable.waiterOk_of_grace {w : World} (h : Attributable w) {i pid : ℕ}
    (hwaiter : WaiterOk w.sys ⟨i, pid, .grace⟩) (hhold : ∀ c, w.sys.holding ≠ some (pid, c)) :
    WaiterOk w.sys ⟨i, pid, .returned ((w.sys.getExitCode pid).getD 0)⟩ := by
  obtain ⟨p, hp, hmain, hpid, hgrace, -⟩ := hwaiter
  obtain ⟨st, hst⟩ := Proc.status_of_not_held (hgrace rfl)
  have hcode : w.sys.exitCodes pid = some (exitCode st) := by
    rcases h.sound.recorded i p st hp hmain hst with hown | hown
    · rw [show p.pid = pid from hpid] at hown
      exact absurd hown (hhold _)
    · rwa [show p.pid = pid from hpid] at hown
  rw [Pid1.getExitCode, hcode, Option.getD_some]
  exact h.waiterOk_of_code ⟨p, hp, hmain, hpid, hgrace, nofun⟩ hcode

theorem Attributable.waiterOk_waitForExit {w : World} (h : Attributable w) {i pid : ℕ}
    {pc pc' : WaitPc} (hwaiter : WaiterOk w.sys ⟨i, pid, pc⟩)
    (hstep : w.sys.waitForExit pid pc = some pc')
    (hhold : pc = .grace → ∀ c, w.sys.holding ≠ some (pid, c)) :
    WaiterOk w.sys ⟨i, pid, pc'⟩ := by
  have hwaiter' := hwaiter
  obtain ⟨p, hp, hmain, hpid, -, -⟩ := hwaiter'
  cases pc with
  | poll =>
    simp only [Pid1.waitForExit] at hstep
    split at hstep
    · rename_i code hcode
      cases hstep
      exact h.waiterOk_of_code hwaiter hcode
    · cases hstep
      exact ⟨p, hp, hmain, hpid, nofun, nofun⟩
  | probe =>
    simp only [Pid1.waitForExit] at hstep
    split at hstep
    · cases hstep
      exact ⟨p, hp, hmain, hpid, nofun, nofun⟩
    · rename_i hexists
      cases hstep
      refine ⟨p, hp, hmain, hpid, fun _ => ?_, nofun⟩
      by_contra hheld
      exact Table.inUse_eq_false.1 (by simpa [Pid1.procExists] using hexists) i p hp
        (by simpa using hheld) hpid
  | grace =>
    cases hstep
    exact h.waiterOk_of_grace hwaiter (hhold rfl)
  | returned code => cases hstep

theorem Attributable.wait {w w' : World} (h : Attributable w) {i : ℕ}
    (hstep : w.step (.wait i) = some w') : Attributable w' := by
  obtain ⟨purpose, p, r, sys, hhandle, hp, hwait, hsys, hwaiters, hhandles, -⟩ :=
    step_wait_cases hstep
  obtain ⟨p', hp', htag, hstate⟩ := h.handles i _ hhandle rfl
  rw [hp] at hp'
  cases hp'
  -- a child with this pid has no code yet, so it is the one that was spawned
  have hown : ∀ j q, w.sys.table.get j = some q → q.child → q.held → q.pid = p.pid → j = i := by
    intro j q hq hchild hheld hpid
    rcases hstate with ⟨-, hpheld⟩ | hstale
    · exact Table.eq_of_pid hq hp hheld hpheld hpid
    · have hfresh := h.sound.fresh j q hq hchild hheld
      rw [hpid] at hfresh
      exact absurd hfresh hstale
  have hsound : sys.Sound (· = Role.main) := by
    refine h.sound.waitPid hwait fun j q hq hchild hheld hpid hmain => ?_
    have hji := hown j q hq hchild hheld hpid
    subst hji
    rw [hp] at hq
    cases hq
    rw [htag] at hmain
    cases hmain
  refine ⟨hsys ▸ hsound, fun k waiter hk => ?_, fun j handle hj hst => ?_⟩
  · rw [hwaiters] at hk
    rw [hsys]
    exact (h.waiters k waiter hk).later (Pid1.later_waitPid hwait)
  · rw [hhandles, Function.update_apply] at hj
    split at hj
    · cases hj
      cases hst
    · rename_i hne
      rw [hsys]
      obtain ⟨q, hq, hqtag, hqstate⟩ := h.handles j handle hj hst
      rcases Pid1.waitPid_cases hwait with
        ⟨-, rfl, -⟩ | ⟨l, q', st, t, hq', hc, hpid, hcollect, -, rfl⟩
      · exact ⟨q, hq, hqtag, hqstate⟩
      · obtain ⟨q'', hq'', -, hzombie, hget⟩ := Table.get_collect hcollect
        rw [hq'] at hq''
        cases hq''
        have hli := hown l q' hq' hc (Proc.held_of_zombie hzombie) hpid
        refine ⟨q, ?_, hqtag, hqstate⟩
        rw [hget j, if_neg (by omega), hq]

theorem Attributable.spawn {w w' : World} (h : Attributable w) {purpose : Purpose} {pid : ℕ}
    (hfresh : w.sys.Fresh pid) (hstep : w.step (.spawn purpose pid) = some w') :
    Attributable w' := by
  obtain ⟨sys, hfork, hsys, hwaiters, hhandles, -⟩ := step_spawn_cases hstep
  have hforked := h.fork hfork (fun hmain => by cases hmain) fun _ => hfresh
  refine ⟨hsys ▸ hforked.sound, fun k waiter hk => ?_, fun i handle hi hst => ?_⟩
  · rw [hwaiters] at hk
    exact hsys ▸ hforked.waiters k waiter hk
  · rw [hhandles, Function.update_apply] at hi
    split at hi
    · rename_i hi'
      cases hi
      have hspawned := Pid1.get_forked hfork
      rw [← hi'] at hspawned
      exact ⟨_, hsys ▸ hspawned, rfl, .inl ⟨rfl, rfl⟩⟩
    · exact hsys ▸ hforked.handles i handle hi hst

theorem Attributable.step {w w' : World} {e : Event} (h : Attributable w)
    (hok : PidsNotReused w e) (hstep : w.step e = some w') : Attributable w' := by
  cases e with
  | kernel e =>
    obtain ⟨sys, hsys, rfl⟩ := Option.map_eq_some_iff.1 hstep
    refine ⟨h.sound.step hsys hok, fun k waiter hk => ?_, fun i handle hi hst => ?_⟩
    · exact (h.waiters k waiter hk).later (Pid1.later_step hsys)
    · exact (h.handles i handle hi hst).kernel hsys
  | foreign pid child =>
    obtain ⟨sys, hsys, rfl⟩ := Option.map_eq_some_iff.1 hstep
    exact h.fork hsys (fun hmain => by cases hmain) hok
  | launch pid =>
    obtain ⟨sys, hsys, rfl⟩ := Option.map_eq_some_iff.1 hstep
    exact h.fork hsys (fun _ => rfl) fun _ => hok
  | call k i =>
    obtain ⟨p, hp, hmain, rfl⟩ := step_call_cases hstep
    exact h.setWaiter ⟨p, hp, hmain, rfl, nofun, nofun⟩
  | advance k =>
    obtain ⟨i, pid, pc, pc', hk, hpc', rfl⟩ := step_advance_cases hstep
    exact h.setWaiter (h.waiterOk_waitForExit (h.waiters k _ hk) hpc' (hok _ hk))
  | start k hooks =>
    rw [step_start_cases hstep]
    exact ⟨h.sound, h.waiters, h.handles⟩
  | spawn purpose pid => exact h.spawn hok hstep
  | spawnFails k =>
    rw [step_spawnFails_cases hstep]
    exact ⟨h.sound, h.waiters, h.handles⟩
  | wait i => exact h.wait hstep
  | timeout i =>
    rw [step_timeout_cases hstep]
    refine ⟨h.sound, h.waiters, fun j handle hj hst => ?_⟩
    simp only [World.setHandle, Function.update_apply] at hj
    split at hj
    · cases hj
      cases hst
    · exact h.handles j handle hj hst

/-- In every run without pid reuse before the codes are recorded, `wait_for_exit` returns the
launched process's own exit code, and only after it ended. -/
theorem codesAttributed_of_reach (w : World)
    (hreach : Runs.Reach World.step PidsNotReused World.init w) : CodesAttributed w := by
  have hinv : Attributable w := hreach.invariant Attributable.step Attributable.init
  exact hinv.codesAttributed

theorem codesAttributed_of_one_run :
    ∃ w, Runs.Reach World.step PidsNotReused World.init w ∧
      w.waiters 0 = some ⟨0, 100, .returned 3⟩ ∧ CodesAttributed w := by
  obtain ⟨w, hreach, hcheck⟩ := Runs.exists_reach_of_exec World.step PidsNotReused World.init
    [.launch 100, .call 0 0, .advance 0, .advance 0, .kernel (.exit 0 (.exited 3)), .advance 0,
      .kernel (.take 0), .advance 0, .kernel .record, .advance 0]
    (fun w => w.waiters 0 = some ⟨0, 100, .returned 3⟩) (by decide +kernel)
  exact ⟨w, hreach, of_decide_eq_true hcheck, codesAttributed_of_reach w hreach⟩

/-- A reused pid: the code of the first process is returned for the second, which is alive. -/
theorem stale_code_for_reused_pid :
    ∃ w, Runs.Reach World.step (fun _ _ => True) World.init w ∧ ¬ CodesAttributed w := by
  obtain ⟨w, hreach, hcheck⟩ := Runs.exists_reach_of_exec World.step (fun _ _ => True) World.init
    [.launch 100, .kernel (.exit 0 (.exited 3)), .kernel (.take 0), .kernel .record, .launch 100,
      .call 0 1, .advance 0]
    (fun w => w.waiters 0 = some ⟨1, 100, .returned 3⟩ ∧
      (w.sys.table.get 1).bind Proc.ended = none) (by decide +kernel)
  obtain ⟨hwaiter, halive⟩ := of_decide_eq_true hcheck
  refine ⟨w, hreach, fun h => ?_⟩
  obtain ⟨p, st, hp, hst, -⟩ := h 0 _ 3 hwaiter rfl
  rw [hp] at halive
  rw [Option.bind_some, hst] at halive
  cases halive

/-! Exit statuses and the code that waits for them. -/

/-- Each status goes to the code that started the process: a finished synchronous wait has the
status of its own child, `start` gave up only on a hook that failed, and the main processes were
left to the reaper. -/
structure StatusDelivered (w : World) : Prop where
  own : ∀ i handle r, w.handles i = some handle → handle.state = .done r →
    ∃ p st, w.sys.table.get i = some p ∧ p.ended = some st ∧ r = .status st
  hooks : ∀ k i, w.starts k = some (.err i) →
    ∃ p st, w.sys.table.get i = some p ∧ p.ended = some st ∧ st ≠ .exited 0
  mains : ∀ i p, w.sys.table.get i = some p → p.tag = .main → p.held = false →
    i ∈ w.sys.collected

/-- `waitpid(-1)` of the reaper does not return a child that a synchronous wait is for. -/
def ReaperYields (w : World) : Event → Prop
  | .kernel (.take i) => ∀ handle ∈ w.handles i, handle.state ≠ .waiting
  | _ => True

instance (w : World) (e : Event) : Decidable (ReaperYields w e) :=
  match e with
  | .kernel (.take i) =>
    inferInstanceAs (Decidable (∀ handle ∈ w.handles i, handle.state ≠ .waiting))
  | .kernel (.exit _ _) | .kernel (.adopt _) | .kernel (.vanish _) | .kernel .record
  | .foreign _ _ | .launch _ | .spawn _ _ | .call _ _ | .advance _
  | .start _ _ | .spawnFails _ | .wait _ | .timeout _ => inferInstanceAs (Decidable True)

structure Delivering (w : World) : Prop extends StatusDelivered w where
  child : ∀ i p, w.sys.table.get i = some p → p.tag = .main → p.child
  waiting : ∀ i handle, w.handles i = some handle → handle.state = .waiting →
    ∃ p, w.sys.table.get i = some p ∧ p.tag = .command ∧ p.child ∧ p.held

theorem Delivering.init : Delivering init :=
  { own := nofun, hooks := nofun, mains := nofun, child := nofun, waiting := nofun }

/-- The parts that speak of ended processes outlive every change of the table. -/
theorem StatusDelivered.later {w : World} (h : StatusDelivered w) {sys : Pid1 Role}
    (hlater : w.sys.table.Later sys.table)
    (hmains : ∀ i p, sys.table.get i = some p → p.tag = .main → p.held = false →
      i ∈ sys.collected) : StatusDelivered { w with sys } := by
  refine ⟨fun i handle r hi hst => ?_, fun k i hk => ?_, hmains⟩
  · obtain ⟨p, st, hp, hend, hr⟩ := h.own i handle r hi hst
    obtain ⟨p', hp', hpp'⟩ := hlater i p hp
    exact ⟨p', st, hp', hpp'.ended st hend, hr⟩
  · obtain ⟨p, st, hp, hend, hne⟩ := h.hooks k i hk
    obtain ⟨p', hp', hpp'⟩ := hlater i p hp
    exact ⟨p', st, hp', hpp'.ended st hend, hne⟩

theorem Delivering.fork {w : World} (h : Delivering w) {sys : Pid1 Role} {pid : ℕ} {tag : Role}
    {child : Bool} (hfork : w.sys.fork pid tag child = some sys) (hmain : tag = .main → child) :
    Delivering { w with sys } := by
  obtain ⟨t, ht, rfl⟩ := Pid1.fork_eq_some hfork
  have hget := (Table.get_fork ht).2
  refine { h.toStatusDelivered.later (Table.later_fork ht) fun i p hi hp hgone => ?_ with
    child := fun i p hi hp => ?_, waiting := fun i handle hi hst => ?_ }
  · rw [hget i] at hi
    split at hi
    · cases hi
      cases hgone
    · exact h.mains i p hi hp hgone
  · rw [hget i] at hi
    split at hi
    · cases hi
      exact hmain hp
    · exact h.child i p hi hp
  · obtain ⟨p, hp, hrest⟩ := h.waiting i handle hi hst
    have hlt := Table.lt_size_of_get hp
    refine ⟨p, ?_, hrest⟩
    rw [hget i, if_neg (by omega), hp]

theorem Delivering.kernel {w : World} (h : Delivering w) {sys : Pid1 Role} {e : KernelEvent}
    (hstep : w.sys.step e = some sys) (hok : ReaperYields w (.kernel e)) :
    Delivering { w with sys } := by
  have hcollected : ∀ i, i ∈ w.sys.collected → i ∈ sys.collected := by
    intro i hi
    cases e with
    | take j =>
      obtain ⟨p, st, t, -, -, -, rfl⟩ := Pid1.take_eq_some hstep
      exact List.mem_cons_of_mem j hi
    | record =>
      obtain ⟨pid, code, -, rfl⟩ := Pid1.record_eq_some hstep
      exact hi
    | exit j st =>
      obtain ⟨t, -, rfl⟩ := Option.map_eq_some_iff.1 hstep
      exact hi
    | adopt j =>
      obtain ⟨t, -, rfl⟩ := Option.map_eq_some_iff.1 hstep
      exact hi
    | vanish j =>
      obtain ⟨t, -, rfl⟩ := Option.map_eq_some_iff.1 hstep
      exact hi
  refine { h.toStatusDelivered.later (Pid1.later_step hstep) fun i p' hi hmain hgone => ?_ with
    child := fun i p' hi hmain => ?_, waiting := fun i handle hi hst => ?_ }
  · obtain ⟨p, hp, hpp'⟩ := Pid1.get_of_step hstep hi
    have hpmain := hpp'.tag.symm.trans hmain
    by_cases hheld : p.held
    · have htake := Pid1.take_of_lost hstep hp (h.child i p hp hpmain) hheld hi hgone
      subst htake
      obtain ⟨q, st, t, -, -, -, rfl⟩ := Pid1.take_eq_some hstep
      exact List.mem_cons_self
    · exact hcollected i (h.mains i p hp hpmain (by simpa using hheld))
  · obtain ⟨p, hp, hpp'⟩ := Pid1.get_of_step hstep hi
    exact hpp'.child (h.child i p hp (hpp'.tag.symm.trans hmain))
  · obtain ⟨p, hp, htag, hchild, hheld⟩ := h.waiting i handle hi hst
    obtain ⟨p', hp', hpp'⟩ := Pid1.later_step hstep i p hp
    refine ⟨p', hp', hpp'.tag.trans htag, hpp'.child hchild, ?_⟩
    by_contra hlost
    have htake := Pid1.take_of_lost hstep hp hchild hheld hp' (by simpa using hlost)
    subst htake
    exact hok handle hi hst

/-- A wait finds its own child. -/
theorem Delivering.wait {w w' : World} (h : Delivering w) {i : ℕ}
    (hstep : w.step (.wait i) = some w') : Delivering w' := by
  obtain ⟨purpose, p, r, sys, hhandle, hp, hwait, hsys, -, hhandles, hstarts⟩ :=
    step_wait_cases hstep
  obtain ⟨p', hp', htag, hchild, hheld⟩ := h.waiting i _ hhandle rfl
  rw [hp] at hp'
  cases hp'
  have hfind := Table.findChild_of_get hp hheld hchild
  obtain ⟨st, t, hcollect, rfl, rfl⟩ : ∃ st t, w.sys.table.collect i true = some (st, t) ∧
      r = .status st ∧ sys = { w.sys with table := t } := by
    simp only [Pid1.waitPid, hfind] at hwait
    obtain ⟨⟨st, t⟩, hcollect, heq⟩ := Option.map_eq_some_iff.1 hwait
    cases heq
    exact ⟨st, t, hcollect, rfl, rfl⟩
  obtain ⟨p', hp', -, -, hget⟩ := Table.get_collect hcollect
  rw [hp] at hp'
  cases hp'
  have hlater : StatusDelivered { w with sys := { w.sys with table := t } } := by
    refine h.toStatusDelivered.later (Table.later_collect hcollect) fun j q hj hmain hgone => ?_
    rw [hget j] at hj
    split at hj
    · cases hj
      rw [htag] at hmain
      cases hmain
    · exact h.mains j q hj hmain hgone
  have hi : w'.sys.table.get i = some { p with status := .gone st } := by
    rw [hsys, hget i, if_pos rfl]
  refine ⟨⟨fun j handle r hj hst => ?_, fun k j hk => ?_, ?_⟩, fun j q hj hmain => ?_,
    fun j handle hj hst => ?_⟩
  · rw [hhandles, Function.update_apply] at hj
    split at hj
    · rename_i hji
      subst hji
      cases hj
      cases hst
      exact ⟨_, st, hi, rfl, rfl⟩
    · rw [hsys]
      exact hlater.own j handle r hj hst
  · rcases hstarts k j hk with hold | ⟨rfl, hne⟩
    · rw [hsys]
      exact hlater.hooks k j hold
    · refine ⟨_, st, hi, rfl, fun hzero => hne ?_⟩
      rw [hzero]
  · rw [hsys]
    exact hlater.mains
  · rw [hsys, hget j] at hj
    split at hj
    · cases hj
      exact hchild
    · exact h.child j q hj hmain
  · rw [hhandles, Function.update_apply] at hj
    split at hj
    · cases hj
      cases hst
    · rename_i hne
      obtain ⟨q, hq, hrest⟩ := h.waiting j handle hj hst
      refine ⟨q, ?_, hrest⟩
      rw [hsys, hget j, if_neg hne, hq]

theorem Delivering.setStart {w : World} (h : Delivering w) {k : ℕ} {s : PreStart}
    (hs : ∀ i, s ≠ .err i) : Delivering (w.setStart k s) := by
  refine { h with hooks := fun k' i hk' => ?_ }
  simp only [World.setStart, Function.update_apply] at hk'
  split at hk'
  · exact absurd (Option.some.inj hk') (hs i)
  · exact h.hooks k' i hk'

theorem Delivering.spawn {w w' : World} (h : Delivering w) {purpose : Purpose} {pid : ℕ}
    (hstep : w.step (.spawn purpose pid) = some w') : Delivering w' := by
  obtain ⟨sys, hfork, hsys, -, hhandles, hstarts⟩ := step_spawn_cases hstep
  have hforked := h.fork hfork nofun
  refine ⟨⟨fun i handle r hi hst => ?_, fun k i hk => ?_, ?_⟩, ?_, fun i handle hi hst => ?_⟩
  · rw [hhandles, Function.update_apply] at hi
    rw [hsys]
    split at hi
    · cases hi
      cases hst
    · exact hforked.own i handle r hi hst
  · rw [hsys]
    rcases hstarts with hsame | ⟨k', left, hnew⟩
    · rw [hsame] at hk
      exact hforked.hooks k i hk
    · rw [hnew, Function.update_apply] at hk
      split at hk
      · cases hk
      · exact hforked.hooks k i hk
  · rw [hsys]
    exact hforked.mains
  · rw [hsys]
    exact hforked.child
  · rw [hhandles, Function.update_apply] at hi
    rw [hsys]
    split at hi
    · rename_i hi'
      have hspawned := Pid1.get_forked hfork
      rw [← hi'] at hspawned
      exact ⟨_, hspawned, rfl, rfl, rfl⟩
    · exact hforked.waiting i handle hi hst

theorem Delivering.step {w w' : World} {e : Event} (h : Delivering w) (hok : ReaperYields w e)
    (hstep : w.step e = some w') : Delivering w' := by
  cases e with
  | kernel e =>
    obtain ⟨sys, hsys, rfl⟩ := Option.map_eq_some_iff.1 hstep
    exact h.kernel hsys hok
  | foreign pid child =>
    obtain ⟨sys, hsys, rfl⟩ := Option.map_eq_some_iff.1 hstep
    exact h.fork hsys nofun
  | launch pid =>
    obtain ⟨sys, hsys, rfl⟩ := Option.map_eq_some_iff.1 hstep
    exact h.fork hsys fun _ => rfl
  | call k i =>
    obtain ⟨p, -, -, rfl⟩ := step_call_cases hstep
    exact { h with }
  | advance k =>
    obtain ⟨i, pid, pc, pc', -, -, rfl⟩ := step_advance_cases hstep
    exact { h with }
  | start k hooks =>
    rw [step_start_cases hstep]
    exact h.setStart nofun
  | spawn purpose pid => exact h.spawn hstep
  | spawnFails k =>
    rw [step_spawnFails_cases hstep]
    exact h.setStart nofun
  | wait i => exact h.wait hstep
  | timeout i =>
    rw [step_timeout_cases hstep]
    refine ⟨⟨fun j handle r hj hst => ?_, h.hooks, h.mains⟩, h.child, fun j handle hj hst => ?_⟩
    · simp only [World.setHandle, Function.update_apply] at hj
      split at hj
      · cases hj
        cases hst
      · exact h.own j handle r hj hst
    · simp only [World.setHandle, Function.update_apply] at hj
      split at hj
      · cases hj
        cases hst
      · exact h.waiting j handle hj hst

/-- In every run in which the reaper leaves alone the children that are waited for
synchronously, every exit status goes to the code that started the process. -/
theorem statusDelivered_of_reach (w : World)
    (hreach : Runs.Reach World.step ReaperYields World.init w) : StatusDelivered w := by
  have hinv : Delivering w := hreach.invariant Delivering.step Delivering.init
  exact hinv.toStatusDelivered

theorem statusDelivered_of_one_run :
    ∃ w, Runs.Reach World.step ReaperYields World.init w ∧
      w.handles 1 = some ⟨.pre 0, .done (.status (.exited 0))⟩ ∧ w.sys.exitCodes 100 = some 3 ∧
      StatusDelivered w := by
  obtain ⟨w, hreach, hcheck⟩ := Runs.exists_reach_of_exec World.step ReaperYields World.init
    [.launch 100, .start 0 1, .spawn (.pre 0) 101, .kernel (.exit 0 (.exited 3)),
      .kernel (.exit 1 (.exited 0)), .kernel (.take 0), .kernel .record, .wait 1]
    (fun w => w.handles 1 = some ⟨.pre 0, .done (.status (.exited 0))⟩ ∧
      w.sys.exitCodes 100 = some 3) (by decide +kernel)
  obtain ⟨hhandle, hcode⟩ := of_decide_eq_true hcheck
  exact ⟨w, hreach, hhandle, hcode, statusDelivered_of_reach w hreach⟩

/-- The reaper takes a hook that exited 0 before `start` waits for it, and `start` returns `Err`. -/
theorem reaper_steals_hook :
    ∃ w, Runs.Reach World.step (fun _ _ => True) World.init w ∧ w.starts 0 = some (.err 0) ∧
      (w.sys.table.get 0).bind Proc.ended = some (.exited 0) ∧ ¬ StatusDelivered w := by
  obtain ⟨w, hreach, hcheck⟩ := Runs.exists_reach_of_exec World.step (fun _ _ => True) World.init
    [.start 0 1, .spawn (.pre 0) 100, .kernel (.exit 0 (.exited 0)), .kernel (.take 0),
      .kernel .record, .wait 0]
    (fun w => w.starts 0 = some (.err 0) ∧
      (w.sys.table.get 0).bind Proc.ended = some (.exited 0)) (by decide +kernel)
  obtain ⟨herr, hended⟩ := of_decide_eq_true hcheck
  refine ⟨w, hreach, herr, hended, fun h => ?_⟩
  obtain ⟨p, st, hp, hst, hne⟩ := h.hooks 0 0 herr
  rw [hp, Option.bind_some, hst, Option.some.injEq] at hended
  exact hne hended

end World
end Quantra.Signals
