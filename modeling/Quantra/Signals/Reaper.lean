import Quantra.Lib.ProcTable
import Mathlib.Data.Int.Notation
import Mathlib.Logic.Function.Basic

/-! `signals.rs`: the reaper thread and its table of exit codes, next to the kernel's processes.
Collecting a zombie and recording its code are two steps of the reaper. -/
namespace Quantra.Signals
open ProcTable

variable {τ : Type*}

/-! Wait statuses as the kernel reports them and as the macros of libc read them. -/

def wifexited (status : ℕ) : Bool := status % 128 = 0

def wexitstatus (status : ℕ) : ℕ := status / 256 % 256

def wtermsig (status : ℕ) : ℕ := status % 128

def wifsignaled (status : ℕ) : Bool := 0 < status % 128 ∧ status % 128 < 127

/-- What `run_reaper` computes from a status. -/
def reapedCode (status : ℕ) : ℤ :=
  if wifexited status then wexitstatus status
  else if wifsignaled status then -(wtermsig status : ℤ)
  else 0

def statusWord : WaitStatus → ℕ
  | .exited code => code * 256
  | .signaled signal core _ => signal + if core then 128 else 0

/-- The code of a process that has ended: its exit code, or its signal with a minus sign. -/
def exitCode : WaitStatus → ℤ
  | .exited code => (code : ℕ)
  | .signaled signal _ _ => -signal

theorem reapedCode_statusWord (st : WaitStatus) : reapedCode (statusWord st) = exitCode st := by
  cases st with
  | exited code =>
    have hlow : (code : ℕ) * 256 % 128 = 0 := by omega
    have hhigh : wexitstatus (code * 256) = code := by
      unfold wexitstatus
      omega
    simp [reapedCode, wifexited, statusWord, hlow, hhigh, exitCode]
  | signaled signal core numbered =>
    obtain ⟨hpos, hle⟩ := numbered
    have hlow : (signal + if core then 128 else 0) % 128 = signal := by
      split <;> omega
    have hne : signal ≠ 0 := by omega
    have hlt : signal < 127 := by omega
    simp [reapedCode, wifexited, wifsignaled, wtermsig, statusWord, hlow, hne, hpos, hlt, exitCode]

/-! The reaper. -/

/-- PID 1 and its kernel. `holding` is what `waitpid(-1)` has returned and the reaper has not yet
put into `EXIT_CODES`; `collected` lists the instances it ever returned. -/
structure Pid1 (τ : Type*) where
  table : Table τ
  exitCodes : ℕ → Option ℤ
  holding : Option (ℕ × ℤ)
  collected : List ℕ

inductive KernelEvent
  | exit (i : ℕ) (st : WaitStatus)
  | adopt (i : ℕ)
  | vanish (i : ℕ)
  | take (i : ℕ)
  | record
  deriving DecidableEq, Repr

/-- The points of `wait_for_exit`: before the look-up, before the `/proc` test, and in the pause
after the process was found gone. -/
inductive WaitPc
  | poll
  | probe
  | grace
  | returned (code : ℤ)
  deriving DecidableEq, Repr

/-- What a synchronous `waitpid(pid)` returns. -/
inductive WaitResult
  | status (st : WaitStatus)
  | echild
  deriving DecidableEq, Repr

namespace Pid1

def init : Pid1 τ := ⟨.empty, fun _ => none, none, []⟩

def getExitCode (s : Pid1 τ) (pid : ℕ) : Option ℤ := s.exitCodes pid

def procExists (s : Pid1 τ) (pid : ℕ) : Bool := s.table.inUse pid

def fork (s : Pid1 τ) (pid : ℕ) (tag : τ) (child : Bool) : Option (Pid1 τ) :=
  (s.table.fork pid tag child).map fun table => { s with table }

/-- `take` is a successful `waitpid(-1, WNOHANG)` of the reaper, `record` its `map.insert`;
`vanish` is a process that another parent waited for. -/
def step (s : Pid1 τ) : KernelEvent → Option (Pid1 τ)
  | .exit i st => (s.table.exit i st).map fun table => { s with table }
  | .adopt i => (s.table.adopt i).map fun table => { s with table }
  | .vanish i => (s.table.collect i false).map fun r => { s with table := r.2 }
  | .take i =>
    match s.holding, s.table.get i, s.table.collect i true with
    | none, some p, some (st, table) =>
      some { s with
        table
        holding := some (p.pid, reapedCode (statusWord st))
        collected := i :: s.collected }
    | _, _, _ => none
  | .record =>
    match s.holding with
    | some (pid, code) =>
      some { s with exitCodes := Function.update s.exitCodes pid (some code), holding := none }
    | none => none

/-- One step of `wait_for_exit(pid)`. -/
def waitForExit (s : Pid1 τ) (pid : ℕ) : WaitPc → Option WaitPc
  | .poll =>
    match s.getExitCode pid with
    | some code => some (.returned code)
    | none => some .probe
  | .probe => if s.procExists pid then some .poll else some .grace
  | .grace => some (.returned ((s.getExitCode pid).getD 0))
  | .returned _ => none

/-- A wait for one pid: blocked (`none`) while that child runs, an error if there is no such
child. -/
def waitPid (s : Pid1 τ) (pid : ℕ) : Option (WaitResult × Pid1 τ) :=
  match s.table.findChild pid with
  | none => some (.echild, s)
  | some j => (s.table.collect j true).map fun r => (.status r.1, { s with table := r.2 })

/-- What a non-blocking wait finds: a child of this pid that has not ended. -/
def stillRunning (s : Pid1 τ) (pid : ℕ) : Bool :=
  match s.table.findChild pid with
  | some j => (s.table.get j).any (·.status == .alive)
  | none => false

/-! What each operation does. -/

theorem fork_eq_some {s s' : Pid1 τ} {pid : ℕ} {tag : τ} {child : Bool}
    (h : s.fork pid tag child = some s') :
    ∃ t, s.table.fork pid tag child = some t ∧ s' = { s with table := t } := by
  obtain ⟨t, ht, rfl⟩ := Option.map_eq_some_iff.1 h
  exact ⟨t, ht, rfl⟩

theorem get_forked {s s' : Pid1 τ} {pid : ℕ} {tag : τ} {child : Bool}
    (h : s.fork pid tag child = some s') :
    s'.table.get s.table.size = some ⟨pid, tag, child, .alive⟩ := by
  obtain ⟨t, ht, rfl⟩ := fork_eq_some h
  exact ((Table.get_fork ht).2 s.table.size).trans (if_pos rfl)

theorem take_eq_some {s s' : Pid1 τ} {i : ℕ} (h : s.step (.take i) = some s') :
    ∃ p st t, s.holding = none ∧ s.table.get i = some p ∧ s.table.collect i true = some (st, t) ∧
      s' = { s with
        table := t, holding := some (p.pid, exitCode st), collected := i :: s.collected } := by
  simp only [step] at h
  split at h
  · rename_i p st t hhold hget hcollect
    cases h
    exact ⟨p, st, t, hhold, hget, hcollect, by rw [reapedCode_statusWord]⟩
  · cases h

theorem record_eq_some {s s' : Pid1 τ} (h : s.step .record = some s') :
    ∃ pid code, s.holding = some (pid, code) ∧
      s' = { s with
        exitCodes := Function.update s.exitCodes pid (some code), holding := none } := by
  simp only [step] at h
  split at h
  · rename_i pid code hhold
    cases h
    exact ⟨pid, code, hhold, rfl⟩
  · cases h

/-- A table that differs for one process, and is later, has moved that process on. -/
theorem moved_of_later {t t' : Table τ} {i : ℕ} {p q : Proc τ} (hp : t.get i = some p)
    (hget : ∀ j, t'.get j = if j = i then some q else t.get j) (hlater : t.Later t') :
    ∃ i p q, t.get i = some p ∧ p.Later q ∧
      ∀ j, t'.get j = if j = i then some q else t.get j := by
  obtain ⟨r, hr, hpr⟩ := hlater i p hp
  rw [hget i, if_pos rfl] at hr
  cases hr
  exact ⟨i, p, q, hp, hpr, hget⟩

/-- A step of the kernel moves at most one process on. -/
theorem step_table {s s' : Pid1 τ} {e : KernelEvent} (h : s.step e = some s') :
    s'.table = s.table ∨ ∃ i p q, s.table.get i = some p ∧ p.Later q ∧
      ∀ j, s'.table.get j = if j = i then some q else s.table.get j := by
  cases e with
  | exit i st =>
    obtain ⟨t, ht, rfl⟩ := Option.map_eq_some_iff.1 h
    obtain ⟨p, hp, -, hget⟩ := Table.get_exit ht
    exact .inr (moved_of_later hp hget (Table.later_exit ht))
  | adopt i =>
    obtain ⟨t, ht, rfl⟩ := Option.map_eq_some_iff.1 h
    obtain ⟨p, hp, -, hget⟩ := Table.get_adopt ht
    exact .inr (moved_of_later hp hget (Table.later_adopt ht))
  | vanish i =>
    obtain ⟨⟨st, t⟩, ht, rfl⟩ := Option.map_eq_some_iff.1 h
    obtain ⟨p, hp, -, -, hget⟩ := Table.get_collect ht
    exact .inr (moved_of_later hp hget (Table.later_collect ht))
  | take i =>
    obtain ⟨-, st, t, -, -, ht, rfl⟩ := take_eq_some h
    obtain ⟨p, hp, -, -, hget⟩ := Table.get_collect ht
    exact .inr (moved_of_later hp hget (Table.later_collect ht))
  | record =>
    obtain ⟨pid, code, -, rfl⟩ := record_eq_some h
    exact .inl rfl

theorem later_step {s s' : Pid1 τ} {e : KernelEvent} (h : s.step e = some s') :
    s.table.Later s'.table := by
  rcases step_table h with hsame | ⟨i, p, q, hp, hpq, hget⟩
  · rw [hsame]
    exact .refl _
  · exact Table.later_of_get hp hget hpq

/-- The kernel's own steps add no process. -/
theorem get_of_step {s s' : Pid1 τ} {e : KernelEvent} (h : s.step e = some s') {i : ℕ}
    {p' : Proc τ} (hp' : s'.table.get i = some p') :
    ∃ p, s.table.get i = some p ∧ p.Later p' := by
  rcases step_table h with hsame | ⟨j, p, q, hp, hpq, hget⟩
  · rw [hsame] at hp'
    exact ⟨p', hp', .refl p'⟩
  · rw [hget i] at hp'
    split at hp'
    · rename_i hij
      subst hij
      cases hp'
      exact ⟨p, hp, hpq⟩
    · exact ⟨p', hp', .refl p'⟩

/-- A child of PID 1 that loses its pid to a step of the kernel was taken by the reaper. -/
theorem take_of_lost {s s' : Pid1 τ} {e : KernelEvent} (h : s.step e = some s') {i : ℕ}
    {p p' : Proc τ} (hp : s.table.get i = some p) (hchild : p.child) (hheld : p.held)
    (hp' : s'.table.get i = some p') (hlost : p'.held = false) : e = .take i := by
  have hchanged : s'.table.get i ≠ s.table.get i := by
    rw [hp, hp']
    rintro heq
    cases heq
    rw [hlost] at hheld
    cases hheld
  -- only the entry that the event is about can have changed
  have hother : ∀ {j : ℕ} {q : Proc τ},
      (∀ k, s'.table.get k = if k = j then some q else s.table.get k) → j = i ∧ p' = q := by
    intro j q hget
    have hi := hget i
    split at hi
    · rename_i hij
      rw [hp', Option.some.injEq] at hi
      exact ⟨hij.symm, hi⟩
    · exact absurd hi hchanged
  cases e with
  | exit j st =>
    obtain ⟨t, ht, rfl⟩ := Option.map_eq_some_iff.1 h
    obtain ⟨q, -, -, hget⟩ := Table.get_exit ht
    obtain ⟨-, rfl⟩ := hother hget
    cases hlost
  | adopt j =>
    obtain ⟨t, ht, rfl⟩ := Option.map_eq_some_iff.1 h
    obtain ⟨q, -, hqheld, hget⟩ := Table.get_adopt ht
    obtain ⟨-, rfl⟩ := hother hget
    exact absurd (hqheld.symm.trans hlost) (by decide)
  | vanish j =>
    obtain ⟨⟨st, t⟩, ht, rfl⟩ := Option.map_eq_some_iff.1 h
    obtain ⟨q, hq, hqchild, -, hget⟩ := Table.get_collect ht
    obtain ⟨rfl, -⟩ := hother hget
    rw [hp] at hq
    cases hq
    rw [hchild] at hqchild
    cases hqchild
  | take j =>
    obtain ⟨q, st, t, -, -, hcollect, rfl⟩ := take_eq_some h
    obtain ⟨q', -, -, -, hget⟩ := Table.get_collect hcollect
    obtain ⟨rfl, -⟩ := hother hget
    rfl
  | record =>
    obtain ⟨pid, code, -, rfl⟩ := record_eq_some h
    exact absurd rfl hchanged

/-- A wait that returns has either collected the child of that pid or found none. -/
theorem waitPid_cases {s s' : Pid1 τ} {pid : ℕ} {r : WaitResult}
    (h : s.waitPid pid = some (r, s')) :
    (r = .echild ∧ s' = s ∧ s.table.findChild pid = none) ∨
    ∃ j p st t, s.table.get j = some p ∧ p.child ∧ p.pid = pid ∧
      s.table.collect j true = some (st, t) ∧ r = .status st ∧ s' = { s with table := t } := by
  unfold waitPid at h
  cases hfind : s.table.findChild pid with
  | none =>
    simp only [hfind, Option.some.injEq, Prod.mk.injEq] at h
    exact .inl ⟨h.1.symm, h.2.symm, rfl⟩
  | some j =>
    simp only [hfind] at h
    obtain ⟨⟨st, t⟩, hcollect, heq⟩ := Option.map_eq_some_iff.1 h
    cases heq
    obtain ⟨p, hp, -, hchild, hpid⟩ := Table.findChild_spec hfind
    exact .inr ⟨j, p, st, t, hp, hchild, hpid, hcollect, rfl, rfl⟩

theorem later_waitPid {s s' : Pid1 τ} {pid : ℕ} {r : WaitResult}
    (h : s.waitPid pid = some (r, s')) : s.table.Later s'.table := by
  rcases waitPid_cases h with ⟨-, rfl, -⟩ | ⟨j, p, st, t, -, -, -, hcollect, -, rfl⟩
  · exact .refl _
  · exact Table.later_collect hcollect

/-! Pids without a recorded code. -/

/-- Neither `EXIT_CODES` nor the reaper has a code for this pid. -/
def Fresh (s : Pid1 τ) (pid : ℕ) : Prop := s.exitCodes pid = none ∧ ∀ c, s.holding ≠ some (pid, c)

instance (s : Pid1 τ) (pid : ℕ) : Decidable (s.Fresh pid) :=
  decidable_of_iff (s.exitCodes pid = none ∧ s.holding.map Prod.fst ≠ some pid) <| by
    simp [Fresh, Option.map_eq_some_iff]

theorem not_fresh_step {s s' : Pid1 τ} {e : KernelEvent} (h : s.step e = some s') {pid : ℕ}
    (hs : ¬ s.Fresh pid) : ¬ s'.Fresh pid := by
  cases e with
  | exit i st =>
    obtain ⟨t, -, rfl⟩ := Option.map_eq_some_iff.1 h
    exact hs
  | adopt i =>
    obtain ⟨t, -, rfl⟩ := Option.map_eq_some_iff.1 h
    exact hs
  | vanish i =>
    obtain ⟨r, -, rfl⟩ := Option.map_eq_some_iff.1 h
    exact hs
  | take i =>
    obtain ⟨p, st, t, hnone, -, -, rfl⟩ := take_eq_some h
    intro hfresh
    refine hs ⟨hfresh.1, fun c hc => ?_⟩
    rw [hnone] at hc
    cases hc
  | record =>
    obtain ⟨pid', code, hhold, rfl⟩ := record_eq_some h
    intro hfresh
    by_cases hpid : pid = pid'
    · subst hpid
      have hnone := hfresh.1
      simp at hnone
    · refine hs ⟨?_, fun c hc => ?_⟩
      · simpa [hpid] using hfresh.1
      · rw [hhold] at hc
        cases hc
        exact hpid rfl

/-- The pid of a running process stays without a code. -/
theorem Fresh.step {s s' : Pid1 τ} {pid : ℕ} (hfresh : s.Fresh pid) {e : KernelEvent}
    (h : s.step e = some s') {i : ℕ} {p : Proc τ} (hp : s.table.get i = some p)
    (halive : p.status = .alive) (hpid : p.pid = pid) : s'.Fresh pid := by
  cases e with
  | exit j st =>
    obtain ⟨t, -, rfl⟩ := Option.map_eq_some_iff.1 h
    exact hfresh
  | adopt j =>
    obtain ⟨t, -, rfl⟩ := Option.map_eq_some_iff.1 h
    exact hfresh
  | vanish j =>
    obtain ⟨r, -, rfl⟩ := Option.map_eq_some_iff.1 h
    exact hfresh
  | take j =>
    obtain ⟨q, st, t, -, hq, hcollect, rfl⟩ := take_eq_some h
    obtain ⟨q', hq', -, hzombie, -⟩ := Table.get_collect hcollect
    rw [hq] at hq'
    cases hq'
    refine ⟨hfresh.1, fun c hc => ?_⟩
    -- the zombie that was taken has another pid
    have hsame : q.pid = p.pid := (congrArg Prod.fst (Option.some.inj hc)).trans hpid.symm
    have hij := Table.eq_of_pid hq hp (Proc.held_of_zombie hzombie) (Proc.held_of_alive halive)
      hsame
    rw [hij, hp] at hq
    cases hq
    rw [halive] at hzombie
    cases hzombie
  | record =>
    obtain ⟨pid', code, hhold, rfl⟩ := record_eq_some h
    have hne : pid ≠ pid' := by
      rintro rfl
      exact hfresh.2 code hhold
    refine ⟨?_, fun c hc => by cases hc⟩
    simpa [hne] using hfresh.1

/-- What makes exit codes attributable: children that still have their pid have no code yet, and
a collected main process has its own. -/
structure Sound (main : τ → Prop) (s : Pid1 τ) : Prop where
  child : ∀ i p, s.table.get i = some p → main p.tag → p.child
  fresh : ∀ i p, s.table.get i = some p → p.child → p.held → s.Fresh p.pid
  pending : ∀ pid c, s.holding = some (pid, c) → s.exitCodes pid = none
  recorded : ∀ i p st, s.table.get i = some p → main p.tag → p.status = .gone st →
    s.holding = some (p.pid, exitCode st) ∨ s.exitCodes p.pid = some (exitCode st)

variable {main : τ → Prop}

theorem sound_init : Sound main (init : Pid1 τ) := by
  have hnone : ∀ i, (init : Pid1 τ).table.get i = none := fun _ => rfl
  refine ⟨fun i p hp => ?_, fun i p hp => ?_, fun pid c hc => ?_, fun i p st hp => ?_⟩
  · rw [hnone] at hp
    cases hp
  · rw [hnone] at hp
    cases hp
  · cases hc
  · rw [hnone] at hp
    cases hp

/-- One entry of the table changes or is added. -/
theorem Sound.replace {s : Pid1 τ} (hs : s.Sound main) {t : Table τ} {i : ℕ} {q : Proc τ}
    (hget : ∀ j, t.get j = if j = i then some q else s.table.get j)
    (hchild : main q.tag → q.child) (hfresh : q.child → q.held → s.Fresh q.pid)
    (hrecorded : ∀ st, main q.tag → q.status = .gone st →
      s.holding = some (q.pid, exitCode st) ∨ s.exitCodes q.pid = some (exitCode st)) :
    Sound main { s with table := t } := by
  refine ⟨fun j p hj hp => ?_, fun j p hj hc hp => ?_, hs.pending, fun j p st hj hp hst => ?_⟩
  · rw [hget j] at hj
    split at hj
    · cases hj
      exact hchild hp
    · exact hs.child j p hj hp
  · rw [hget j] at hj
    split at hj
    · cases hj
      exact hfresh hc hp
    · exact hs.fresh j p hj hc hp
  · rw [hget j] at hj
    split at hj
    · cases hj
      exact hrecorded st hp hst
    · exact hs.recorded j p st hj hp hst

theorem Sound.fork {s s' : Pid1 τ} (hs : s.Sound main) {pid : ℕ} {tag : τ} {child : Bool}
    (h : s.fork pid tag child = some s') (hmain : main tag → child)
    (hfresh : child → s.Fresh pid) : s'.Sound main := by
  obtain ⟨t, ht, rfl⟩ := fork_eq_some h
  exact hs.replace (Table.get_fork ht).2 hmain (fun hc _ => hfresh hc) fun st _ hst => by cases hst

/-- Side condition: a process adopted by PID 1 has a pid without a recorded code. -/
def FreshAdoption (s : Pid1 τ) : KernelEvent → Prop
  | .adopt i => ∀ p, s.table.get i = some p → s.Fresh p.pid
  | _ => True

instance (s : Pid1 τ) (e : KernelEvent) : Decidable (s.FreshAdoption e) :=
  match e with
  | .adopt i => inferInstanceAs (Decidable (∀ p ∈ s.table.get i, s.Fresh p.pid))
  | .exit _ _ | .vanish _ | .take _ | .record => inferInstanceAs (Decidable True)

theorem Sound.take {s s' : Pid1 τ} (hs : s.Sound main) {i : ℕ} (h : s.step (.take i) = some s') :
    s'.Sound main := by
  obtain ⟨p, st, t, hnone, hi, hcollect, rfl⟩ := take_eq_some h
  obtain ⟨p', hi', hchild, hzombie, hget⟩ := Table.get_collect hcollect
  rw [hi] at hi'
  cases hi'
  have hheld := Proc.held_of_zombie hzombie
  have hfresh := hs.fresh i p hi hchild hheld
  refine ⟨fun j q hj hq => ?_, fun j q hj hc hq => ?_, fun pid c hc => ?_,
    fun j q st' hj hq hst => ?_⟩
  · rw [hget j] at hj
    split at hj
    · cases hj
      exact hchild
    · exact hs.child j q hj hq
  · rw [hget j] at hj
    split at hj
    · cases hj
      cases hq
    · rename_i hne
      refine ⟨(hs.fresh j q hj hc hq).1, fun c hc => ?_⟩
      -- another process that still has its pid cannot share the one just collected
      have hpid : q.pid = p.pid := (congrArg Prod.fst (Option.some.inj hc)).symm
      exact hne (Table.eq_of_pid hj hi hq hheld hpid)
  · cases hc
    exact hfresh.1
  · rw [hget j] at hj
    split at hj
    · cases hj
      cases hst
      exact .inl rfl
    · rcases hs.recorded j q st' hj hq hst with hhold | hcode
      · rw [hnone] at hhold
        cases hhold
      · exact .inr hcode

theorem Sound.record {s s' : Pid1 τ} (hs : s.Sound main) (h : s.step .record = some s') :
    s'.Sound main := by
  obtain ⟨pid, code, hhold, rfl⟩ := record_eq_some h
  refine ⟨hs.child, fun i p hi hc hp => ?_, fun pid' c hc => ?_, fun i p st hi hp hst => ?_⟩
  · obtain ⟨hnone, hnot⟩ := hs.fresh i p hi hc hp
    have hne : p.pid ≠ pid := by
      rintro rfl
      exact hnot code hhold
    refine ⟨?_, fun c hc => by cases hc⟩
    simpa [hne] using hnone
  · cases hc
  · right
    rcases hs.recorded i p st hi hp hst with hown | hcode
    · rw [hhold] at hown
      cases hown
      simp
    · have hne : p.pid ≠ pid := by
        rintro rfl
        rw [hs.pending _ _ hhold] at hcode
        cases hcode
      simpa [hne] using hcode

theorem Sound.step {s s' : Pid1 τ} (hs : s.Sound main) {e : KernelEvent}
    (h : s.step e = some s') (hok : s.FreshAdoption e) : s'.Sound main := by
  cases e with
  | exit i st =>
    obtain ⟨t, ht, rfl⟩ := Option.map_eq_some_iff.1 h
    obtain ⟨p, hp, halive, hget⟩ := Table.get_exit ht
    exact hs.replace hget (hs.child i p hp)
      (fun hc _ => hs.fresh i p hp hc (Proc.held_of_alive halive)) fun st' _ hst => by cases hst
  | adopt i =>
    obtain ⟨t, ht, rfl⟩ := Option.map_eq_some_iff.1 h
    obtain ⟨p, hp, hheld, hget⟩ := Table.get_adopt ht
    exact hs.replace hget (fun _ => rfl) (fun _ _ => hok p hp) (hs.recorded i p · hp)
  | vanish i =>
    obtain ⟨⟨st, t⟩, ht, rfl⟩ := Option.map_eq_some_iff.1 h
    obtain ⟨p, hp, hchild, hzombie, hget⟩ := Table.get_collect ht
    have hnot : ¬ main p.tag := by
      intro hmain
      have hc := hs.child i p hp hmain
      rw [hchild] at hc
      cases hc
    exact hs.replace hget (hs.child i p hp) (fun _ hheld => by cases hheld)
      fun _ hmain _ => absurd hmain hnot
  | take i => exact hs.take h
  | record => exact hs.record h

/-- A synchronous wait keeps codes attributable if it does not collect a main process. -/
theorem Sound.waitPid {s s' : Pid1 τ} (hs : s.Sound main) {pid : ℕ} {r : WaitResult}
    (h : s.waitPid pid = some (r, s'))
    (hother : ∀ j p, s.table.get j = some p → p.child → p.held → p.pid = pid → ¬ main p.tag) :
    s'.Sound main := by
  rcases waitPid_cases h with ⟨-, rfl, -⟩ | ⟨j, p, st, t, hp, hchild, hpid, hcollect, -, rfl⟩
  · exact hs
  obtain ⟨p', hp', -, hzombie, hget⟩ := Table.get_collect hcollect
  rw [hp] at hp'
  cases hp'
  have hnot := hother j p hp hchild (Proc.held_of_zombie hzombie) hpid
  exact hs.replace hget (hs.child j p hp) (fun _ hheld => by cases hheld)
    fun _ hmain _ => absurd hmain hnot

end Pid1
end Quantra.Signals
