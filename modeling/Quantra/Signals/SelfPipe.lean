import Quantra.Lib.Runs
import Quantra.Signals.Reaper

/-! `signals.rs`: how the reaper thread is woken. `handle_chld` writes a byte into a pipe, and
`run_reaper` reads the pipe and then waits for children until none is left. -/
namespace Quantra.Signals
open ProcTable

variable {τ : Type*}

/-! The threads. -/

/-- Where `run_reaper` is: at its blocking `read`, in the loop that waits for children, or past the
end of the thread. -/
inductive ReaperPc
  | read
  | drain
  | exited
  deriving DecidableEq, Repr

/-- What follows a `read` that returned `n`. -/
def afterRead (n : ℤ) : ReaperPc := if n ≤ 0 then .exited else .drain

/-- `pending` is the signal in the kernel, which does not count; `handlers` are the calls of
`handle_chld` that have not written yet, in whatever threads they run. `log` is no variable of the
program: it lists what `waitpid(-1)` returned to the reaper, the latest first. -/
structure Watch (τ : Type*) where
  sys : Pid1 τ
  pending : Bool
  handlers : ℕ
  pipe : ℕ
  pc : ReaperPc
  log : List (ℕ × WaitStatus)

inductive WatchEvent (τ : Type*)
  | fork (pid : ℕ) (tag : τ) (child : Bool)
  | exit (i : ℕ) (st : WaitStatus)
  | adopt (i : ℕ)
  | vanish (i : ℕ)
  | deliver
  | write
  | read (n : ℕ)
  | waitAny (found : Option ℕ)
  | store
  | waitPid (pid : ℕ)

/-- A child that has ended and that nobody has waited for. -/
def unreaped (p : Proc τ) : Bool :=
  match p.status with
  | .zombie _ => p.child
  | _ => false

namespace Watch

def hasUnreaped (s : Watch τ) : Bool := s.sys.table.procs.any unreaped

/-- The event of process `i` sends PID 1 a signal if it leaves a child to wait for: it was a child
when it ended, or had ended when it was adopted. -/
def raise (s : Watch τ) (i : ℕ) (sys : Pid1 τ) : Watch τ :=
  { s with sys, pending := s.pending || (sys.table.get i).any unreaped }

/-- The handlers are installed with `SA_RESTART` and the write end is never closed, so the reaper's
`read` returns only with bytes. `vanish` and `waitPid` are the waits of other processes and of the
other threads of PID 1. -/
def step (s : Watch τ) : WatchEvent τ → Option (Watch τ)
  | .fork pid tag child => (s.sys.fork pid tag child).map fun sys => { s with sys }
  | .exit i st => (s.sys.step (.exit i st)).map (s.raise i)
  | .adopt i => (s.sys.step (.adopt i)).map (s.raise i)
  | .vanish i => (s.sys.step (.vanish i)).map fun sys => { s with sys }
  | .deliver =>
    if s.pending then some { s with pending := false, handlers := s.handlers + 1 } else none
  | .write =>
    if 0 < s.handlers then some { s with handlers := s.handlers - 1, pipe := s.pipe + 1 } else none
  | .read n =>
    if s.pc = .read ∧ 0 < n ∧ n ≤ min s.pipe 256 then
      some { s with pipe := s.pipe - n, pc := afterRead n }
    else none
  | .waitAny found =>
    if s.pc = .drain ∧ s.sys.holding = none then
      match found with
      | none => if s.hasUnreaped then none else some { s with pc := .read }
      | some i =>
        match s.sys.table.get i with
        | some ⟨pid, _, _, .zombie st⟩ =>
          (s.sys.step (.take i)).map fun sys => { s with sys, log := (pid, st) :: s.log }
        | _ => none
    else none
  | .store =>
    if s.pc = .drain then (s.sys.step .record).map fun sys => { s with sys } else none
  | .waitPid pid => (s.sys.waitPid pid).map fun r => { s with sys := r.2 }

/-- `start_reaper_thread` has returned, and no child has ended before. -/
structure Started (s : Watch τ) : Prop where
  unreaped : s.hasUnreaped = false
  holding : s.sys.holding = none
  codes : ∀ pid, s.sys.exitCodes pid = none
  pc : s.pc = .read
  log : s.log = []

/-- A signal was sent and its handler has not written yet. -/
def signalled (s : Watch τ) : Prop := s.pending ∨ 0 < s.handlers

/-- An ended child is on its way to the reaper. -/
def Awake (s : Watch τ) : Prop := s.hasUnreaped → s.signalled ∨ 0 < s.pipe ∨ s.pc = .drain

/-- The code of the latest status of this pid. -/
def codeIn (log : List (ℕ × WaitStatus)) (pid : ℕ) : Option ℤ :=
  (log.find? fun e => e.1 = pid).map fun e => exitCode e.2

/-- `EXIT_CODES` has the code of every status that the reaper was given, but for the one in its
hands. -/
def Filed (s : Watch τ) : Prop :=
  match s.sys.holding with
  | none => ∀ pid, s.sys.exitCodes pid = codeIn s.log pid
  | some (pid, code) => ∃ st rest, s.log = (pid, st) :: rest ∧ code = exitCode st ∧
      ∀ pid', s.sys.exitCodes pid' = codeIn rest pid'

theorem hasUnreaped_iff {s : Watch τ} :
    s.hasUnreaped ↔ ∃ i p, s.sys.table.get i = some p ∧ unreaped p := by
  simp only [hasUnreaped, List.any_eq_true, List.mem_iff_getElem?, Table.get]
  constructor
  · intro h
    obtain ⟨p, ⟨i, hp⟩, hu⟩ := h
    exact ⟨i, p, hp, hu⟩
  · intro h
    obtain ⟨i, p, hp, hu⟩ := h
    exact ⟨p, ⟨i, hp⟩, hu⟩

/-- Where one entry of the table changes, an ended child is that one or was there before. -/
theorem hasUnreaped_of_get {s s' : Watch τ} {i : ℕ} {q : Proc τ}
    (hget : ∀ j, s'.sys.table.get j = if j = i then some q else s.sys.table.get j)
    (h : s'.hasUnreaped) : unreaped q ∨ s.hasUnreaped := by
  obtain ⟨j, p, hp, hu⟩ := hasUnreaped_iff.1 h
  rw [hget j] at hp
  split at hp
  · cases hp
    exact .inl hu
  · exact .inr (hasUnreaped_iff.2 ⟨j, p, hp, hu⟩)

/-- A step that sends the signal an ended child asks for. -/
theorem Awake.raise {s : Watch τ} (hs : s.Awake) {i : ℕ} {q : Proc τ} {sys : Pid1 τ}
    (hget : ∀ j, sys.table.get j = if j = i then some q else s.sys.table.get j) :
    (s.raise i sys).Awake := by
  intro hu
  have hi : sys.table.get i = some q := by rw [hget i, if_pos rfl]
  rcases hasUnreaped_of_get (s := s) hget hu with hq | hold
  · refine .inl (.inl ?_)
    simp [Watch.raise, hi, hq]
  · rcases hs hold with (hpending | hhandlers) | hrest
    · refine .inl (.inl ?_)
      simp [Watch.raise, hpending]
    · exact .inl (.inr hhandlers)
    · exact .inr hrest

/-- A step that adds no ended child and leaves the signals alone. -/
theorem Awake.of_get {s : Watch τ} (hs : s.Awake) {i : ℕ} {q : Proc τ} {sys : Pid1 τ}
    (hget : ∀ j, sys.table.get j = if j = i then some q else s.sys.table.get j)
    (hq : unreaped q = false) : ({ s with sys } : Watch τ).Awake := by
  intro hu
  rcases hasUnreaped_of_get (s := s) hget hu with hq' | hold
  · rw [hq] at hq'
    cases hq'
  · exact hs hold

theorem step_waitAny_some {s s' : Watch τ} {i : ℕ} (h : s.step (.waitAny (some i)) = some s') :
    ∃ p st t, s.pc = .drain ∧ s.sys.holding = none ∧ s.sys.table.get i = some p ∧
      p.status = .zombie st ∧ s.sys.table.collect i true = some (st, t) ∧
      s' = { s with
        sys := { s.sys with
          table := t, holding := some (p.pid, exitCode st), collected := i :: s.sys.collected }
        log := (p.pid, st) :: s.log } := by
  simp only [step] at h
  split at h
  · rename_i hpc
    split at h
    · rename_i pid tag child st hget
      obtain ⟨sys, hsys, rfl⟩ := Option.map_eq_some_iff.1 h
      obtain ⟨p, st', t, hhold, hp, hcollect, rfl⟩ := Pid1.take_eq_some hsys
      obtain ⟨p', hp', -, hzombie, -⟩ := Table.get_collect hcollect
      rw [hget] at hp hp'
      cases hp
      cases hp'
      cases hzombie
      exact ⟨_, st, t, hpc.1, hpc.2, hget, rfl, hcollect, rfl⟩
    · cases h
  · cases h

theorem step_deliver {s s' : Watch τ} (h : s.step .deliver = some s') :
    s' = { s with pending := false, handlers := s.handlers + 1 } := by
  simp only [step, Option.ite_none_right_eq_some, Option.some.injEq] at h
  exact h.2.symm

theorem step_write {s s' : Watch τ} (h : s.step .write = some s') :
    s' = { s with handlers := s.handlers - 1, pipe := s.pipe + 1 } := by
  simp only [step, Option.ite_none_right_eq_some, Option.some.injEq] at h
  exact h.2.symm

theorem step_read {s s' : Watch τ} {n : ℕ} (h : s.step (.read n) = some s') :
    0 < n ∧ s' = { s with pipe := s.pipe - n, pc := afterRead n } := by
  simp only [step, Option.ite_none_right_eq_some, Option.some.injEq] at h
  exact ⟨h.1.2.1, h.2.symm⟩

/-- The reaper goes back to its pipe when nothing is left to reap. -/
theorem step_waitAny_none {s s' : Watch τ} (h : s.step (.waitAny none) = some s') :
    ¬s.hasUnreaped ∧ s' = { s with pc := .read } := by
  simp only [step, Option.ite_none_right_eq_some, Option.ite_none_left_eq_some,
    Option.some.injEq] at h
  exact ⟨h.2.1, h.2.2.symm⟩

theorem awake_step {s s' : Watch τ} {e : WatchEvent τ} (hs : s.Awake) (h : s.step e = some s') :
    s'.Awake := by
  cases e with
  | fork pid tag child =>
    obtain ⟨sys, hsys, rfl⟩ := Option.map_eq_some_iff.1 h
    obtain ⟨t, ht, rfl⟩ := Pid1.fork_eq_some hsys
    exact hs.of_get (Table.get_fork ht).2 rfl
  | exit i st =>
    obtain ⟨sys, hsys, rfl⟩ := Option.map_eq_some_iff.1 h
    obtain ⟨t, ht, rfl⟩ := Option.map_eq_some_iff.1 hsys
    obtain ⟨p, -, -, hget⟩ := Table.get_exit ht
    exact hs.raise hget
  | adopt i =>
    obtain ⟨sys, hsys, rfl⟩ := Option.map_eq_some_iff.1 h
    obtain ⟨t, ht, rfl⟩ := Option.map_eq_some_iff.1 hsys
    obtain ⟨p, -, -, hget⟩ := Table.get_adopt ht
    exact hs.raise hget
  | vanish i =>
    obtain ⟨sys, hsys, rfl⟩ := Option.map_eq_some_iff.1 h
    obtain ⟨⟨st, t⟩, ht, rfl⟩ := Option.map_eq_some_iff.1 hsys
    obtain ⟨p, -, -, -, hget⟩ := Table.get_collect ht
    exact hs.of_get hget rfl
  | deliver =>
    obtain rfl := step_deliver h
    exact fun _ => .inl (.inr (Nat.succ_pos _))
  | write =>
    obtain rfl := step_write h
    exact fun _ => .inr (.inl (Nat.succ_pos _))
  | read n =>
    obtain ⟨hn, rfl⟩ := step_read h
    have hpc : afterRead n = .drain := if_neg (by omega)
    exact fun _ => .inr (.inr hpc)
  | waitAny found =>
    cases found with
    | none =>
      obtain ⟨hnone, rfl⟩ := step_waitAny_none h
      exact fun hu => absurd hu hnone
    | some i =>
      obtain ⟨p, st, t, hpc, -, -, -, -, rfl⟩ := step_waitAny_some h
      exact fun _ => .inr (.inr hpc)
  | store =>
    simp only [step, Option.ite_none_right_eq_some] at h
    obtain ⟨hpc, hmap⟩ := h
    obtain ⟨sys, -, rfl⟩ := Option.map_eq_some_iff.1 hmap
    exact fun _ => .inr (.inr hpc)
  | waitPid pid =>
    obtain ⟨⟨r, sys⟩, hr, rfl⟩ := Option.map_eq_some_iff.1 h
    rcases Pid1.waitPid_cases hr with ⟨-, rfl, -⟩ | ⟨j, p, st, t, -, -, -, hcollect, -, rfl⟩
    · exact hs
    · obtain ⟨q, -, -, -, hget⟩ := Table.get_collect hcollect
      exact hs.of_get hget rfl

theorem codeIn_cons (log : List (ℕ × WaitStatus)) (pid pid' : ℕ) (st : WaitStatus) :
    codeIn ((pid, st) :: log) pid' =
      Function.update (codeIn log) pid (some (exitCode st)) pid' := by
  unfold codeIn
  by_cases hpid : pid = pid'
  · subst hpid
    simp
  · simp [hpid, Ne.symm hpid, Function.update_of_ne]

/-- The table of codes and what the reaper holds are all that `Filed` is about. -/
theorem Filed.of_same {s s' : Watch τ} (hs : s.Filed) (hhold : s'.sys.holding = s.sys.holding)
    (hcodes : s'.sys.exitCodes = s.sys.exitCodes) (hlog : s'.log = s.log) : s'.Filed := by
  unfold Filed at hs ⊢
  rw [hhold, hcodes, hlog]
  exact hs

theorem filed_step {s s' : Watch τ} {e : WatchEvent τ} (hs : s.Filed) (h : s.step e = some s') :
    s'.Filed := by
  cases e with
  | fork pid tag child =>
    obtain ⟨sys, hsys, rfl⟩ := Option.map_eq_some_iff.1 h
    obtain ⟨t, -, rfl⟩ := Pid1.fork_eq_some hsys
    exact hs.of_same rfl rfl rfl
  | exit i st =>
    obtain ⟨sys, hsys, rfl⟩ := Option.map_eq_some_iff.1 h
    obtain ⟨t, -, rfl⟩ := Option.map_eq_some_iff.1 hsys
    exact hs.of_same rfl rfl rfl
  | adopt i =>
    obtain ⟨sys, hsys, rfl⟩ := Option.map_eq_some_iff.1 h
    obtain ⟨t, -, rfl⟩ := Option.map_eq_some_iff.1 hsys
    exact hs.of_same rfl rfl rfl
  | vanish i =>
    obtain ⟨sys, hsys, rfl⟩ := Option.map_eq_some_iff.1 h
    obtain ⟨r, -, rfl⟩ := Option.map_eq_some_iff.1 hsys
    exact hs.of_same rfl rfl rfl
  | deliver =>
    obtain rfl := step_deliver h
    exact hs.of_same rfl rfl rfl
  | write =>
    obtain rfl := step_write h
    exact hs.of_same rfl rfl rfl
  | read n =>
    obtain ⟨-, rfl⟩ := step_read h
    exact hs.of_same rfl rfl rfl
  | waitAny found =>
    cases found with
    | none =>
      obtain ⟨-, rfl⟩ := step_waitAny_none h
      exact hs.of_same rfl rfl rfl
    | some i =>
      obtain ⟨p, st, t, -, hhold, -, -, -, rfl⟩ := step_waitAny_some h
      unfold Filed at hs
      rw [hhold] at hs
      exact ⟨st, s.log, rfl, rfl, hs⟩
  | store =>
    simp only [step, Option.ite_none_right_eq_some] at h
    obtain ⟨-, hmap⟩ := h
    obtain ⟨sys, hsys, rfl⟩ := Option.map_eq_some_iff.1 hmap
    obtain ⟨pid, code, hhold, rfl⟩ := Pid1.record_eq_some hsys
    unfold Filed at hs
    rw [hhold] at hs
    obtain ⟨st, rest, hlog, rfl, hrest⟩ := hs
    have hcodes : s.sys.exitCodes = codeIn rest := funext hrest
    intro pid'
    dsimp only
    rw [hlog, codeIn_cons, hcodes]
  | waitPid pid =>
    obtain ⟨⟨r, sys⟩, hr, rfl⟩ := Option.map_eq_some_iff.1 h
    rcases Pid1.waitPid_cases hr with ⟨-, rfl, -⟩ | ⟨j, p, st, t, -, -, -, -, -, rfl⟩
    · exact hs
    · exact hs.of_same rfl rfl rfl

/-- The reaper leaves its loop by a `waitpid` that finds no ended child. -/
theorem drain_step {s s' : Watch τ} {e : WatchEvent τ} (hpc : s.pc = .drain)
    (h : s.step e = some s') : s'.pc = .drain ∨ e = .waitAny none := by
  cases e with
  | waitAny found =>
    cases found with
    | none => exact .inr rfl
    | some i =>
      obtain ⟨p, st, t, -, -, -, -, -, rfl⟩ := step_waitAny_some h
      exact .inl hpc
  | read n =>
    simp [step, hpc] at h
  | deliver =>
    obtain rfl := step_deliver h
    exact .inl hpc
  | write =>
    obtain rfl := step_write h
    exact .inl hpc
  | store =>
    simp only [step, Option.ite_none_right_eq_some] at h
    obtain ⟨-, hmap⟩ := h
    obtain ⟨sys, -, rfl⟩ := Option.map_eq_some_iff.1 hmap
    exact .inl hpc
  | fork pid tag child | exit i st | adopt i | vanish i | waitPid pid =>
    obtain ⟨r, -, rfl⟩ := Option.map_eq_some_iff.1 h
    exact .inl hpc

theorem Started.filed {s : Watch τ} (hs : s.Started) : s.Filed := by
  unfold Filed
  rw [hs.holding, hs.log]
  exact hs.codes

/-- No wake-up is lost between the last `waitpid` and the next `read`, and what `waitpid` returned
is in `EXIT_CODES`. -/
theorem zombie_not_forgotten (s₀ s : Watch τ) (h₀ : s₀.Started)
    (h : Runs.Reach step (fun _ _ => True) s₀ s) :
    (s.hasUnreaped →
      s.signalled ∨ 0 < s.pipe ∨
        (s.pc = .drain ∧ ∀ e s', s.step e = some s' → s'.pc = .drain ∨ e = .waitAny none)) ∧
    s.Filed := by
  have hawake : s.Awake := by
    refine h.invariant (fun ht _ hstep => awake_step ht hstep) fun hu => ?_
    rw [h₀.unreaped] at hu
    cases hu
  have hfiled : s.Filed := h.invariant (fun ht _ hstep => filed_step ht hstep) h₀.filed
  refine ⟨fun hu => ?_, hfiled⟩
  rcases hawake hu with hsignal | hpipe | hpc
  · exact .inl hsignal
  · exact .inr (.inl hpipe)
  · exact .inr (.inr ⟨hpc, fun e s' hstep => drain_step hpc hstep⟩)

def start : Watch Unit := ⟨.init, false, 0, 0, .read, []⟩

/-- A child ends while the reaper is still busy with another one. -/
theorem zombie_not_forgotten_busy :
    ∃ s, Runs.Reach step (fun _ _ => True) start s ∧ s.hasUnreaped ∧ s.pc = .drain ∧
      s.sys.exitCodes 7 = some (-9) ∧ (s.signalled ∨ 0 < s.pipe ∨
        (s.pc = .drain ∧ ∀ e s', s.step e = some s' → s'.pc = .drain ∨ e = .waitAny none)) := by
  have hstarted : start.Started := ⟨by decide, rfl, fun _ => rfl, rfl, rfl⟩
  obtain ⟨s, hreach, hcheck⟩ := Runs.exists_reach_of_exec step (fun _ _ => True) start
    [.fork 7 () true, .fork 8 () true, .exit 0 (.signaled 9 false (by decide)), .deliver, .write, .read 1,
      .waitAny (some 0), .store, .exit 1 (.exited 3)]
    (fun s => s.hasUnreaped && s.pc == .drain && s.sys.exitCodes 7 == some (-9)) (by decide)
  simp only [Bool.and_eq_true, beq_iff_eq] at hcheck
  obtain ⟨⟨hu, hpc⟩, hcode⟩ := hcheck
  exact ⟨s, hreach, hu, hpc, hcode, (zombie_not_forgotten start s hstarted hreach).1 hu⟩

end Watch
end Quantra.Signals
