import Quantra.Lib.Runs
import Mathlib.Data.Set.Basic
import Mathlib.Logic.Function.Basic

/-! Threads that share a state and a set of locks: programs made of calls on the state and of steps
that take and release a lock, their sequential meaning and their interleavings. -/
namespace Locks

/-- A program over the locks `ι` and the calls `Op`, a call `o` being answered in `ρ o`. -/
inductive Code (ι Op : Type) (ρ : Op → Type) (α : Type)
  | ret (a : α)
  | lock (m : ι) (next : Code ι Op ρ α)
  | unlock (m : ι) (next : Code ι Op ρ α)
  | call (o : Op) (next : ρ o → Code ι Op ρ α)

variable {ι Op σ τ κ α β : Type} {ρ : Op → Type}

namespace Code

def bind : Code ι Op ρ α → (α → Code ι Op ρ β) → Code ι Op ρ β
  | ret a, f => f a
  | lock m next, f => lock m (next.bind f)
  | unlock m next, f => unlock m (next.bind f)
  | call o next, f => call o fun r => (next r).bind f

instance : Monad (Code ι Op ρ) where
  pure := ret
  bind := bind

/-- The call in a section of its own. -/
def guarded (m : ι) (o : Op) : Code ι Op ρ (ρ o) := lock m (call o fun r => unlock m (ret r))

@[simp] theorem pure_eq (a : α) : (pure a : Code ι Op ρ α) = ret a := rfl

@[simp] theorem ret_bind (a : α) (f : α → Code ι Op ρ β) : (ret a >>= f) = f a := rfl

@[simp] theorem lock_bind (m : ι) (next : Code ι Op ρ α) (f : α → Code ι Op ρ β) :
    (lock m next >>= f) = lock m (next >>= f) := rfl

@[simp] theorem unlock_bind (m : ι) (next : Code ι Op ρ α) (f : α → Code ι Op ρ β) :
    (unlock m next >>= f) = unlock m (next >>= f) := rfl

@[simp] theorem call_bind (o : Op) (next : ρ o → Code ι Op ρ α) (f : α → Code ι Op ρ β) :
    (call o next >>= f) = call o fun r => next r >>= f := rfl

theorem bind_bind {γ : Type} (c : Code ι Op ρ α) (f : α → Code ι Op ρ β) (g : β → Code ι Op ρ γ) :
    (c >>= f >>= g) = c >>= fun a => f a >>= g := by
  induction c with
  | ret a => rfl
  | lock m next ih => exact congrArg (lock m) ih
  | unlock m next ih => exact congrArg (unlock m) ih
  | call o next ih => exact congrArg (call o) (funext ih)

/-- The meaning of a program that runs alone. -/
def run (perform : (o : Op) → σ → ρ o × σ) : Code ι Op ρ α → σ → α × σ
  | ret a, s => (a, s)
  | lock _ next, s => next.run perform s
  | unlock _ next, s => next.run perform s
  | call o next, s => (next (perform o s).1).run perform (perform o s).2

/-- The result, if there are only locks to release before it. -/
def settled : Code ι Op ρ α → Option α
  | ret a => some a
  | unlock _ next => next.settled
  | _ => none

section Run
variable {perform : (o : Op) → σ → ρ o × σ}

@[simp] theorem run_ret (a : α) (s : σ) : (ret a : Code ι Op ρ α).run perform s = (a, s) := rfl

@[simp] theorem run_lock (m : ι) (next : Code ι Op ρ α) (s : σ) :
    (lock m next).run perform s = next.run perform s := rfl

@[simp] theorem run_unlock (m : ι) (next : Code ι Op ρ α) (s : σ) :
    (unlock m next).run perform s = next.run perform s := rfl

@[simp] theorem run_call (o : Op) (next : ρ o → Code ι Op ρ α) (s : σ) :
    (call o next).run perform s = (next (perform o s).1).run perform (perform o s).2 := rfl

theorem run_bind (c : Code ι Op ρ α) (f : α → Code ι Op ρ β) (s : σ) :
    (c >>= f).run perform s = (f (c.run perform s).1).run perform (c.run perform s).2 := by
  induction c generalizing s with
  | ret a => rfl
  | lock m next ih => exact ih s
  | unlock m next ih => exact ih s
  | call o next ih => exact ih _ _

/-- What every call keeps, a program that runs alone keeps. -/
theorem run_invariant {inv : σ → Prop} (h : ∀ o s, inv s → inv (perform o s).2)
    {c : Code ι Op ρ α} {s : σ} (hs : inv s) : inv (c.run perform s).2 := by
  induction c generalizing s with
  | ret a => exact hs
  | lock m next ih => exact ih hs
  | unlock m next ih => exact ih hs
  | call o next ih => exact ih _ (h o s hs)

end Run

/-- The last step of a thread on a lock. -/
inductive Last (ι : Type)
  | start
  | took (m : ι)
  | gave (m : ι)

/-- The locks are taken as `nests` allows, given the last step on a lock and the locks that are held,
the latest first; what is released is held, and in the end nothing is. -/
def Conforms [DecidableEq ι] (nests : Last ι → List ι → ι → Prop) :
    Code ι Op ρ α → Last ι → List ι → Prop
  | ret _, _, held => held = []
  | lock m next, last, held => nests last held m ∧ next.Conforms nests (.took m) (m :: held)
  | unlock m next, _, held => m ∈ held ∧ next.Conforms nests (.gave m) (held.erase m)
  | call _ next, last, held => ∀ r, (next r).Conforms nests last held

/-- After some calls at most, the program takes `m`. -/
def Heading : Code ι Op ρ α → ι → Prop
  | lock k _, m => k = m
  | call _ next, m => ∃ r, (next r).Heading m
  | _, _ => False

section Conforms
variable [DecidableEq ι] {nests : Last ι → List ι → ι → Prop} {last : Last ι} {held : List ι}
  {c : Code ι Op ρ α} {m : ι}

theorem Conforms.nests_of_heading (h : c.Conforms nests last held) (hm : c.Heading m) :
    nests last held m := by
  induction c with
  | ret a => exact hm.elim
  | lock k next =>
    have hk : k = m := hm
    exact hk ▸ h.1
  | unlock k next => exact hm.elim
  | call o next ih =>
    obtain ⟨r, hr⟩ := hm
    exact ih r (h r) hr

/-- A program that begins with no lock held can follow one that conforms. -/
theorem Conforms.bind {f : α → Code ι Op ρ β} (h : c.Conforms nests last held)
    (hf : ∀ a last, (f a).Conforms nests last []) : (c >>= f).Conforms nests last held := by
  induction c generalizing last held with
  | ret a =>
    have hheld : held = [] := h
    rw [hheld]
    exact hf a last
  | lock k next ih => exact ⟨h.1, ih h.2⟩
  | unlock k next ih => exact ⟨h.1, ih h.2⟩
  | call o next ih => exact fun r => ih r (h r)

theorem conforms_guarded {o : Op} (h : nests last [] m) :
    (guarded m o : Code ι Op ρ (ρ o)).Conforms nests last [] :=
  ⟨h, fun _ => ⟨List.mem_singleton_self m, List.erase_cons_head ..⟩⟩

end Conforms

/-- Every call is made under the locks that guard what it touches, and what is released is held. -/
def Covers [DecidableEq ι] (guards : Op → List ι) : Code ι Op ρ α → List ι → Prop
  | ret _, held => held = []
  | lock m next, held => next.Covers guards (m :: held)
  | unlock m next, held => m ∈ held ∧ next.Covers guards (held.erase m)
  | call o next, held => guards o ⊆ held ∧ ∀ r, (next r).Covers guards held

section Covers
variable [DecidableEq ι] {guards : Op → List ι} {held : List ι} {c : Code ι Op ρ α} {m : ι}

theorem Covers.bind {f : α → Code ι Op ρ β} (h : c.Covers guards held)
    (hf : ∀ a, (f a).Covers guards []) : (c >>= f).Covers guards held := by
  induction c generalizing held with
  | ret a =>
    have hheld : held = [] := h
    rw [hheld]
    exact hf a
  | lock k next ih => exact ih h
  | unlock k next ih => exact ⟨h.1, ih h.2⟩
  | call o next ih => exact ⟨h.1, fun r => ih r (h.2 r)⟩

theorem covers_guarded {o : Op} (h : guards o ⊆ [m]) :
    (guarded m o : Code ι Op ρ (ρ o)).Covers guards [] :=
  ⟨h, fun _ => ⟨List.mem_singleton_self m, List.erase_cons_head ..⟩⟩

end Covers

/-- What a program that runs alone leaves of the locks and of the state when the locks in `kept` are
never released: it waits for ever for the first of these that it wants, with what it holds. -/
def attempt [DecidableEq ι] (perform : (o : Op) → σ → ρ o × σ) (kept : List ι) :
    Code ι Op ρ α → List ι → σ → List ι × σ
  | ret _, held, s => (held ++ kept, s)
  | lock m next, held, s =>
    if m ∈ kept then (held ++ kept, s) else next.attempt perform kept (m :: held) s
  | unlock m next, held, s => next.attempt perform kept (held.erase m) s
  | call o next, held, s => (next (perform o s).1).attempt perform kept held (perform o s).2

/-- The calls that a program can come to when the locks in `kept` are never released. -/
def Makes (kept : List ι) (P : Op → Prop) : Code ι Op ρ α → Prop
  | ret _ => True
  | lock m next => m ∉ kept → next.Makes kept P
  | unlock _ next => next.Makes kept P
  | call o next => P o ∧ ∀ r, (next r).Makes kept P

section Attempt
variable [DecidableEq ι] {perform : (o : Op) → σ → ρ o × σ} {kept held : List ι} {s : σ}
  {c : Code ι Op ρ α} {P Q : Op → Prop} {m : ι}

@[simp] theorem attempt_ret (a : α) :
    (ret a : Code ι Op ρ α).attempt perform kept held s = (held ++ kept, s) := rfl

theorem attempt_lock_kept (hm : m ∈ kept) :
    (lock m c).attempt perform kept held s = (held ++ kept, s) := if_pos hm

theorem attempt_lock (hm : m ∉ kept) :
    (lock m c).attempt perform kept held s = c.attempt perform kept (m :: held) s := if_neg hm

@[simp] theorem attempt_unlock :
    (unlock m c).attempt perform kept held s = c.attempt perform kept (held.erase m) s := rfl

@[simp] theorem attempt_call (o : Op) (next : ρ o → Code ι Op ρ α) :
    (call o next).attempt perform kept held s =
      (next (perform o s).1).attempt perform kept held (perform o s).2 := rfl

/-- A section of its own is not entered if its lock is kept, -/
theorem attempt_guarded_kept {o : Op} {f : ρ o → Code ι Op ρ α} (hm : m ∈ kept) :
    (guarded m o >>= f).attempt perform kept held s = (held ++ kept, s) := attempt_lock_kept hm

/-- and otherwise leaves what its call does. -/
theorem attempt_guarded {o : Op} {f : ρ o → Code ι Op ρ α} (hm : m ∉ kept) :
    (guarded m o >>= f).attempt perform kept held s =
      (f (perform o s).1).attempt perform kept held (perform o s).2 := by
  refine (attempt_lock hm).trans ?_
  change (f (perform o s).1).attempt perform kept ((m :: held).erase m) (perform o s).2 = _
  rw [List.erase_cons_head]

/-- What is kept stays so. -/
theorem kept_subset_attempt : kept ⊆ (c.attempt perform kept held s).1 := by
  induction c generalizing held s with
  | ret a => exact List.subset_append_right held kept
  | lock m next ih =>
    by_cases hm : m ∈ kept
    · rw [attempt_lock_kept hm]
      exact List.subset_append_right held kept
    · rw [attempt_lock hm]
      exact ih
  | unlock m next ih => exact ih
  | call o next ih => exact ih _

/-- While no lock is kept, the program runs to its end and has then released what it took. -/
theorem attempt_nil {guards : Op → List ι} (h : c.Covers guards held) :
    c.attempt perform [] held s = ([], (c.run perform s).2) := by
  induction c generalizing held s with
  | ret a =>
    have hheld : held = [] := h
    rw [hheld]
    rfl
  | lock m next ih =>
    rw [attempt_lock List.not_mem_nil]
    exact ih h
  | unlock m next ih => exact ih h.2
  | call o next ih => exact ih _ (h.2 _)

/-- What the calls keep that the program can come to, the program keeps. -/
theorem attempt_invariant {inv : σ → Prop} (h : ∀ o s, P o → inv s → inv (perform o s).2)
    (hc : c.Makes kept P) (hs : inv s) : inv (c.attempt perform kept held s).2 := by
  induction c generalizing held s with
  | ret a => exact hs
  | lock m next ih =>
    by_cases hm : m ∈ kept
    · rw [attempt_lock_kept hm]
      exact hs
    · rw [attempt_lock hm]
      exact ih (hc hm) hs
  | unlock m next ih => exact ih hc hs
  | call o next ih => exact ih _ (hc.2 _) (h o s hc.1 hs)

omit [DecidableEq ι] in
theorem Makes.bind {f : α → Code ι Op ρ β} (h : c.Makes kept P) (hf : ∀ a, (f a).Makes kept P) :
    (c >>= f).Makes kept P := by
  induction c with
  | ret a => exact hf a
  | lock m next ih => exact fun hm => ih (h hm)
  | unlock m next ih => exact ih h
  | call o next ih => exact ⟨h.1, fun r => ih r (h.2 r)⟩

omit [DecidableEq ι] in
theorem Makes.and (h : c.Makes kept P) (h' : c.Makes kept Q) :
    c.Makes kept fun o => P o ∧ Q o := by
  induction c with
  | ret a => trivial
  | lock m next ih => exact fun hm => ih (h hm) (h' hm)
  | unlock m next ih => exact ih h h'
  | call o next ih => exact ⟨⟨h.1, h'.1⟩, fun r => ih r (h.2 r) (h'.2 r)⟩

omit [DecidableEq ι] in
theorem makes_of_forall (h : ∀ o, P o) : c.Makes kept P := by
  induction c with
  | ret a => trivial
  | lock m next ih => exact fun _ => ih
  | unlock m next ih => exact ih
  | call o next ih => exact ⟨h o, ih⟩

omit [DecidableEq ι] in
theorem makes_guarded {o : Op} (h : P o) : (guarded m o : Code ι Op ρ (ρ o)).Makes kept P :=
  fun _ => ⟨h, fun _ => trivial⟩

/-- A call is not come to if one of its guards is kept. -/
theorem Covers.makes {guards : Op → List ι} (h : c.Covers guards held)
    (hheld : ∀ m ∈ held, m ∉ kept) : c.Makes kept fun o => ∀ m ∈ guards o, m ∉ kept := by
  induction c generalizing held with
  | ret a => trivial
  | lock k next ih =>
    intro hk
    exact ih h (List.forall_mem_cons.2 ⟨hk, hheld⟩)
  | unlock k next ih => exact ih h.2 fun m hm => hheld m (List.mem_of_mem_erase hm)
  | call o next ih => exact ⟨fun m hm => hheld m (h.1 hm), fun r => ih r (h.2 r) hheld⟩

end Attempt

end Code

/-- Threads in `τ`, each with the rest of its program, and the holder of each lock. -/
structure Machine (τ ι Op : Type) (ρ : Op → Type) (α σ : Type) where
  shared : σ
  code : τ → Code ι Op ρ α
  owner : ι → Option τ

/-- A thread begins a task, or makes a step. -/
inductive Event (τ κ : Type)
  | start (t : τ) (task : κ)
  | run (t : τ)
  deriving DecidableEq, Repr

def Event.thread : Event τ κ → τ
  | .start t _ => t
  | .run t => t

/-- A program to run for each task, the threads that may, and the meaning of the calls. -/
structure System (τ ι Op : Type) (ρ : Op → Type) (α σ κ : Type) where
  perform : (o : Op) → σ → ρ o × σ
  program : κ → Code ι Op ρ α
  may : τ → κ → Bool

variable [DecidableEq τ] [DecidableEq ι]

namespace Machine

variable {M : Machine τ ι Op ρ α σ} {t u : τ} {m : ι}

def goto (M : Machine τ ι Op ρ α σ) (t : τ) (c : Code ι Op ρ α) : Machine τ ι Op ρ α σ :=
  { M with code := Function.update M.code t c }

def setOwner (M : Machine τ ι Op ρ α σ) (m : ι) (o : Option τ) : Machine τ ι Op ρ α σ :=
  { M with owner := Function.update M.owner m o }

omit [DecidableEq ι] in
@[simp] theorem goto_code_self (c : Code ι Op ρ α) : (M.goto t c).code t = c :=
  Function.update_self ..

omit [DecidableEq ι] in
theorem goto_code_ne (h : u ≠ t) (c : Code ι Op ρ α) : (M.goto t c).code u = M.code u :=
  Function.update_of_ne h ..

omit [DecidableEq ι] in
@[simp] theorem goto_owner (c : Code ι Op ρ α) : (M.goto t c).owner = M.owner := rfl

omit [DecidableEq τ] in
@[simp] theorem setOwner_owner_self (o : Option τ) : (M.setOwner m o).owner m = o :=
  Function.update_self ..

omit [DecidableEq τ] in
theorem setOwner_owner_ne {k : ι} (h : k ≠ m) (o : Option τ) :
    (M.setOwner m o).owner k = M.owner k :=
  Function.update_of_ne h ..

end Machine

namespace System

variable (S : System τ ι Op ρ α σ κ)

/-- A thread begins a task when it has ended the one before; it takes a lock that is free. -/
def step (M : Machine τ ι Op ρ α σ) : Event τ κ → Option (Machine τ ι Op ρ α σ)
  | .start t task =>
    match M.code t with
    | .ret _ => if S.may t task then some (M.goto t (S.program task)) else none
    | _ => none
  | .run t =>
    match M.code t with
    | .ret _ => none
    | .lock m next => if M.owner m = none then some ((M.setOwner m (some t)).goto t next) else none
    | .unlock m next => some ((M.setOwner m none).goto t next)
    | .call o next =>
      let (r, s) := S.perform o M.shared
      some ({ M with shared := s }.goto t (next r))

variable {S} {M N : Machine τ ι Op ρ α σ} {t : τ} {task : κ}

theorem step_start (h : S.step M (.start t task) = some N) :
    (∃ a, M.code t = .ret a) ∧ S.may t task ∧ N = M.goto t (S.program task) := by
  cases hcode : M.code t with
  | ret a =>
    simp only [step, hcode, Option.ite_none_right_eq_some, Option.some.injEq] at h
    exact ⟨⟨a, rfl⟩, h.1, h.2.symm⟩
  | lock m next => simp [step, hcode] at h
  | unlock m next => simp [step, hcode] at h
  | call o next => simp [step, hcode] at h

/-- What one step of a thread can be. -/
theorem step_run (h : S.step M (.run t) = some N) :
    (∃ m next, M.code t = .lock m next ∧ M.owner m = none ∧
      N = (M.setOwner m (some t)).goto t next) ∨
    (∃ m next, M.code t = .unlock m next ∧ N = (M.setOwner m none).goto t next) ∨
    ∃ o next, M.code t = .call o next ∧
      N = { M with shared := (S.perform o M.shared).2 }.goto t
        (next (S.perform o M.shared).1) := by
  cases hcode : M.code t with
  | ret a => simp [step, hcode] at h
  | lock m next =>
    simp only [step, hcode, Option.ite_none_right_eq_some, Option.some.injEq] at h
    exact .inl ⟨m, next, rfl, h.1, h.2.symm⟩
  | unlock m next =>
    simp only [step, hcode, Option.some.injEq] at h
    exact .inr (.inl ⟨m, next, rfl, h.symm⟩)
  | call o next =>
    simp only [step, hcode, Option.some.injEq] at h
    exact .inr (.inr ⟨o, next, rfl, h.symm⟩)

/-- The other threads stay where they are. -/
theorem step_code_ne {e : Event τ κ} (hstep : S.step M e = some N) (ht : t ≠ e.thread) :
    N.code t = M.code t := by
  cases e with
  | start u task =>
    obtain ⟨-, -, rfl⟩ := step_start hstep
    exact Machine.goto_code_ne ht _
  | run u =>
    obtain ⟨m, next, -, -, rfl⟩ | ⟨m, next, -, rfl⟩ | ⟨o, next, -, rfl⟩ := step_run hstep <;>
      exact Machine.goto_code_ne ht _

/-- What every call keeps of the shared state, a step keeps. -/
theorem step_shared {inv : σ → Prop} {e : Event τ κ} (h : ∀ o s, inv s → inv (S.perform o s).2)
    (hM : inv M.shared) (hstep : S.step M e = some N) : inv N.shared := by
  cases e with
  | start t task =>
    obtain ⟨-, -, rfl⟩ := step_start hstep
    exact hM
  | run t =>
    obtain ⟨m, next, -, -, rfl⟩ | ⟨m, next, -, rfl⟩ | ⟨o, next, -, rfl⟩ := step_run hstep
    · exact hM
    · exact hM
    · exact h o M.shared hM

end System

namespace Machine

variable {nests : Code.Last ι → List ι → ι → Prop} {opp : ι → ι → Prop}

/-- Every thread is at a point of its program where `P` holds of the locks that it holds and of its
last step on a lock. -/
def Holding (P : Code ι Op ρ α → Code.Last ι → List ι → Prop) (M : Machine τ ι Op ρ α σ) : Prop :=
  ∀ t, ∃ last held, (∀ m, M.owner m = some t ↔ m ∈ held) ∧ held.Nodup ∧ P (M.code t) last held

/-- What every step of a program keeps. -/
structure Stable (P : Code ι Op ρ α → Code.Last ι → List ι → Prop) : Prop where
  ret : ∀ {a last held}, P (.ret a) last held → held = []
  lock : ∀ {m next last held}, P (.lock m next) last held → P next (.took m) (m :: held)
  unlock : ∀ {m next last held}, P (.unlock m next) last held →
    m ∈ held ∧ P next (.gave m) (held.erase m)
  call : ∀ {o next last held}, P (.call o next) last held → ∀ r, P (next r) last held

/-- Every thread conforms, with the locks that it holds. -/
def Tidy (nests : Code.Last ι → List ι → ι → Prop) (M : Machine τ ι Op ρ α σ) : Prop :=
  ∀ t, ∃ last held, (∀ m, M.owner m = some t ↔ m ∈ held) ∧ held.Nodup ∧
    (M.code t).Conforms nests last held

/-- Two threads each on their way to a lock that the other holds, the locks being opposed. -/
def Crossing (opp : ι → ι → Prop) (M : Machine τ ι Op ρ α σ) : Prop :=
  ∃ t u m k, t ≠ u ∧ (M.code t).Heading m ∧ M.owner m = some u ∧ (M.code u).Heading k ∧
    M.owner k = some t ∧ opp m k

/-- A thread takes a lock on its way to another only if the holder of that one is not itself on its
way to a lock, opposed to it, that the thread would then hold. -/
def Clear (opp : ι → ι → Prop) (M : Machine τ ι Op ρ α σ) : Event τ κ → Prop
  | .start _ _ => True
  | .run t => ∀ l next, M.code t = .lock l next → ∀ m u k, next.Heading m → M.owner m = some u →
      (M.code u).Heading k → k = l ∨ M.owner k = some t → ¬opp m k

/-- Each thread of `D` waits for a lock in `among` that another thread of `D` holds. -/
def Deadlocked (among : ι → Prop) (M : Machine τ ι Op ρ α σ) (D : Set τ) : Prop :=
  D.Nonempty ∧ ∀ t ∈ D, ∃ m next u, among m ∧ M.code t = .lock m next ∧ M.owner m = some u ∧
    u ∈ D ∧ u ≠ t

variable {S : System τ ι Op ρ α σ κ} {M N : Machine τ ι Op ρ α σ} {e : Event τ κ} {t u : τ} {m k : ι}

omit [DecidableEq τ] in
theorem setOwner_eq_some_iff (o : Option τ) :
    (M.setOwner m o).owner k = some t ↔ (k = m ∧ o = some t) ∨ (k ≠ m ∧ M.owner k = some t) := by
  by_cases hk : k = m
  · subst hk
    simp
  · rw [setOwner_owner_ne hk]
    simp [hk]

omit [DecidableEq τ] in
/-- A lock that passes between `t` and nobody is never another's. -/
theorem setOwner_other {o : Option τ} (hbefore : M.owner m = none ∨ M.owner m = some t)
    (hafter : o = none ∨ o = some t) (hu : u ≠ t) :
    (M.setOwner m o).owner k = some u ↔ M.owner k = some u := by
  rw [setOwner_eq_some_iff]
  by_cases hk : k = m
  · subst hk
    rcases hbefore with hbefore | hbefore <;> rcases hafter with hafter | hafter <;>
      simp [hbefore, hafter, hu.symm]
  · simp [hk]

section Holding
variable {P : Code ι Op ρ α → Code.Last ι → List ι → Prop}

omit [DecidableEq τ] [DecidableEq ι] in
/-- After a step of `t`, the others are as they were. -/
theorem Holding.of_others (h : M.Holding P) (hcode : ∀ u, u ≠ t → N.code u = M.code u)
    (howner : ∀ u, u ≠ t → ∀ m, N.owner m = some u ↔ M.owner m = some u)
    (ht : ∃ last held, (∀ m, N.owner m = some t ↔ m ∈ held) ∧ held.Nodup ∧
      P (N.code t) last held) : N.Holding P := by
  intro u
  by_cases hu : u = t
  · rw [hu]
    exact ht
  · obtain ⟨last, held, hheld, hnodup, hP⟩ := h u
    refine ⟨last, held, fun m => (howner u hu m).trans (hheld m), hnodup, ?_⟩
    rw [hcode u hu]
    exact hP

theorem Holding.step (hstable : Stable P) (hprog : ∀ task, P (S.program task) .start [])
    (h : M.Holding P) (hstep : S.step M e = some N) : N.Holding P := by
  cases e with
  | start t task =>
    obtain ⟨⟨a, ha⟩, -, rfl⟩ := System.step_start hstep
    obtain ⟨last, held, howner, hnodup, hP⟩ := h t
    have hheld : held = [] := by
      rw [ha] at hP
      exact hstable.ret hP
    subst hheld
    refine h.of_others (fun u hu => goto_code_ne hu _) (fun _ _ _ => Iff.rfl) ?_
    refine ⟨.start, [], howner, hnodup, ?_⟩
    rw [goto_code_self]
    exact hprog task
  | run t =>
    obtain ⟨last, held, howner, hnodup, hP⟩ := h t
    obtain ⟨m, next, hcode, hfree, rfl⟩ | ⟨m, next, hcode, rfl⟩ | ⟨o, next, hcode, rfl⟩ :=
      System.step_run hstep
    · rw [hcode] at hP
      have hm : m ∉ held := by
        rw [← howner, hfree]
        simp
      refine h.of_others (fun u hu => goto_code_ne hu _)
        (fun u hu k => setOwner_other (.inl hfree) (.inr rfl) hu) ?_
      refine ⟨.took m, m :: held, fun k => ?_, List.nodup_cons.2 ⟨hm, hnodup⟩, ?_⟩
      · rw [goto_owner, setOwner_eq_some_iff, howner, List.mem_cons]
        by_cases hk : k = m <;> simp [hk]
      · rw [goto_code_self]
        exact hstable.lock hP
    · rw [hcode] at hP
      obtain ⟨hmem, hnext⟩ := hstable.unlock hP
      have hmine : M.owner m = some t := (howner m).2 hmem
      refine h.of_others (fun u hu => goto_code_ne hu _)
        (fun u hu k => setOwner_other (.inr hmine) (.inl rfl) hu) ?_
      refine ⟨.gave m, held.erase m, fun k => ?_, hnodup.erase m, ?_⟩
      · rw [goto_owner, setOwner_eq_some_iff, howner, hnodup.mem_erase_iff]
        simp
      · rw [goto_code_self]
        exact hnext
    · rw [hcode] at hP
      refine h.of_others (fun u hu => goto_code_ne hu _) (fun _ _ _ => Iff.rfl) ?_
      refine ⟨last, held, howner, hnodup, ?_⟩
      rw [goto_code_self]
      exact hstable.call hP _

end Holding

/-- `Tidy` is a case of it. -/
theorem stable_conforms : Stable fun c : Code ι Op ρ α => c.Conforms nests where
  ret h := h
  lock h := h.2
  unlock h := h
  call h := h

theorem Tidy.step (hprog : ∀ task, (S.program task).Conforms nests .start []) (h : M.Tidy nests)
    (hstep : S.step M e = some N) : N.Tidy nests :=
  Holding.step stable_conforms hprog h hstep

theorem stable_covers {guards : Op → List ι} :
    Stable fun (c : Code ι Op ρ α) (_ : Code.Last ι) => c.Covers guards where
  ret h := h
  lock h := h
  unlock h := h
  call h := h.2

omit [DecidableEq τ] in
/-- Where every call is covered, a thread that is to make one holds the locks. -/
theorem Holding.owner {guards : Op → List ι}
    (h : M.Holding fun c _ => c.Covers guards) {o : Op} {next : ρ o → Code ι Op ρ α}
    (hcode : M.code t = .call o next) (hm : m ∈ guards o) : M.owner m = some t := by
  obtain ⟨last, held, howner, -, hcovers⟩ := h t
  rw [hcode] at hcovers
  exact (howner m).2 (hcovers.1 hm)

omit [DecidableEq τ] [DecidableEq ι] in
/-- A crossing that a step of `t` has made is one of `t`. -/
theorem Crossing.of_others (h : N.Crossing opp) (hM : ¬M.Crossing opp)
    (hopp : ∀ m k, opp m k → opp k m) (hcode : ∀ u, u ≠ t → N.code u = M.code u)
    (howner : ∀ u, u ≠ t → ∀ m, N.owner m = some u ↔ M.owner m = some u) :
    ∃ u m k, u ≠ t ∧ (N.code t).Heading m ∧ M.owner m = some u ∧ (M.code u).Heading k ∧
      N.owner k = some t ∧ opp m k := by
  obtain ⟨a, b, m, k, hab, ham, hmb, hbk, hka, hmk⟩ := h
  by_cases ha : a = t
  · subst ha
    have hb : b ≠ a := hab.symm
    rw [hcode b hb] at hbk
    exact ⟨b, m, k, hb, ham, (howner b hb m).1 hmb, hbk, hka, hmk⟩
  · by_cases hb : b = t
    · subst hb
      rw [hcode a ha] at ham
      exact ⟨a, k, m, ha, hbk, (howner a ha k).1 hka, ham, hmb, hopp m k hmk⟩
    · rw [hcode a ha] at ham
      rw [hcode b hb] at hbk
      exact absurd ⟨a, b, m, k, hab, ham, (howner b hb m).1 hmb, hbk, (howner a ha k).1 hka, hmk⟩ hM

/-- Where only the lock just released is taken again under others, a step makes no crossing unless
it takes a lock against `Clear`. -/
theorem not_crossing_step (hgave : ∀ l held m, nests (.gave l) held m → held = [] ∨ m = l)
    (hopp : ∀ m k, opp m k → opp k m) (htidy : M.Tidy nests) (hM : ¬M.Crossing opp)
    (hclear : M.Clear opp e) (hstep : S.step M e = some N) : ¬N.Crossing opp := by
  intro hcross
  cases e with
  | start t task =>
    obtain ⟨⟨a, ha⟩, -, rfl⟩ := System.step_start hstep
    obtain ⟨last, held, howner, -, hconforms⟩ := htidy t
    have hheld : held = [] := by
      rw [ha] at hconforms
      exact hconforms
    obtain ⟨u, m, k, -, -, -, -, hk, -⟩ :=
      hcross.of_others hM hopp (fun u hu => goto_code_ne hu _) fun _ _ _ => Iff.rfl
    have hmem : k ∈ held := (howner k).1 hk
    rw [hheld] at hmem
    cases hmem
  | run t =>
    obtain ⟨l, next, hcode, hfree, rfl⟩ | ⟨l, next, hcode, rfl⟩ | ⟨o, next, hcode, rfl⟩ :=
      System.step_run hstep
    · obtain ⟨u, m, k, -, hm, hmu, huk, hk, hmk⟩ := hcross.of_others hM hopp
        (fun u hu => goto_code_ne hu _) fun u hu k => setOwner_other (.inl hfree) (.inr rfl) hu
      rw [goto_code_self] at hm
      have hheld : k = l ∨ M.owner k = some t := by
        rcases (setOwner_eq_some_iff _).1 hk with ⟨hkl, -⟩ | ⟨-, hown⟩
        · exact .inl hkl
        · exact .inr hown
      exact hclear l next hcode m u k hm hmu huk hheld hmk
    · obtain ⟨last, held, howner, hnodup, hconforms⟩ := htidy t
      rw [hcode] at hconforms
      have hmine : M.owner l = some t := (howner l).2 hconforms.1
      obtain ⟨u, m, k, hu, hm, hmu, -, hk, -⟩ := hcross.of_others hM hopp
        (fun u hu => goto_code_ne hu _) fun u hu k => setOwner_other (.inr hmine) (.inl rfl) hu
      rw [goto_code_self] at hm
      have hmem : k ∈ held.erase l := by
        rcases (setOwner_eq_some_iff _).1 hk with ⟨-, hnone⟩ | ⟨hkl, hown⟩
        · cases hnone
        · exact hnodup.mem_erase_iff.2 ⟨hkl, (howner k).1 hown⟩
      rcases hgave l _ m (hconforms.2.nests_of_heading hm) with hnil | rfl
      · rw [hnil] at hmem
        cases hmem
      · rw [hmine] at hmu
        exact hu (Option.some.inj hmu).symm
    · obtain ⟨u, m, k, hu, hm, hmu, huk, hk, hmk⟩ :=
        hcross.of_others hM hopp (fun u hu => goto_code_ne hu _) fun _ _ _ => Iff.rfl
      rw [goto_code_self] at hm
      refine hM ⟨t, u, m, k, hu.symm, ?_, hmu, huk, hk, hmk⟩
      rw [hcode]
      exact ⟨_, hm⟩

end Machine

end Locks
