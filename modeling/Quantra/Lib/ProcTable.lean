import Mathlib.Data.List.Basic

/-! A process table with reusable pids. An instance is a position of the table and is never used
twice; a pid belongs to at most one instance that has not been waited for. -/
namespace ProcTable

/-- What `wait` reports about a process that ended: an exit code of eight bits, or a signal and
whether a core was dumped. -/
inductive WaitStatus
  | exited (code : Fin 256)
  | signaled (signal : ℕ) (core : Bool) (numbered : 0 < signal ∧ signal ≤ 64)
  deriving DecidableEq, Repr

inductive Status
  | alive
  | zombie (st : WaitStatus)
  | gone (st : WaitStatus)
  deriving DecidableEq, Repr

/-- A process with a label of the caller's choosing; `child` tells whether it is a child of the
process that keeps the table. -/
structure Proc (τ : Type*) where
  pid : ℕ
  tag : τ
  child : Bool
  status : Status
  deriving Repr

variable {τ : Type*}

namespace Proc

/-- Alive or waiting to be waited for: the process still has its pid. -/
def held (p : Proc τ) : Bool :=
  match p.status with
  | .gone _ => false
  | _ => true

def ended (p : Proc τ) : Option WaitStatus :=
  match p.status with
  | .alive => none
  | .zombie st => some st
  | .gone st => some st

/-- `p'` is `p` some time later. -/
structure Later (p p' : Proc τ) : Prop where
  pid : p'.pid = p.pid
  tag : p'.tag = p.tag
  child : p.child → p'.child
  ended : ∀ st, p.ended = some st → p'.ended = some st
  held : p'.held → p.held

theorem Later.refl (p : Proc τ) : p.Later p := ⟨rfl, rfl, id, fun _ h => h, id⟩

theorem Later.alive {p p' : Proc τ} (h : p.Later p') (halive : p'.status = .alive) :
    p.status = .alive := by
  have hended : p'.ended = none := by simp [Proc.ended, halive]
  cases hst : p.status with
  | alive => rfl
  | zombie st =>
    have := h.ended st (by simp [Proc.ended, hst])
    rw [hended] at this
    cases this
  | gone st =>
    have := h.ended st (by simp [Proc.ended, hst])
    rw [hended] at this
    cases this

theorem held_of_alive {p : Proc τ} (h : p.status = .alive) : p.held := by
  simp [held, h]

theorem held_of_zombie {p : Proc τ} {st : WaitStatus} (h : p.status = .zombie st) : p.held := by
  simp [held, h]

theorem status_of_not_held {p : Proc τ} (h : p.held = false) : ∃ st, p.status = .gone st := by
  unfold held at h
  cases hst : p.status with
  | gone st => exact ⟨st, rfl⟩
  | alive => simp [hst] at h
  | zombie st => simp [hst] at h

end Proc

structure Table (τ : Type*) where
  procs : List (Proc τ)
  distinct : procs.Pairwise fun p q => p.held → q.held → p.pid ≠ q.pid

namespace Table

def empty : Table τ := ⟨[], .nil⟩

def get (t : Table τ) (i : ℕ) : Option (Proc τ) := t.procs[i]?

def size (t : Table τ) : ℕ := t.procs.length

/-- A process holds this pid; `/proc/<pid>` exists. -/
def inUse (t : Table τ) (pid : ℕ) : Bool := t.procs.any fun p => p.held && p.pid == pid

/-- The process that a signal to this pid reaches. -/
def holder (t : Table τ) (pid : ℕ) : Option ℕ :=
  t.procs.findIdx? fun p => p.held && p.pid == pid

/-- The child that a wait for this pid is about. -/
def findChild (t : Table τ) (pid : ℕ) : Option ℕ :=
  t.procs.findIdx? fun p => p.held && p.child && p.pid == pid

theorem inUse_eq_false {t : Table τ} {pid : ℕ} :
    t.inUse pid = false ↔ ∀ i p, t.get i = some p → p.held → p.pid ≠ pid := by
  simp only [inUse, get, List.any_eq_false, Bool.and_eq_true, beq_iff_eq, not_and,
    List.mem_iff_getElem?, forall_exists_index]
  exact ⟨fun h i p hp => h p i hp, fun h p i hp => h i p hp⟩

theorem eq_of_pid {t : Table τ} {i j : ℕ} {p q : Proc τ} (hi : t.get i = some p)
    (hj : t.get j = some q) (hp : p.held) (hq : q.held) (hpid : p.pid = q.pid) : i = j := by
  obtain ⟨hi', rfl⟩ := List.getElem?_eq_some_iff.1 hi
  obtain ⟨hj', rfl⟩ := List.getElem?_eq_some_iff.1 hj
  rcases Nat.lt_trichotomy i j with hlt | heq | hlt
  · exact absurd hpid (List.pairwise_iff_getElem.1 t.distinct i j hi' hj' hlt hp hq)
  · exact heq
  · exact absurd hpid.symm (List.pairwise_iff_getElem.1 t.distinct j i hj' hi' hlt hq hp)

theorem get_size (t : Table τ) : t.get t.size = none := by
  simp [get, size]

theorem lt_size_of_get {t : Table τ} {i : ℕ} {p : Proc τ} (h : t.get i = some p) : i < t.size :=
  (List.getElem?_eq_some_iff.1 h).1

theorem findChild_spec {t : Table τ} {pid j : ℕ} (h : t.findChild pid = some j) :
    ∃ p, t.get j = some p ∧ p.held ∧ p.child ∧ p.pid = pid := by
  obtain ⟨hj, hp, -⟩ := List.findIdx?_eq_some_iff_getElem.1 h
  simp only [Bool.and_eq_true, beq_iff_eq] at hp
  exact ⟨t.procs[j], List.getElem?_eq_getElem hj, hp.1.1, hp.1.2, hp.2⟩

/-- A search among the processes that have the pid of `p` can only find `p`. -/
theorem findIdx?_of_get {t : Table τ} {i : ℕ} {p : Proc τ} (h : t.get i = some p)
    {f : Proc τ → Bool} (hf : f p) (honly : ∀ q, f q → q.held ∧ q.pid = p.pid) :
    t.procs.findIdx? f = some i := by
  cases hfind : t.procs.findIdx? f with
  | none =>
    have hnone := List.findIdx?_eq_none_iff.1 hfind p (List.mem_of_getElem? h)
    rw [hf] at hnone
    cases hnone
  | some j =>
    obtain ⟨hj, hq, -⟩ := List.findIdx?_eq_some_iff_getElem.1 hfind
    have hheld := (honly p hf).1
    have hother := honly _ hq
    rw [eq_of_pid (List.getElem?_eq_getElem hj) h hother.1 hheld hother.2]

theorem findChild_of_get {t : Table τ} {i : ℕ} {p : Proc τ} (h : t.get i = some p) (hp : p.held)
    (hc : p.child) : t.findChild p.pid = some i :=
  findIdx?_of_get h (by simp [hp, hc]) fun q hq => by
    simp only [Bool.and_eq_true, beq_iff_eq] at hq
    exact ⟨hq.1.1, hq.2⟩

theorem holder_of_get {t : Table τ} {i : ℕ} {p : Proc τ} (h : t.get i = some p) (hp : p.held) :
    t.holder p.pid = some i :=
  findIdx?_of_get h (by simp [hp]) fun q hq => by
    simpa only [Bool.and_eq_true, beq_iff_eq] using hq

/-! Operations. -/

/-- Replace one process by a later state of itself. -/
def advance (t : Table τ) (i : ℕ) (f : Proc τ → Proc τ) (hf : ∀ p : Proc τ, p.Later (f p)) :
    Table τ where
  procs := t.procs.modify i f
  distinct := by
    have hget : ∀ k (hk : k < (t.procs.modify i f).length),
        ∃ hk' : k < t.procs.length, (t.procs[k]).Later (t.procs.modify i f)[k] := by
      intro k hk
      have hk' : k < t.procs.length := by simpa using hk
      refine ⟨hk', ?_⟩
      rw [List.getElem_modify]
      split
      · exact hf _
      · exact .refl _
    rw [List.pairwise_iff_getElem]
    intro k l hk hl hkl hp hq
    obtain ⟨hk', hlk⟩ := hget k hk
    obtain ⟨hl', hll⟩ := hget l hl
    rw [hlk.pid, hll.pid]
    exact List.pairwise_iff_getElem.1 t.distinct k l hk' hl' hkl (hlk.held hp) (hll.held hq)

theorem get_advance (t : Table τ) (i : ℕ) (f : Proc τ → Proc τ) (hf : ∀ p : Proc τ, p.Later (f p))
    (j : ℕ) : (t.advance i f hf).get j = if j = i then (t.get j).map f else t.get j := by
  simp only [get, advance, List.getElem?_modify]
  by_cases hij : i = j
  · simp [hij]
  · simp [hij, Ne.symm hij]

/-- Where the process is known, so is what it becomes. -/
theorem get_advance_of_get {t : Table τ} {i : ℕ} {f : Proc τ → Proc τ}
    {hf : ∀ p : Proc τ, p.Later (f p)} {p q : Proc τ} (hp : t.get i = some p) (hq : f p = q) (j : ℕ) :
    (t.advance i f hf).get j = if j = i then some q else t.get j := by
  rw [get_advance]
  split
  · rename_i hj
    rw [hj, hp, Option.map_some, hq]
  · rfl

/-- The kernel gives out only pids that no process holds. -/
def fork (t : Table τ) (pid : ℕ) (tag : τ) (child : Bool) : Option (Table τ) :=
  if h : t.inUse pid = false then
    some {
      procs := t.procs ++ [⟨pid, tag, child, .alive⟩]
      distinct := by
        rw [List.pairwise_append]
        refine ⟨t.distinct, List.pairwise_singleton _ _, fun p hp q hq hheld _ => ?_⟩
        obtain ⟨i, hi⟩ := List.mem_iff_getElem?.1 hp
        rw [List.mem_singleton.1 hq]
        exact inUse_eq_false.1 h i p hi hheld }
  else none

/-- Move to a status, if the change is one that a process can make. -/
def become (s : Status) (p : Proc τ) : Proc τ :=
  match p.status, s with
  | .alive, s => { p with status := s }
  | .zombie st, .gone st' => if st = st' then { p with status := .gone st } else p
  | _, _ => p

theorem later_become (s : Status) (p : Proc τ) : p.Later (become s p) := by
  unfold become
  split
  · rename_i h
    exact ⟨rfl, rfl, id, fun st hst => by simp [Proc.ended, h] at hst,
      fun _ => Proc.held_of_alive h⟩
  · rename_i st st' h
    split
    · exact ⟨rfl, rfl, id, fun st hst => by simpa [Proc.ended, h] using hst,
        fun _ => Proc.held_of_zombie h⟩
    · exact .refl p
  · exact .refl p

/-- A running process ends. -/
def exit (t : Table τ) (i : ℕ) (st : WaitStatus) : Option (Table τ) :=
  match t.get i with
  | some p => if p.status = .alive then some (t.advance i (become (.zombie st)) (later_become _))
    else none
  | none => none

/-- A zombie is waited for by its parent: the keeper of the table if `child`, else some other
process. -/
def collect (t : Table τ) (i : ℕ) (child : Bool) : Option (WaitStatus × Table τ) :=
  match t.get i with
  | some p =>
    match p.status with
    | .zombie st =>
      if p.child = child then some (st, t.advance i (become (.gone st)) (later_become _)) else none
    | _ => none
  | none => none

/-- A process whose parent ended becomes a child of the keeper of the table. -/
def adopt (t : Table τ) (i : ℕ) : Option (Table τ) :=
  match t.get i with
  | some p =>
    if p.held then
      some (t.advance i (fun p => { p with child := true })
        fun _ => ⟨rfl, rfl, fun _ => rfl, fun _ h => h, id⟩)
    else none
  | none => none

/-! What the operations do to the entries. -/

theorem get_fork {t t' : Table τ} {pid : ℕ} {tag : τ} {child : Bool}
    (h : t.fork pid tag child = some t') :
    t.inUse pid = false ∧
      ∀ j, t'.get j = if j = t.size then some ⟨pid, tag, child, .alive⟩ else t.get j := by
  unfold fork at h
  split at h
  · rename_i hfree
    cases h
    refine ⟨hfree, fun j => ?_⟩
    by_cases hj : j = t.size
    · simp [hj, get, size]
    · rw [if_neg hj]
      unfold size at hj
      unfold get
      rcases Nat.lt_or_gt_of_ne hj with hlt | hgt
      · rw [List.getElem?_append_left hlt]
      · rw [List.getElem?_eq_none (by simp; omega), List.getElem?_eq_none (by omega)]
  · cases h

theorem get_exit {t t' : Table τ} {i : ℕ} {st : WaitStatus} (h : t.exit i st = some t') :
    ∃ p, t.get i = some p ∧ p.status = .alive ∧
      ∀ j, t'.get j = if j = i then some { p with status := .zombie st } else t.get j := by
  unfold exit at h
  cases hp : t.get i with
  | none => simp [hp] at h
  | some p =>
    simp only [hp] at h
    split at h
    · rename_i hst
      cases h
      exact ⟨p, rfl, hst, get_advance_of_get hp (by simp [become, hst])⟩
    · cases h

theorem get_collect {t t' : Table τ} {i : ℕ} {child : Bool} {st : WaitStatus}
    (h : t.collect i child = some (st, t')) :
    ∃ p, t.get i = some p ∧ p.child = child ∧ p.status = .zombie st ∧
      ∀ j, t'.get j = if j = i then some { p with status := .gone st } else t.get j := by
  unfold collect at h
  cases hp : t.get i with
  | none => simp [hp] at h
  | some p =>
    simp only [hp] at h
    split at h
    · rename_i st' hst
      split at h
      · rename_i hchild
        cases h
        exact ⟨p, rfl, hchild, hst, get_advance_of_get hp (by simp [become, hst])⟩
      · cases h
    · cases h

theorem get_adopt {t t' : Table τ} {i : ℕ} (h : t.adopt i = some t') :
    ∃ p, t.get i = some p ∧ p.held ∧
      ∀ j, t'.get j = if j = i then some { p with child := true } else t.get j := by
  unfold adopt at h
  cases hp : t.get i with
  | none => simp [hp] at h
  | some p =>
    simp only [hp] at h
    split at h
    · rename_i hheld
      cases h
      exact ⟨p, rfl, hheld, get_advance_of_get hp rfl⟩
    · cases h

/-! Time. -/

/-- Every process of `t` is still there in `t'`. -/
def Later (t t' : Table τ) : Prop :=
  ∀ i p, t.get i = some p → ∃ p', t'.get i = some p' ∧ p.Later p'

theorem Later.refl (t : Table τ) : t.Later t := fun _ p h => ⟨p, h, .refl p⟩

theorem later_of_get {t t' : Table τ} {i : ℕ} {p q : Proc τ} (hi : t.get i = some p)
    (h : ∀ j, t'.get j = if j = i then some q else t.get j) (hpq : p.Later q) : t.Later t' := by
  intro j r hr
  rw [h j]
  by_cases hj : j = i
  · subst hj
    rw [hi] at hr
    cases hr
    exact ⟨q, if_pos rfl, hpq⟩
  · exact ⟨r, by rw [if_neg hj, hr], .refl r⟩

theorem later_fork {t t' : Table τ} {pid : ℕ} {tag : τ} {child : Bool}
    (h : t.fork pid tag child = some t') : t.Later t' := by
  intro j p hj
  have hlt := lt_size_of_get hj
  refine ⟨p, ?_, .refl p⟩
  rw [(get_fork h).2 j, if_neg (by omega), hj]

theorem later_exit {t t' : Table τ} {i : ℕ} {st : WaitStatus} (h : t.exit i st = some t') :
    t.Later t' := by
  obtain ⟨p, hp, halive, hget⟩ := get_exit h
  refine later_of_get hp hget
    ⟨rfl, rfl, id, fun st' hst' => ?_, fun _ => Proc.held_of_alive halive⟩
  simp [Proc.ended, halive] at hst'

theorem later_collect {t t' : Table τ} {i : ℕ} {child : Bool} {st : WaitStatus}
    (h : t.collect i child = some (st, t')) : t.Later t' := by
  obtain ⟨p, hp, -, hzombie, hget⟩ := get_collect h
  refine later_of_get hp hget
    ⟨rfl, rfl, id, fun st' hst' => ?_, fun _ => Proc.held_of_zombie hzombie⟩
  simpa [Proc.ended, hzombie] using hst'

theorem later_adopt {t t' : Table τ} {i : ℕ} (h : t.adopt i = some t') : t.Later t' := by
  obtain ⟨p, hp, -, hget⟩ := get_adopt h
  exact later_of_get hp hget ⟨rfl, rfl, fun _ => rfl, fun _ h => h, id⟩

end Table
end ProcTable
