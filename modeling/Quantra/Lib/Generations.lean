import Mathlib.Algebra.BigOperators.Group.List.Basic
import Mathlib.Algebra.GroupWithZero.Nat
import Mathlib.Data.List.Infix
import Mathlib.Data.Nat.Notation

/-! A log in two generations: records are appended to the current one, and a rotation makes it the
old one, in place of the one before. -/

structure Generations (α : Type*) where
  old : List α
  current : List α

namespace Generations

variable {α : Type*}

def push (g : Generations α) (a : α) : Generations α := { g with current := g.current ++ [a] }

def rotate (g : Generations α) : Generations α := ⟨g.current, []⟩

/-- What is still there, the oldest first. -/
def kept (g : Generations α) : List α := g.old ++ g.current

/-- A record, and whether a rotation follows. -/
def write (g : Generations α) (e : α × Bool) : Generations α :=
  if e.2 then (g.push e.1).rotate else g.push e.1

def run (g : Generations α) (es : List (α × Bool)) : Generations α := es.foldl write g

variable {g : Generations α} {a : α} {e : α × Bool} {es : List (α × Bool)}

theorem run_nil : g.run [] = g := rfl

theorem run_cons : g.run (e :: es) = (g.write e).run es := rfl

theorem run_concat : g.run (es ++ [e]) = (g.run es).write e := by
  unfold run
  rw [List.foldl_append]
  rfl

theorem kept_push : (g.push a).kept = g.kept ++ [a] := (List.append_assoc g.old g.current [a]).symm

theorem kept_rotate_suffix : g.rotate.kept <:+ g.kept := by
  unfold rotate kept
  rw [List.append_nil]
  exact List.suffix_append g.old g.current

theorem kept_write_suffix : (g.write e).kept <:+ g.kept ++ [e.1] := by
  unfold write
  rw [← kept_push]
  split
  · exact kept_rotate_suffix
  · exact List.suffix_rfl

/-- Nothing is lost but from the front, and nothing is changed or comes twice. -/
theorem kept_run_suffix (g : Generations α) (es : List (α × Bool)) :
    (g.run es).kept <:+ g.kept ++ es.map Prod.fst := by
  induction es generalizing g with
  | nil =>
    rw [run_nil, List.map_nil, List.append_nil]
  | cons e es ih =>
    obtain ⟨front, hfront⟩ := kept_write_suffix (g := g) (e := e)
    have hmore : (g.write e).kept ++ es.map Prod.fst <:+ g.kept ++ (e :: es).map Prod.fst := by
      refine ⟨front, ?_⟩
      rw [← List.append_assoc, hfront, List.append_assoc, List.map_cons, List.singleton_append]
    rw [run_cons]
    exact (ih (g.write e)).trans hmore

/-- What is in the current generation are the last records. -/
theorem current_run_suffix (g : Generations α) (es : List (α × Bool)) :
    (g.run es).current <:+ g.current ++ es.map Prod.fst := by
  induction es generalizing g with
  | nil =>
    rw [run_nil, List.map_nil, List.append_nil]
  | cons e es ih =>
    have hone : (g.write e).current <:+ g.current ++ [e.1] := by
      unfold write
      split
      · exact List.nil_suffix
      · exact List.suffix_rfl
    have hmore : (g.write e).current ++ es.map Prod.fst <:+ g.current ++ (e :: es).map Prod.fst := by
      obtain ⟨front, hfront⟩ := hone
      refine ⟨front, ?_⟩
      rw [← List.append_assoc, hfront, List.append_assoc, List.map_cons, List.singleton_append]
    rw [run_cons]
    exact (ih (g.write e)).trans hmore

/-! Rotations that wait for the current generation to be large. -/

section Weight
variable (weight : α → ℕ) (limit : ℕ)

def load (as : List α) : ℕ := (as.map weight).sum

/-- A rotation follows only what makes the current generation reach the limit. -/
def Patient : Generations α → List (α × Bool) → Prop
  | _, [] => True
  | g, e :: es => (e.2 → limit ≤ load weight (g.push e.1).current) ∧ Patient (g.write e) es

/-- And one follows whenever it is reached. -/
def Prompt : Generations α → List (α × Bool) → Prop
  | _, [] => True
  | g, e :: es => (limit ≤ load weight (g.push e.1).current → e.2) ∧ Prompt (g.write e) es

variable {weight limit}

theorem load_append (as bs : List α) : load weight (as ++ bs) = load weight as + load weight bs := by
  unfold load
  rw [List.map_append, List.sum_append]

theorem load_singleton (a : α) : load weight [a] = weight a := by
  unfold load
  rw [List.map_singleton, List.sum_singleton]

theorem load_push : load weight (g.push a).current = load weight g.current + weight a := by
  unfold push
  rw [load_append, load_singleton]

/-- What is dropped is dropped for a full generation: all is there, or at least the limit. -/
theorem kept_run_of_patient {all : List α} (h : Patient weight limit g es)
    (hg : g.kept = all ∨ limit ≤ load weight g.kept) :
    (g.run es).kept = all ++ es.map Prod.fst ∨ limit ≤ load weight (g.run es).kept := by
  induction es generalizing g all with
  | nil =>
    rw [run_nil, List.map_nil, List.append_nil]
    exact hg
  | cons e es ih =>
    obtain ⟨hrotates, hrest⟩ := h
    have hnext : (g.write e).kept = all ++ [e.1] ∨ limit ≤ load weight (g.write e).kept := by
      by_cases he : e.2
      · -- a rotation keeps the generation that it was made for
        have hwrite : g.write e = (g.push e.1).rotate := if_pos he
        have hkept : (g.push e.1).rotate.kept = (g.push e.1).current := List.append_nil _
        rw [hwrite, hkept]
        exact .inr (hrotates he)
      · have hwrite : g.write e = g.push e.1 := if_neg he
        rw [hwrite, kept_push]
        rcases hg with hg | hg
        · exact .inl (congrArg (· ++ [e.1]) hg)
        · rw [load_append]
          exact .inr (by omega)
    have hrun := ih hrest hnext
    rw [List.append_assoc] at hrun
    exact hrun

/-- Without enough for a full generation there is no rotation. -/
theorem current_run_of_light (h : Patient weight limit g es)
    (hlight : load weight (g.current ++ es.map Prod.fst) < limit) :
    (g.run es).current = g.current ++ es.map Prod.fst := by
  induction es generalizing g with
  | nil =>
    rw [run_nil, List.map_nil, List.append_nil]
  | cons e es ih =>
    obtain ⟨hrotates, hrest⟩ := h
    have hall : g.current ++ (e :: es).map Prod.fst = (g.push e.1).current ++ es.map Prod.fst := by
      unfold push
      rw [List.map_cons, List.append_assoc, List.singleton_append]
    rw [hall] at hlight ⊢
    have hfull : ¬e.2 := by
      intro he
      have hle := hrotates he
      rw [load_append] at hlight
      omega
    have hwrite : g.write e = g.push e.1 := if_neg hfull
    rw [hwrite] at hrest
    rw [run_cons, hwrite]
    exact ih hrest hlight

/-- So many records are dropped from the front: none, or as many as leave a full generation. -/
theorem exists_drop_of_patient (h : Patient weight limit g es) :
    ∃ n, (g.run es).kept = (g.kept ++ es.map Prod.fst).drop n ∧
      (n = 0 ∨ limit ≤ load weight (g.run es).kept) := by
  rcases kept_run_of_patient h (.inl rfl) with hall | hfull
  · exact ⟨0, hall, .inl rfl⟩
  · obtain ⟨front, hfront⟩ := kept_run_suffix g es
    refine ⟨front.length, ?_, .inr hfull⟩
    rw [← hfront, List.drop_left]

/-- The current generation stays below the limit, and the old one is over it by less than its last
record. -/
theorem load_run_of_prompt {most : ℕ} (h : Prompt weight limit g es) (hpos : 0 < limit)
    (hmost : ∀ e ∈ es, weight e.1 ≤ most) (hcurrent : load weight g.current < limit)
    (hold : load weight g.old < limit + most) :
    load weight (g.run es).current < limit ∧ load weight (g.run es).old < limit + most := by
  induction es generalizing g with
  | nil => exact ⟨hcurrent, hold⟩
  | cons e es ih =>
    obtain ⟨hrotates, hrest⟩ := h
    have hone := hmost e List.mem_cons_self
    have hpush : load weight (g.push e.1).current = load weight g.current + weight e.1 := load_push
    have hlater : ∀ e ∈ es, weight e.1 ≤ most := fun e' he' => hmost e' (List.mem_cons_of_mem e he')
    rw [run_cons]
    by_cases he : e.2
    · have hwrite : g.write e = (g.push e.1).rotate := if_pos he
      rw [hwrite] at hrest ⊢
      apply ih hrest hlater
      · exact hpos
      · show load weight (g.push e.1).current < limit + most
        omega
    · have hwrite : g.write e = g.push e.1 := if_neg he
      rw [hwrite] at hrest ⊢
      apply ih hrest hlater
      · by_contra hfull
        exact he (hrotates (by omega))
      · exact hold

end Weight

end Generations
