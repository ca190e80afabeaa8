import Mathlib.Data.Finset.Basic
import Mathlib.Data.Finset.Lattice.Lemmas

/-! The changes from one finite set to another, and a table of states that follows such tellings. -/
namespace Changes

inductive Change (α : Type*)
  | add (a : α)
  | remove (a : α)

section Sets
variable {α : Type*} [DecidableEq α] {old new : List α}

def Change.apply (s : Finset α) : Change α → Finset α
  | .add a => insert a s
  | .remove a => s.erase a

/-- First what is new, then what is gone. -/
def between (old new : List α) : List (Change α) :=
  (new.filter (· ∉ old)).map .add ++ (old.filter (· ∉ new)).map .remove

theorem foldl_add (as : List α) (s : Finset α) :
    (as.map Change.add).foldl Change.apply s = s ∪ as.toFinset := by
  induction as generalizing s with
  | nil => rw [List.map_nil, List.foldl_nil, List.toFinset_nil, Finset.union_empty]
  | cons a as ih =>
    rw [List.map_cons, List.foldl_cons, ih, List.toFinset_cons, Finset.union_insert]
    exact Finset.insert_union a s as.toFinset

theorem foldl_remove (as : List α) (s : Finset α) :
    (as.map Change.remove).foldl Change.apply s = s \ as.toFinset := by
  induction as generalizing s with
  | nil => rw [List.map_nil, List.foldl_nil, List.toFinset_nil, Finset.sdiff_empty]
  | cons a as ih =>
    rw [List.map_cons, List.foldl_cons, ih, List.toFinset_cons, Finset.sdiff_insert]
    exact Finset.erase_sdiff_comm s as.toFinset a

/-- The changes lead from the one set to the other. -/
theorem foldl_between : (between old new).foldl Change.apply old.toFinset = new.toFinset := by
  rw [between, List.foldl_append, foldl_add, foldl_remove]
  ext a
  simp only [Finset.mem_sdiff, Finset.mem_union, List.mem_toFinset, List.mem_filter,
    decide_eq_true_eq]
  tauto

/-- Nothing is told of equal sets only. -/
theorem between_eq_nil_iff : between old new = [] ↔ old.toFinset = new.toFinset := by
  constructor
  · intro h
    have hlead : (between old new).foldl Change.apply old.toFinset = new.toFinset := foldl_between
    rw [h] at hlead
    exact hlead
  · intro h
    have hsame (a : α) : a ∈ old ↔ a ∈ new := by
      rw [← List.mem_toFinset, h, List.mem_toFinset]
    rw [between, List.append_eq_nil_iff, List.map_eq_nil_iff, List.map_eq_nil_iff,
      List.filter_eq_nil_iff, List.filter_eq_nil_iff]
    constructor
    · intro a ha hnot
      exact of_decide_eq_true hnot ((hsame a).2 ha)
    · intro a ha hnot
      exact of_decide_eq_true hnot ((hsame a).1 ha)

end Sets

section Keyed
variable {κ σ ε : Type*} [DecidableEq κ] (key : ε → κ) (told : σ → ε → σ)

/-- An event changes the state that it is about, if there is one. -/
def follow (m : κ → Option σ) (e : ε) : κ → Option σ :=
  fun k => if key e = k then (m k).map fun s => told s e else m k

/-- Every state follows the events about it. -/
theorem foldl_follow (es : List ε) (m : κ → Option σ) (k : κ) :
    es.foldl (follow key told) m k = (m k).map ((es.filter fun e => key e = k).foldl told) := by
  induction es generalizing m with
  | nil => exact Option.map_id'.symm
  | cons e es ih =>
    rw [List.foldl_cons, ih, follow]
    by_cases hk : key e = k
    · have hfilter : (e :: es).filter (fun e => key e = k) = e :: es.filter fun e => key e = k :=
        List.filter_cons_of_pos (decide_eq_true hk)
      rw [if_pos hk, hfilter, Option.map_map]
      rfl
    · have hfilter : (e :: es).filter (fun e => key e = k) = es.filter fun e => key e = k :=
        List.filter_cons_of_neg (by rwa [decide_eq_true_eq])
      rw [if_neg hk, hfilter]

/-- Of events that are told thing by thing, those about one of the things. -/
theorem filter_flatMap {α : Type*} {name : α → κ} {f : α → List ε} {as : List α}
    (hf : ∀ a, ∀ e ∈ f a, key e = name a) (h : (as.map name).Nodup) (k : κ) :
    (as.flatMap f).filter (fun e => key e = k) = ((as.find? fun a => name a = k).map f).getD [] := by
  induction as with
  | nil => rfl
  | cons a as ih =>
    rw [List.map_cons, List.nodup_cons] at h
    rw [List.flatMap_cons, List.filter_append, ih h.2, List.find?_cons]
    by_cases hk : name a = k
    · have hrest : as.find? (fun b => name b = k) = none := by
        rw [List.find?_eq_none]
        intro b hb hname
        have heq := of_decide_eq_true hname
        exact h.1 (List.mem_map.2 ⟨b, hb, heq.trans hk.symm⟩)
      have hall : (f a).filter (fun e => key e = k) = f a := by
        rw [List.filter_eq_self]
        intro e he
        exact decide_eq_true ((hf a e he).trans hk)
      rw [hrest, hall, decide_eq_true hk]
      exact List.append_nil (f a)
    · have hnone : (f a).filter (fun e => key e = k) = [] := by
        rw [List.filter_eq_nil_iff]
        intro e he hkey
        exact hk ((hf a e he).symm.trans (of_decide_eq_true hkey))
      rw [hnone, decide_eq_false hk]
      rfl

end Keyed

end Changes
