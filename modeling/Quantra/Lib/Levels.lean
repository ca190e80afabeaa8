import Mathlib.Data.Set.Finite.Basic
import Mathlib.Data.Finset.Lattice.Fold
import Mathlib.Logic.Relation
import Mathlib.Order.Bounds.Basic
import Mathlib.Order.WellFounded
import Mathlib.Data.Fintype.Order

/-! Levels of a directed graph: the level of a vertex is the length of the longest chain of
edges that ends in it. A finite graph has levels everywhere exactly when it has no cycle. -/
namespace Levels

variable {α : Type*} (r : α → α → Prop)

/-- `ChainTo r k v`: some chain of `k` edges of `r` ends in `v`. -/
inductive ChainTo : ℕ → α → Prop
  | nil (v : α) : ChainTo 0 v
  | snoc {k : ℕ} {u v : α} : ChainTo k u → r u v → ChainTo (k + 1) v

/-- The first `k` levels: `v` belongs to them when every predecessor lies in the first `k - 1`. -/
def Peeled : ℕ → α → Prop
  | 0, _ => False
  | k + 1, v => ∀ u, r u v → Peeled k u

/-- `v` has a chain of `k` edges ending in it and no longer one. -/
def AtLevel (k : ℕ) (v : α) : Prop := Peeled r (k + 1) v ∧ ¬ Peeled r k v

/-- No vertex reaches itself along at least one edge. -/
def Acyclic : Prop := ∀ v, ¬ Relation.TransGen r v v

variable {r}

theorem peeled_succ {k : ℕ} {v : α} (h : Peeled r k v) : Peeled r (k + 1) v := by
  induction k generalizing v with
  | zero => exact h.elim
  | succ k ih => exact fun u hu => ih (h u hu)

theorem peeled_mono {k l : ℕ} {v : α} (hkl : k ≤ l) (h : Peeled r k v) : Peeled r l v := by
  induction hkl with
  | refl => exact h
  | step _ ih => exact peeled_succ ih

theorem not_peeled_iff_chainTo {k : ℕ} {v : α} : ¬ Peeled r k v ↔ ChainTo r k v := by
  induction k generalizing v with
  | zero => exact ⟨fun _ => .nil v, fun _ h => h⟩
  | succ k ih =>
    constructor
    · intro h
      simp only [Peeled, not_forall] at h
      obtain ⟨u, huv, hu⟩ := h
      exact .snoc (ih.mp hu) huv
    · rintro (_ | ⟨hu, huv⟩) h
      exact ih.mpr hu (h _ huv)

theorem chainTo_mono {k l : ℕ} {v : α} (hkl : k ≤ l) (h : ChainTo r l v) : ChainTo r k v :=
  not_peeled_iff_chainTo.mp fun hk => not_peeled_iff_chainTo.mpr h (peeled_mono hkl hk)

/-- The level of a vertex is the length of its longest chain. -/
theorem atLevel_iff_isGreatest {k : ℕ} {v : α} :
    AtLevel r k v ↔ IsGreatest {m | ChainTo r m v} k := by
  constructor
  · rintro ⟨hs, hk⟩
    refine ⟨not_peeled_iff_chainTo.mp hk, fun m hm => ?_⟩
    by_contra hlt
    exact not_peeled_iff_chainTo.mpr (chainTo_mono (by omega : k + 1 ≤ m) hm) hs
  · rintro ⟨hk, hmax⟩
    refine ⟨?_, not_peeled_iff_chainTo.mpr hk⟩
    by_contra hs
    have := hmax (not_peeled_iff_chainTo.mp hs)
    omega

theorem AtLevel.unique {k l : ℕ} {v : α} (hk : AtLevel r k v) (hl : AtLevel r l v) : k = l :=
  (atLevel_iff_isGreatest.mp hk).unique (atLevel_iff_isGreatest.mp hl)

theorem exists_atLevel_of_peeled {k : ℕ} {v : α} (h : Peeled r k v) :
    ∃ l, l < k ∧ AtLevel r l v := by
  induction k with
  | zero => exact h.elim
  | succ k ih =>
    by_cases hk : Peeled r k v
    · obtain ⟨l, hl, hlv⟩ := ih hk
      exact ⟨l, by omega, hlv⟩
    · exact ⟨k, by omega, h, hk⟩

/-- Levels strictly increase along every edge. -/
theorem AtLevel.lt_of_edge {k l : ℕ} {u v : α} (hu : AtLevel r k u) (hv : AtLevel r l v)
    (huv : r u v) : k < l := by
  have hc : ChainTo r (k + 1) v := .snoc (not_peeled_iff_chainTo.mp hu.2) huv
  exact (atLevel_iff_isGreatest.mp hv).2 hc

/-- A graph in which every vertex has a level has no cycle. -/
theorem acyclic_of_peeled (h : ∀ v, (∃ u, r u v) → ∃ k, Peeled r k v) : Acyclic r := by
  have hlevel : ∀ v, ∃ k, AtLevel r k v := by
    intro v
    by_cases hv : ∃ u, r u v
    · obtain ⟨k, hk⟩ := h v hv
      obtain ⟨l, -, hl⟩ := exists_atLevel_of_peeled hk
      exact ⟨l, hl⟩
    · exact ⟨0, fun u hu => (hv ⟨u, hu⟩).elim, id⟩
  have hlt : ∀ u v, Relation.TransGen r u v → ∀ k l, AtLevel r k u → AtLevel r l v → k < l := by
    intro u v huv
    induction huv with
    | single h1 => exact fun k l hk hl => hk.lt_of_edge hl h1
    | @tail b c _ hbc ih =>
      intro k l hk hl
      obtain ⟨m, hm⟩ := hlevel b
      exact (ih k m hk hm).trans (hm.lt_of_edge hl hbc)
  intro v hv
  obtain ⟨k, hk⟩ := hlevel v
  exact lt_irrefl k (hlt v v hv k k hk hk)

theorem acyclic_of_rank (rank : α → ℕ) (h : ∀ u v, r u v → rank u < rank v) : Acyclic r := by
  have hlt : ∀ u v, Relation.TransGen r u v → rank u < rank v := by
    intro u v huv
    induction huv with
    | single h1 => exact h _ _ h1
    | tail _ hbc ih => exact ih.trans (h _ _ hbc)
  exact fun v hv => lt_irrefl _ (hlt v v hv)

/-- A vertex whose predecessors all have levels has one, if edges start in a finite set. -/
private theorem peeled_of_preds {s : Set α} (hs : s.Finite) (hsrc : ∀ u v, r u v → u ∈ s) {v : α}
    (h : ∀ u, r u v → ∃ k, Peeled r k u) : ∃ k, Peeled r k v := by
  choose! f hf using h
  obtain ⟨m, hm⟩ := (hs.image f).bddAbove
  exact ⟨m + 1, fun u hu => peeled_mono (hm (Set.mem_image_of_mem f (hsrc u v hu))) (hf u hu)⟩

/-- In an acyclic graph whose edges start in a finite set, every vertex has a level. -/
theorem exists_peeled_of_acyclic {s : Set α} (hs : s.Finite) (hsrc : ∀ u v, r u v → u ∈ s)
    (hr : Acyclic r) (v : α) : ∃ k, Peeled r k v := by
  have hwf : WellFounded (fun u v : s => Relation.TransGen r u v) := by
    have : Finite s := hs
    have : IsTrans s (fun u v : s => Relation.TransGen r u v) := ⟨fun _ _ _ h h' => h.trans h'⟩
    have : Std.Irrefl (fun u v : s => Relation.TransGen r u v) := ⟨fun u => hr u⟩
    exact Finite.wellFounded_of_trans_of_irrefl _
  have hsrcs : ∀ u : s, ∃ k, Peeled r k u := by
    intro u
    induction u using hwf.induction with
    | _ u ih => exact peeled_of_preds hs hsrc fun w hw => ih ⟨w, hsrc w u hw⟩ (.single hw)
  exact peeled_of_preds hs hsrc fun w hw => hsrcs ⟨w, hsrc w v hw⟩

/-- A map that preserves edges carries chains along. -/
theorem ChainTo.map {β : Type*} {t : β → β → Prop} (f : α → β)
    (hf : ∀ u v, r u v → t (f u) (f v)) {k : ℕ} {v : α} (h : ChainTo r k v) :
    ChainTo t k (f v) := by
  induction h with
  | nil v => exact .nil _
  | snoc _ huv ih => exact .snoc ih (hf _ _ huv)

/-- A map that preserves edges carries cycles along. -/
theorem Acyclic.of_map {β : Type*} {t : β → β → Prop} (f : α → β)
    (hf : ∀ u v, r u v → t (f u) (f v)) (h : Acyclic t) : Acyclic r :=
  fun v hv => h (f v) (hv.lift f hf)

end Levels
