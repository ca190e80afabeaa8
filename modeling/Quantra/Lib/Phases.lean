import Mathlib.Data.List.Perm.Subperm
import Mathlib.Data.List.Pairwise

/-! Work done in phases: within a phase in any order and possibly only in part, the phases one
after another. -/
namespace Phases

variable {α : Type*} {R : α → α → Prop}

/-- `order` goes through some of the elements of each phase, phase after phase. -/
def IsOrder (phases : List (List α)) (order : List α) : Prop :=
  ∃ parts : List (List α), List.Forall₂ (fun part phase => part.Subperm phase) parts phases ∧
    order = parts.flatten

/-- Leaving elements out of the plain order gives an order. -/
theorem isOrder_of_sublist {phases : List (List α)} {order : List α}
    (h : order.Sublist phases.flatten) : IsOrder phases order := by
  induction phases generalizing order with
  | nil =>
    refine ⟨[], .nil, ?_⟩
    simpa using h
  | cons phase phases ih =>
    rw [List.flatten_cons, List.sublist_append_iff] at h
    obtain ⟨part, rest, rfl, hpart, hrest⟩ := h
    obtain ⟨parts, hparts, rfl⟩ := ih hrest
    exact ⟨part :: parts, .cons hpart.subperm hparts, rfl⟩

theorem isOrder_flatten (phases : List (List α)) : IsOrder phases phases.flatten :=
  isOrder_of_sublist (List.Sublist.refl _)

theorem isOrder_reverse (phases : List (List α)) :
    IsOrder phases (phases.map List.reverse).flatten := by
  refine ⟨phases.map List.reverse, ?_, rfl⟩
  rw [List.forall₂_map_left_iff, List.forall₂_same]
  exact fun phase _ => (List.reverse_perm phase).subperm

theorem IsOrder.mem_flatten {phases : List (List α)} {order : List α} (h : IsOrder phases order)
    {a : α} (ha : a ∈ order) : a ∈ phases.flatten := by
  obtain ⟨parts, hparts, rfl⟩ := h
  obtain ⟨part, hpart, hmem⟩ := List.mem_flatten.1 ha
  obtain ⟨i, hi, rfl⟩ := List.mem_iff_getElem.1 hpart
  have hlen := hparts.length_eq
  have hsub : (parts[i]).Subperm phases[i] := hparts.get hi (by omega)
  exact List.mem_flatten.2 ⟨_, List.getElem_mem (by omega), hsub.subset hmem⟩

private theorem pairwise_of_subperm {part phase : List α} (hpart : part.Subperm phase)
    (hsymm : ∀ a b, R a b → R b a) (hphase : phase.Pairwise R) : part.Pairwise R := by
  obtain ⟨l, hperm, hsub⟩ := hpart
  exact (hperm.pairwise_iff (fun h => hsymm _ _ h)).1 (hphase.sublist hsub)

/-- Cross-phase pairs keep their order in every part. -/
private theorem cross_of_forall₂ {parts phases : List (List α)}
    (hparts : List.Forall₂ (fun part phase => part.Subperm phase) parts phases)
    (hcross : phases.Pairwise fun p q => ∀ a ∈ p, ∀ b ∈ q, R a b) :
    parts.Pairwise fun p q => ∀ a ∈ p, ∀ b ∈ q, R a b := by
  induction hparts with
  | nil => exact .nil
  | @cons part phase parts phases hpart hrest ih =>
    rw [List.pairwise_cons] at hcross ⊢
    refine ⟨fun q hq a ha b hb => ?_, ih hcross.2⟩
    obtain ⟨phase', hphase', hsub⟩ : ∃ phase' ∈ phases, q.Subperm phase' := by
      obtain ⟨i, hi, rfl⟩ := List.mem_iff_getElem.1 hq
      have hlen := hrest.length_eq
      exact ⟨_, List.getElem_mem (by omega), hrest.get hi (by omega)⟩
    exact hcross.1 phase' hphase' a (hpart.subset ha) b (hsub.subset hb)

/-- All orders are sorted exactly when the phases are sorted among each other and the elements of
one phase are related in both directions. -/
theorem forall_isOrder_pairwise_iff {phases : List (List α)} :
    (∀ order, IsOrder phases order → order.Pairwise R) ↔
      (∀ phase ∈ phases, phase.Pairwise fun a b => R a b ∧ R b a) ∧
      phases.Pairwise fun p q => ∀ a ∈ p, ∀ b ∈ q, R a b := by
  constructor
  · intro h
    have hforward := List.pairwise_flatten.1 (h _ (isOrder_flatten phases))
    have hbackward := List.pairwise_flatten.1 (h _ (isOrder_reverse phases))
    refine ⟨fun phase hphase => ?_, hforward.2⟩
    have hrev := hbackward.1 _ (List.mem_map_of_mem hphase)
    rw [List.pairwise_reverse] at hrev
    exact (hforward.1 phase hphase).and hrev
  · rintro ⟨hwithin, hcross⟩ order ⟨parts, hparts, rfl⟩
    rw [List.pairwise_flatten]
    refine ⟨fun part hpart => ?_, cross_of_forall₂ hparts hcross⟩
    obtain ⟨i, hi, rfl⟩ := List.mem_iff_getElem.1 hpart
    have hlen := hparts.length_eq
    have hsub : (parts[i]).Subperm phases[i] := hparts.get hi (by omega)
    have hboth := pairwise_of_subperm hsub (fun _ _ h => ⟨h.2, h.1⟩)
      (hwithin _ (List.getElem_mem (by omega)))
    exact hboth.imp fun h => h.1

end Phases
