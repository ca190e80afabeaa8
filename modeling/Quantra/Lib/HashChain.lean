import Mathlib.Data.List.Basic
import Mathlib.Data.List.Induction

/-! Registers that are extended by hashes, under an ideal hash. -/
namespace HashChain

/-- A hash that never maps two texts to one digest. The bytes of two digests put together can be
cut apart again, and the start value of a register is no hash of such. -/
structure IdealHash (D : Type*) where
  hash : List UInt8 → D
  bytes : D → List UInt8
  zero : D
  hash_inj : ∀ {m n}, hash m = hash n → m = n
  cut : ∀ {a b c d}, bytes a ++ bytes b = bytes c ++ bytes d → a = c ∧ b = d
  zero_fresh : ∀ a b, hash (bytes a ++ bytes b) ≠ zero

variable {D : Type*} (H : IdealHash D)

def extend (r digest : D) : D := H.hash (H.bytes r ++ H.bytes digest)

/-- The register after the hashes of a list of texts. -/
def chain (texts : List (List UInt8)) : D := texts.foldl (fun r m => extend H r (H.hash m)) H.zero

variable {H} {a b c d : D} {ms ns : List (List UInt8)}

theorem bytes_inj (h : H.bytes a = H.bytes b) : a = b := by
  have hcut : H.bytes a ++ H.bytes a = H.bytes b ++ H.bytes a := by rw [h]
  exact (H.cut hcut).1

theorem extend_inj (h : extend H a b = extend H c d) : a = c ∧ b = d := H.cut (H.hash_inj h)

theorem chain_concat (m : List UInt8) : chain H (ms ++ [m]) = extend H (chain H ms) (H.hash m) := by
  rw [chain, List.foldl_append]
  rfl

/-- The register knows all that it was extended by, and in which order. -/
theorem chain_inj : chain H ms = chain H ns ↔ ms = ns := by
  refine ⟨fun h => ?_, fun h => by rw [h]⟩
  induction ms using List.reverseRecOn generalizing ns with
  | nil =>
    cases ns using List.reverseRecOn with
    | nil => rfl
    | append_singleton ns n =>
      rw [chain_concat] at h
      exact absurd h.symm (H.zero_fresh _ _)
  | append_singleton ms m ih =>
    cases ns using List.reverseRecOn with
    | nil =>
      rw [chain_concat] at h
      exact absurd h (H.zero_fresh _ _)
    | append_singleton ns n =>
      rw [chain_concat, chain_concat] at h
      obtain ⟨hregister, hdigest⟩ := extend_inj h
      rw [ih hregister, H.hash_inj hdigest]

/-- The text of an item does not start that of items of which it is none. -/
theorem map_ne_cons {α β : Type*} {x : α} {xs ys : List α} {f g : α → β} {texts : List β}
    (hx : x ∉ xs) (hys : ys ⊆ xs) (hcross : ∀ y ∈ xs, f x = g y → x = y) :
    ys.map g ≠ f x :: texts := by
  intro heq
  have hmem : f x ∈ ys.map g := by
    rw [heq]
    exact List.mem_cons_self
  obtain ⟨y, hy, hfy⟩ := List.mem_map.1 hmem
  have hxy := hcross y (hys hy) hfy.symm
  exact hx (hxy ▸ hys hy)

/-- Texts of the same items are the same if the same items are taken, with the same text each. -/
theorem map_filter_eq_iff {α β : Type*} {items : List α} {p q : α → Bool} {f g : α → β}
    (hnodup : items.Nodup) (hcross : ∀ x ∈ items, ∀ y ∈ items, f x = g y → x = y) :
    (items.filter p).map f = (items.filter q).map g ↔
      ∀ x ∈ items, p x = q x ∧ (p x → f x = g x) := by
  induction items with
  | nil => exact iff_of_true rfl fun x hx => absurd hx List.not_mem_nil
  | cons x items ih =>
    obtain ⟨hx, hitems⟩ := List.nodup_cons.1 hnodup
    have hrest := ih hitems fun y hy z hz =>
      hcross y (List.mem_cons_of_mem x hy) z (List.mem_cons_of_mem x hz)
    rw [List.forall_mem_cons, List.filter_cons, List.filter_cons]
    -- an item that only one of the two takes comes later in neither
    have hleft : (items.filter q).map g ≠ f x :: (items.filter p).map f :=
      map_ne_cons hx (List.filter_subset_self _) fun y hy =>
        hcross x List.mem_cons_self y (List.mem_cons_of_mem x hy)
    have hright : (items.filter p).map f ≠ g x :: (items.filter q).map g :=
      map_ne_cons hx (List.filter_subset_self _) fun y hy heq =>
        (hcross y (List.mem_cons_of_mem x hy) x List.mem_cons_self heq.symm).symm
    cases hp : p x with
    | true =>
      cases hq : q x with
      | true =>
        rw [if_pos rfl, if_pos rfl, List.map_cons, List.map_cons, List.cons.injEq, hrest]
        simp
      | false =>
        rw [if_pos rfl, if_neg Bool.false_ne_true, List.map_cons]
        exact iff_of_false (fun heq => hleft heq.symm)
          fun h => absurd h.1.1.symm Bool.false_ne_true
    | false =>
      cases hq : q x with
      | true =>
        rw [if_neg Bool.false_ne_true, if_pos rfl, List.map_cons]
        exact iff_of_false hright
          fun h => absurd h.1.1 Bool.false_ne_true
      | false =>
        rw [if_neg Bool.false_ne_true, if_neg Bool.false_ne_true, hrest]
        simp

end HashChain
