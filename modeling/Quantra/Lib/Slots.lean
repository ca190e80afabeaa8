import Mathlib.Data.List.Basic
import Mathlib.Data.List.Perm.Basic

/-! Records of one size in a file, where a record is written over the first one that it matches, or
at the end. -/
namespace Slots

variable {α : Type*}

/-- Over the first element that is hit, or at the end. -/
def put (hit : α → Bool) (a : α) : List α → List α
  | [] => [a]
  | b :: bs => if hit b then a :: bs else b :: put hit a bs

/-! Records in a file. -/

/-- The `i`-th piece of the size. -/
def slotAt (size : ℕ) (data : List α) (i : ℕ) : List α := (data.drop (i * size)).take size

/-- The pieces that are whole. -/
def slots (size : ℕ) (data : List α) : List (List α) :=
  (List.range (data.length / size)).map (slotAt size data)

/-- The loop over the pieces: the first that is hit is overwritten, else the bytes are appended. -/
def putBytes (size : ℕ) (hit : List α → Bool) (bytes data : List α) : List α :=
  match (List.range (data.length / size)).find? fun i => hit (slotAt size data i) with
  | some i => data.take (i * size) ++ bytes ++ data.drop (i * size + size)
  | none => data ++ bytes

variable {hit : α → Bool} {a b : α} {pre post : List α}

theorem put_of_hit (hpre : ∀ c ∈ pre, hit c = false) (hb : hit b) :
    put hit a (pre ++ b :: post) = pre ++ a :: post := by
  induction pre with
  | nil => exact if_pos hb
  | cons c pre ih =>
    have hc : hit c = false := hpre c List.mem_cons_self
    rw [List.cons_append, put, hc, ih fun d hd => hpre d (List.mem_cons_of_mem c hd)]
    rfl

theorem put_of_not_hit {xs : List α} (h : ∀ c ∈ xs, hit c = false) : put hit a xs = xs ++ [a] := by
  induction xs with
  | nil => rfl
  | cons c xs ih =>
    have hc : hit c = false := h c List.mem_cons_self
    rw [put, hc, ih fun d hd => h d (List.mem_cons_of_mem c hd)]
    rfl

/-- Either some element is the first that is hit, or none is. -/
theorem exists_first_hit (hit : α → Bool) (xs : List α) :
    (∃ pre b post, xs = pre ++ b :: post ∧ (∀ c ∈ pre, hit c = false) ∧ hit b) ∨
      ∀ c ∈ xs, hit c = false := by
  cases hfind : xs.find? hit with
  | none => exact .inr fun c hc => Bool.eq_false_iff.2 (List.find?_eq_none.1 hfind c hc)
  | some b =>
    obtain ⟨hb, pre, post, hxs, hpre⟩ := List.find?_eq_some_iff_append.1 hfind
    exact .inl ⟨pre, b, post, hxs, fun c hc => by simpa using hpre c hc, hb⟩

section Files
variable {size : ℕ} {hitBytes : List α → Bool} {bytes chunk : List α} {chunks : List (List α)}

theorem length_flatten (h : ∀ c ∈ chunks, c.length = size) :
    chunks.flatten.length = chunks.length * size := by
  induction chunks with
  | nil => rw [List.flatten_nil, List.length_nil, List.length_nil, Nat.zero_mul]
  | cons c chunks ih =>
    have hc : c.length = size := h c List.mem_cons_self
    have hrest := ih fun d hd => h d (List.mem_cons_of_mem c hd)
    rw [List.flatten_cons, List.length_append, hc, hrest, List.length_cons, Nat.succ_mul,
      Nat.add_comm]

theorem slotAt_zero (h : chunk.length = size) (rest : List α) :
    slotAt size (chunk ++ rest) 0 = chunk := by
  rw [slotAt, Nat.zero_mul, List.drop_zero]
  exact List.take_left' h

theorem slotAt_succ (h : chunk.length = size) (rest : List α) (i : ℕ) :
    slotAt size (chunk ++ rest) (i + 1) = slotAt size rest i := by
  rw [slotAt, slotAt, Nat.succ_mul, Nat.add_comm, ← List.drop_drop, List.drop_left' h]

/-- The number of pieces in a piece more. -/
theorem length_div_cons (hpos : 0 < size) (h : chunk.length = size) (rest : List α) :
    (chunk ++ rest).length / size = rest.length / size + 1 := by
  rw [List.length_append, h, Nat.add_div_left _ hpos]

/-- What was put together from pieces of the size has these pieces. -/
theorem slots_flatten (hpos : 0 < size) (h : ∀ c ∈ chunks, c.length = size) :
    slots size chunks.flatten = chunks := by
  induction chunks with
  | nil => simp [slots]
  | cons c chunks ih =>
    have hc : c.length = size := h c List.mem_cons_self
    have hrest := ih fun d hd => h d (List.mem_cons_of_mem c hd)
    rw [slots, List.flatten_cons, length_div_cons hpos hc, List.range_succ_eq_map, List.map_cons,
      List.map_map, slotAt_zero hc]
    refine congrArg (c :: ·) (Eq.trans ?_ hrest)
    exact List.map_congr_left fun i _ => slotAt_succ hc chunks.flatten i

/-- The loop over the file writes as `put` does in the list of its pieces. -/
theorem putBytes_flatten (hpos : 0 < size) (h : ∀ c ∈ chunks, c.length = size) :
    putBytes size hitBytes bytes chunks.flatten = (put hitBytes bytes chunks).flatten := by
  induction chunks with
  | nil => simp [putBytes, put]
  | cons c chunks ih =>
    have hc : c.length = size := h c List.mem_cons_self
    have hrest := ih fun d hd => h d (List.mem_cons_of_mem c hd)
    unfold putBytes at hrest ⊢
    rw [List.flatten_cons, length_div_cons hpos hc, List.range_succ_eq_map, List.find?_cons,
      slotAt_zero hc, put]
    cases hhit : hitBytes c with
    | true => simp [List.drop_left' hc]
    | false =>
      have hmap : ((List.range (chunks.flatten.length / size)).map Nat.succ).find?
          (fun i => hitBytes (slotAt size (c ++ chunks.flatten) i)) =
          ((List.range (chunks.flatten.length / size)).find?
            fun i => hitBytes (slotAt size chunks.flatten i)).map Nat.succ := by
        rw [List.find?_map]
        refine congrArg (Option.map Nat.succ) (congrArg (List.find? · _) ?_)
        exact funext fun i => congrArg hitBytes (slotAt_succ hc chunks.flatten i)
      dsimp only
      rw [hmap]
      cases hfind : (List.range (chunks.flatten.length / size)).find?
          fun i => hitBytes (slotAt size chunks.flatten i) with
      | none =>
        rw [hfind] at hrest
        dsimp only [Option.map_none] at hrest ⊢
        rw [List.append_assoc, hrest]
        rfl
      | some i =>
        have hskip : (i + 1) * size = c.length + i * size := by rw [Nat.succ_mul, hc, Nat.add_comm]
        rw [hfind] at hrest
        dsimp only [Option.map_some, Nat.succ_eq_add_one] at hrest ⊢
        rw [hskip, Nat.add_assoc, List.take_length_add_append, List.drop_length_add_append]
        simp only [List.append_assoc] at hrest ⊢
        rw [hrest]
        rfl

end Files

/-! Records that are live or not, where no record matches a live one that comes later. -/

section Live
variable (live : α → Bool) (clash : α → α → Prop)

/-- The first record that matches a live one is itself. -/
def Front (xs : List α) : Prop := xs.Pairwise fun a b => live b → ¬clash a b

variable {live clash} {xs : List α} {r : α}

variable [DecidableRel clash]

/-- A live record that matches no live one. -/
theorem put_live (hfront : Front live clash xs) (ha : live a)
    (hno : ∀ b ∈ xs, live b → ¬clash b a) (hsymm : ∀ a b, clash a b → clash b a) :
    Front live clash (put (fun b => clash b a) a xs) ∧
      ((put (fun b => clash b a) a xs).filter live).Perm (a :: xs.filter live) := by
  rcases exists_first_hit (fun b => clash b a) xs with ⟨pre, b, post, rfl, hpre, hb⟩ | hnone
  · have hdead : live b = false := Bool.eq_false_iff.2 fun hlive =>
      hno b (List.mem_append_right _ List.mem_cons_self) hlive (of_decide_eq_true hb)
    rw [put_of_hit hpre hb]
    obtain ⟨hfirst, hrest, hcross⟩ := List.pairwise_append.1 hfront
    obtain ⟨-, hpost⟩ := List.pairwise_cons.1 hrest
    constructor
    · refine List.pairwise_append.2 ⟨hfirst, List.pairwise_cons.2 ⟨?_, hpost⟩, ?_⟩
      · intro c hc hlive hclash
        exact hno c (List.mem_append_right _ (List.mem_cons_of_mem b hc)) hlive (hsymm _ _ hclash)
      · intro c hc d hd hlive
        rcases List.mem_cons.1 hd with rfl | hd
        · exact of_decide_eq_false (hpre c hc)
        · exact hcross c hc d (List.mem_cons_of_mem b hd) hlive
    · rw [List.filter_append, List.filter_append, List.filter_cons_of_pos ha,
        List.filter_cons_of_neg (Bool.eq_false_iff.1 hdead)]
      exact List.perm_middle
  · rw [put_of_not_hit hnone]
    constructor
    · refine List.pairwise_append.2 ⟨hfront, List.pairwise_singleton _ _, fun c hc d hd _ => ?_⟩
      rw [List.mem_singleton.1 hd]
      exact of_decide_eq_false (hnone c hc)
    · rw [List.filter_append, List.filter_cons_of_pos ha, List.filter_nil]
      exact List.perm_append_singleton a _

/-- A record that is not live and matches what a live one does takes the place of that one. -/
theorem put_dead (hfront : Front live clash xs) (hr : r ∈ xs) (hlive : live r)
    (ha : live a = false) (hself : clash r a) (hleft : ∀ b, clash b a ↔ clash b r)
    (hright : ∀ b, clash a b ↔ clash r b) :
    Front live clash (put (fun b => clash b a) a xs) ∧
      (r :: (put (fun b => clash b a) a xs).filter live).Perm (xs.filter live) := by
  obtain ⟨pre, post, rfl⟩ := List.append_of_mem hr
  obtain ⟨hfirst, hrest, hcross⟩ := List.pairwise_append.1 hfront
  obtain ⟨hafter, hpost⟩ := List.pairwise_cons.1 hrest
  have hpre : ∀ c ∈ pre, decide (clash c a) = false := by
    intro c hc
    refine decide_eq_false fun hclash => ?_
    exact hcross c hc r List.mem_cons_self hlive ((hleft c).1 hclash)
  rw [put_of_hit hpre (decide_eq_true hself)]
  constructor
  · refine List.pairwise_append.2 ⟨hfirst, List.pairwise_cons.2 ⟨?_, hpost⟩, ?_⟩
    · exact fun c hc hc' hclash => hafter c hc hc' ((hright c).1 hclash)
    · intro c hc d hd hd'
      rcases List.mem_cons.1 hd with rfl | hd
      · exact absurd hd' (Bool.eq_false_iff.1 ha)
      · exact hcross c hc d (List.mem_cons_of_mem r hd) hd'
  · rw [List.filter_append, List.filter_append, List.filter_cons_of_pos hlive,
      List.filter_cons_of_neg (Bool.eq_false_iff.1 ha)]
    exact List.perm_middle.symm

end Live

end Slots
