import Quantra.Lib.Bytes
import Mathlib.Algebra.Order.BigOperators.Group.List
import Mathlib.Algebra.Order.Ring.Nat

/-! Netlink attributes: two bytes of length, two of type, then the data, and each padded to a
multiple of four. -/
namespace Nla
open Bytes

structure Attr where
  type : ℕ
  data : List UInt8
  deriving DecidableEq, Repr

/-- `NLA_ALIGN`. -/
def align (n : ℕ) : ℕ := (n + 3) / 4 * 4

/-- One attribute as it is written; the length and the type are truncated to two bytes. -/
def attr (type : ℕ) (data : List UInt8) : List UInt8 :=
  leBytes 2 (4 + data.length) ++ leBytes 2 type ++ data ++
    List.replicate (align data.length - data.length) 0

def encode (l : List Attr) : List UInt8 := l.flatMap fun a => attr a.type a.data

/-- `nla_type`: without the flags for nested attributes and for the byte order. -/
def typeOf (raw : ℕ) : ℕ := raw % 2 ^ 14

/-- The attributes that the bytes are made of. -/
def walk : ℕ → List UInt8 → Option (List Attr)
  | _, [] => some []
  | 0, _ :: _ => none
  | fuel + 1, bytes =>
    let len := leValue (bytes.take 2)
    if 4 ≤ len ∧ align len ≤ bytes.length then
      (walk fuel (bytes.drop (align len))).map
        (⟨typeOf (leValue ((bytes.drop 2).take 2)), (bytes.take len).drop 4⟩ :: ·)
    else none

def attrs (bytes : List UInt8) : Option (List Attr) := walk bytes.length bytes

/-- The data of the last attribute of a type, as `nla_parse` has it. -/
def find (type : ℕ) : List Attr → Option (List UInt8)
  | [] => none
  | a :: l => (find type l).or (if a.type = type then some a.data else none)

/-- A list of attributes whose types do not matter. -/
def nested {β : Type} (f : List UInt8 → Option β) (bytes : List UInt8) : Option (List β) := do
  let l ← attrs bytes
  l.mapM fun a => f a.data

/-- The bytes that an attribute takes. -/
def cost (a : Attr) : ℕ := 4 + align a.data.length

variable {β : Type} {bytes data rest : List UInt8} {type : ℕ} {l l' : List Attr} {a : Attr}

theorem le_align (n : ℕ) : n ≤ align n := by
  unfold align
  omega

theorem align_add (n : ℕ) : align (4 + n) = 4 + align n := by
  unfold align
  omega

theorem length_attr (type : ℕ) (data : List UInt8) :
    (attr type data).length = 4 + align data.length := by
  have hle := le_align data.length
  simp only [attr, List.length_append, length_leBytes, List.length_replicate]
  omega

theorem walk_of_ne_nil {fuel : ℕ} (h : bytes ≠ []) :
    walk (fuel + 1) bytes =
      if 4 ≤ leValue (bytes.take 2) ∧ align (leValue (bytes.take 2)) ≤ bytes.length then
        (walk fuel (bytes.drop (align (leValue (bytes.take 2))))).map
          (⟨typeOf (leValue ((bytes.drop 2).take 2)),
            (bytes.take (leValue (bytes.take 2))).drop 4⟩ :: ·)
      else none := by
  cases bytes with
  | nil => exact absurd rfl h
  | cons b bytes => rfl

theorem length_drop_lt
    (h : 4 ≤ leValue (bytes.take 2) ∧ align (leValue (bytes.take 2)) ≤ bytes.length) :
    (bytes.drop (align (leValue (bytes.take 2)))).length < bytes.length := by
  have hle := le_align (leValue (bytes.take 2))
  rw [List.length_drop]
  omega

/-- Each attribute takes at least four bytes, so fuel beyond the length changes nothing. -/
theorem walk_congr {n m : ℕ} (hn : bytes.length ≤ n) (hm : bytes.length ≤ m) :
    walk n bytes = walk m bytes := by
  induction n generalizing m bytes with
  | zero =>
    have hnil : bytes = [] := List.eq_nil_of_length_eq_zero (by omega)
    subst hnil
    cases m <;> rfl
  | succ n ih =>
    by_cases hnil : bytes = []
    · subst hnil
      cases m <;> rfl
    · have hpos := List.length_pos_iff.2 hnil
      obtain ⟨m, rfl⟩ := Nat.exists_eq_add_of_lt (Nat.lt_of_lt_of_le hpos hm)
      rw [Nat.zero_add, walk_of_ne_nil hnil, walk_of_ne_nil hnil]
      by_cases hlen : 4 ≤ leValue (bytes.take 2) ∧ align (leValue (bytes.take 2)) ≤ bytes.length
      · have hlt := length_drop_lt hlen
        have hrest := ih (m := m) (Nat.le_of_lt_succ (Nat.lt_of_lt_of_le hlt hn))
          (Nat.le_of_lt_succ (Nat.lt_of_lt_of_le hlt (by omega)))
        rw [if_pos hlen, if_pos hlen, hrest]
      · rw [if_neg hlen, if_neg hlen]

theorem walk_eq_attrs {fuel : ℕ} (h : bytes.length ≤ fuel) : walk fuel bytes = attrs bytes :=
  walk_congr h (Nat.le_refl _)

theorem attrs_of_ne_nil (h : bytes ≠ []) :
    attrs bytes =
      if 4 ≤ leValue (bytes.take 2) ∧ align (leValue (bytes.take 2)) ≤ bytes.length then
        (attrs (bytes.drop (align (leValue (bytes.take 2))))).map
          (⟨typeOf (leValue ((bytes.drop 2).take 2)),
            (bytes.take (leValue (bytes.take 2))).drop 4⟩ :: ·)
      else none := by
  rw [← walk_eq_attrs (Nat.le_succ bytes.length), walk_of_ne_nil h]
  by_cases hlen : 4 ≤ leValue (bytes.take 2) ∧ align (leValue (bytes.take 2)) ≤ bytes.length
  · rw [if_pos hlen, if_pos hlen, walk_eq_attrs (Nat.le_of_lt (length_drop_lt hlen))]
  · rw [if_neg hlen, if_neg hlen]

/-- What was written is read back if it is short enough for its length. -/
theorem attrs_attr_append (h : data.length + 4 < 2 ^ 16) :
    attrs (attr type data ++ rest) = (attrs rest).map (⟨typeOf type, data⟩ :: ·) := by
  have hne : attr type data ++ rest ≠ [] := by
    intro hnil
    have hlen := congrArg List.length hnil
    rw [List.length_append, length_attr, List.length_nil] at hlen
    omega
  have hshape : attr type data ++ rest = leBytes 2 (4 + data.length) ++ (leBytes 2 type ++
      (data ++ (List.replicate (align data.length - data.length) 0 ++ rest))) := by
    simp only [attr, List.append_assoc]
  have hlen : leValue ((attr type data ++ rest).take 2) = 4 + data.length := by
    rw [hshape, List.take_left' (length_leBytes _ _), leValue_leBytes, Nat.mod_eq_of_lt (by omega)]
  have htype : typeOf (leValue (((attr type data ++ rest).drop 2).take 2)) = typeOf type := by
    rw [hshape, List.drop_left' (length_leBytes _ _), List.take_left' (length_leBytes _ _),
      leValue_leBytes]
    unfold typeOf
    omega
  have hdrop : (attr type data ++ rest).drop (align (4 + data.length)) = rest := by
    rw [align_add]
    exact List.drop_left' (length_attr type data)
  have hdata : ((attr type data ++ rest).take (4 + data.length)).drop 4 = data := by
    have hsplit : attr type data ++ rest = (leBytes 2 (4 + data.length) ++ leBytes 2 type) ++
        (data ++ (List.replicate (align data.length - data.length) 0 ++ rest)) := by
      rw [hshape, List.append_assoc]
    have hhead : (leBytes 2 (4 + data.length) ++ leBytes 2 type).length = 4 := by
      rw [List.length_append, length_leBytes, length_leBytes]
    rw [hsplit, List.drop_take, List.drop_left' hhead, Nat.add_sub_cancel_left, List.take_left]
  have hfits : 4 ≤ 4 + data.length ∧
      align (4 + data.length) ≤ (attr type data ++ rest).length := by
    rw [align_add, List.length_append, length_attr]
    omega
  rw [attrs_of_ne_nil hne, hlen, if_pos hfits, htype, hdrop, hdata]

theorem attrs_encode (h : ∀ a ∈ l, a.data.length + 4 < 2 ^ 16) :
    attrs (encode l) = some (l.map fun a => ⟨typeOf a.type, a.data⟩) := by
  induction l with
  | nil => rfl
  | cons a l ih =>
    rw [encode, List.flatMap_cons, attrs_attr_append (h a List.mem_cons_self)]
    exact congrArg (Option.map _) (ih fun b hb => h b (List.mem_cons_of_mem a hb))

theorem encode_append : encode (l ++ l') = encode l ++ encode l' := List.flatMap_append

@[simp]
theorem encode_nil : encode [] = [] := rfl

theorem encode_singleton : encode [a] = attr a.type a.data := List.flatMap_singleton _ a

theorem length_encode : (encode l).length = (l.map cost).sum := by
  induction l with
  | nil => rfl
  | cons a l ih =>
    rw [List.map_cons, List.sum_cons, ← ih, cost, ← length_attr a.type]
    exact List.length_append

theorem length_le_encode (h : a ∈ l) : a.data.length + 4 ≤ (encode l).length := by
  obtain ⟨before, after, rfl⟩ := List.append_of_mem h
  have halign := le_align a.data.length
  rw [length_encode, List.map_append, List.sum_append, List.map_cons, List.sum_cons]
  unfold cost
  omega

theorem length_encode_le {n : ℕ} (h : ∀ a ∈ l, cost a ≤ n) : (encode l).length ≤ l.length * n := by
  rw [length_encode]
  induction l with
  | nil => exact Nat.zero_le _
  | cons a l ih =>
    have hhead := h a List.mem_cons_self
    have htail := ih fun b hb => h b (List.mem_cons_of_mem a hb)
    rw [List.map_cons, List.sum_cons, List.length_cons, Nat.succ_mul]
    omega

theorem align_length_encode : align (encode l).length = (encode l).length := by
  rw [length_encode]
  induction l with
  | nil => rfl
  | cons a l ih =>
    rw [List.map_cons, List.sum_cons]
    unfold cost align at ih ⊢
    omega

/-- What is read fills the bytes. -/
theorem cost_attrs (h : attrs bytes = some l) :
    (l.map cost).sum = bytes.length ∧ ∀ a ∈ l, a.data.length + 4 < 2 ^ 16 := by
  induction hn : bytes.length using Nat.strongRecOn generalizing bytes l with
  | _ n ih =>
    by_cases hnil : bytes = []
    · subst hnil
      cases h
      exact ⟨hn, fun _ ha => by cases ha⟩
    · rw [attrs_of_ne_nil hnil] at h
      by_cases hlen : 4 ≤ leValue (bytes.take 2) ∧ align (leValue (bytes.take 2)) ≤ bytes.length
      · rw [if_pos hlen] at h
        obtain ⟨l', hl', rfl⟩ := Option.map_eq_some_iff.1 h
        have hle := le_align (leValue (bytes.take 2))
        have hlt : leValue (bytes.take 2) < 2 ^ 16 := by
          have htake : (bytes.take 2).length ≤ 2 := List.length_take_le 2 bytes
          exact Nat.lt_of_lt_of_le (leValue_lt _) (Nat.pow_le_pow_right (by decide) htake)
        have hdata : ((bytes.take (leValue (bytes.take 2))).drop 4).length =
            leValue (bytes.take 2) - 4 := by
          rw [List.length_drop, List.length_take, Nat.min_eq_left (by omega)]
        have hdrop := List.length_drop (l := bytes) (i := align (leValue (bytes.take 2)))
        obtain ⟨hsum, hall⟩ := ih _ (by omega) hl' rfl
        constructor
        · have halign := align_add (leValue (bytes.take 2) - 4)
          rw [Nat.add_sub_cancel' hlen.1] at halign
          rw [List.map_cons, List.sum_cons, hsum, cost, hdata]
          omega
        · intro a ha
          rcases List.mem_cons.1 ha with rfl | ha
          · dsimp only
            omega
          · exact hall a ha
      · rw [if_neg hlen] at h
        cases h

theorem find_append : find type (l ++ l') = (find type l').or (find type l) := by
  induction l with
  | nil => rw [List.nil_append, find, Option.or_none]
  | cons a l ih => rw [List.cons_append, find, ih, find, Option.or_assoc]

theorem find_eq_none (h : ∀ a ∈ l, a.type ≠ type) : find type l = none := by
  induction l with
  | nil => rfl
  | cons a l ih =>
    rw [find, ih fun b hb => h b (List.mem_cons_of_mem a hb), if_neg (h a List.mem_cons_self)]
    rfl

theorem mem_of_find (h : find type l = some data) : ⟨type, data⟩ ∈ l := by
  induction l with
  | nil => cases h
  | cons a l ih =>
    rcases Option.or_eq_some_iff.1 h with h | ⟨-, h⟩
    · exact List.mem_cons_of_mem a (ih h)
    · by_cases ha : a.type = type
      · rw [if_pos ha] at h
        cases h
        exact ha ▸ List.mem_cons_self
      · rw [if_neg ha] at h
        cases h

theorem find_cons_le (type : ℕ) (a : Attr) (l : List Attr) :
    (find type (a :: l)).elim 0 (fun data => 4 + align data.length) ≤
      (if a.type = type then cost a else 0) +
        (find type l).elim 0 fun data => 4 + align data.length := by
  rw [find]
  cases find type l with
  | some data => exact Nat.le_add_left _ _
  | none =>
    by_cases ha : a.type = type
    · rw [if_pos ha, if_pos ha]
      exact Nat.le_refl _
    · rw [if_neg ha, if_neg ha]
      exact Nat.le_refl _

/-- An attribute counts for one type only. -/
theorem sum_cost_le {types : List ℕ} (h : types.Nodup) (a : Attr) :
    (types.map fun type => if a.type = type then cost a else 0).sum ≤ cost a := by
  induction types with
  | nil => exact Nat.zero_le _
  | cons type types ih =>
    rw [List.nodup_cons] at h
    rw [List.map_cons, List.sum_cons]
    by_cases ha : a.type = type
    · have hrest : (types.map fun type => if a.type = type then cost a else 0) =
          types.map fun _ => 0 :=
        List.map_congr_left fun t ht => if_neg fun heq : a.type = t =>
          h.1 ((ha.symm.trans heq).symm ▸ ht)
      rw [if_pos ha, hrest]
      simp
    · rw [if_neg ha, Nat.zero_add]
      exact ih h.2

/-- The bytes that the attributes of different types take, as far as they are there. -/
theorem sum_find_le (types : List ℕ) (h : types.Nodup) (l : List Attr) :
    (types.map fun type => (find type l).elim 0 fun data => 4 + align data.length).sum ≤
      (l.map cost).sum := by
  induction l with
  | nil =>
    have hzero : (types.map fun type => (find type []).elim 0 fun data => 4 + align data.length) =
        types.map fun _ => 0 := rfl
    rw [hzero]
    simp
  | cons a l ih =>
    have hstep := List.sum_le_sum fun type (_ : type ∈ types) => find_cons_le type a l
    rw [List.sum_map_add] at hstep
    have honce := sum_cost_le h a
    rw [List.map_cons, List.sum_cons]
    omega

/-- The elements of a list take no more bytes than there are. -/
theorem sum_nested_le {f : List UInt8 → Option β} {size : β → ℕ} {bs : List β}
    (hsize : ∀ {data b}, f data = some b → size b ≤ 4 + align data.length)
    (h : nested f bytes = some bs) : (bs.map size).sum ≤ bytes.length := by
  obtain ⟨l, hl, hbs⟩ := Option.bind_eq_some_iff.1 h
  rw [← (cost_attrs hl).1]
  clear h hl
  induction l generalizing bs with
  | nil =>
    cases hbs
    exact Nat.le_refl _
  | cons a l ih =>
    rw [List.mapM_cons] at hbs
    obtain ⟨b, hb, hbs⟩ := Option.bind_eq_some_iff.1 hbs
    obtain ⟨bs, hrest, hbs⟩ := Option.bind_eq_some_iff.1 hbs
    cases hbs
    have hhead : size b ≤ cost a := hsize hb
    have htail := ih hrest
    simp only [List.map_cons, List.sum_cons]
    omega

end Nla
