import Quantra.Lib.Bytes
import Mathlib.Algebra.Order.Ring.Nat
import Mathlib.Data.List.Induction
import Mathlib.Tactic.Ring

/-! Bit strings, the highest bit first, and the bytes that they are written in. -/
namespace Bits
open Bytes

/-- The `w` lowest bits of a number. -/
def toBits : ℕ → ℕ → List Bool
  | 0, _ => []
  | w + 1, n => toBits w (n / 2) ++ [decide (n % 2 = 1)]

/-- The number that a bit string stands for. -/
def ofBits (bits : List Bool) : ℕ := bits.foldl (fun n b => 2 * n + b.toNat) 0

def ofBytes (bytes : List UInt8) : List Bool := bytes.flatMap fun b => toBits 8 b.toNat

@[simp]
theorem length_toBits (w n : ℕ) : (toBits w n).length = w := by
  induction w generalizing n with
  | zero => rfl
  | succ w ih => rw [toBits, List.length_append, ih, List.length_singleton]

theorem toBits_mod (w n : ℕ) : toBits w (n % 2 ^ w) = toBits w n := by
  induction w generalizing n with
  | zero => rfl
  | succ w ih =>
    have hdiv : n % 2 ^ (w + 1) / 2 = n / 2 % 2 ^ w := by
      rw [Nat.pow_succ', Nat.mod_mul_right_div_self]
    have hmod : n % 2 ^ (w + 1) % 2 = n % 2 := by
      rw [Nat.pow_succ', Nat.mod_mul_right_mod]
    rw [toBits, toBits, hdiv, hmod, ih]

theorem toBits_add (v w n : ℕ) : toBits (v + w) n = toBits v (n / 2 ^ w) ++ toBits w n := by
  induction w generalizing n with
  | zero => rw [Nat.pow_zero, Nat.div_one, toBits, List.append_nil]; rfl
  | succ w ih =>
    rw [← Nat.add_assoc, toBits, ih, Nat.div_div_eq_div_mul, ← Nat.pow_succ', List.append_assoc,
      toBits]

theorem ofBits_concat (bits : List Bool) (b : Bool) :
    ofBits (bits ++ [b]) = 2 * ofBits bits + b.toNat := by
  simp [ofBits]

theorem ofBits_append (bits bits' : List Bool) :
    ofBits (bits ++ bits') = ofBits bits * 2 ^ bits'.length + ofBits bits' := by
  induction bits' using List.reverseRecOn with
  | nil => simp [ofBits]
  | append_singleton bits' b ih =>
    rw [← List.append_assoc, ofBits_concat, ih, ofBits_concat, List.length_append,
      List.length_singleton, Nat.pow_succ]
    ring

theorem ofBits_toBits (w n : ℕ) : ofBits (toBits w n) = n % 2 ^ w := by
  induction w generalizing n with
  | zero => rw [Nat.pow_zero, Nat.mod_one]; rfl
  | succ w ih =>
    have hbit : (decide (n % 2 = 1)).toNat = n % 2 := by
      rcases Nat.mod_two_eq_zero_or_one n with h | h <;> rw [h] <;> rfl
    rw [toBits, ofBits_concat, ih, hbit, Nat.pow_succ', Nat.mod_mul]
    omega

@[simp]
theorem ofBytes_nil : ofBytes [] = [] := rfl

@[simp]
theorem ofBytes_cons (b : UInt8) (bytes : List UInt8) :
    ofBytes (b :: bytes) = toBits 8 b.toNat ++ ofBytes bytes := rfl

@[simp]
theorem ofBytes_append (bytes bytes' : List UInt8) :
    ofBytes (bytes ++ bytes') = ofBytes bytes ++ ofBytes bytes' := List.flatMap_append

@[simp]
theorem length_ofBytes (bytes : List UInt8) : (ofBytes bytes).length = 8 * bytes.length := by
  induction bytes with
  | nil => rfl
  | cons b bytes ih =>
    rw [ofBytes_cons, List.length_append, length_toBits, ih, List.length_cons]
    omega

theorem ofBytes_replicate (n : ℕ) :
    ofBytes (List.replicate n 0) = List.replicate (8 * n) false := by
  induction n with
  | zero => rfl
  | succ n ih =>
    rw [List.replicate_succ, ofBytes_cons, ih, Nat.mul_succ, Nat.add_comm,
      ← List.replicate_append_replicate]
    rfl

theorem ofBytes_toBeBytes (n : UInt32) : ofBytes (toBeBytes n) = toBits 32 n.toNat := by
  have h₁ : toBits 32 n.toNat = toBits 24 (n.toNat / 2 ^ 8) ++ toBits 8 n.toNat := toBits_add 24 8 _
  have h₂ : toBits 24 (n.toNat / 2 ^ 8) =
      toBits 16 (n.toNat / 2 ^ 16) ++ toBits 8 (n.toNat / 2 ^ 8) := by
    rw [toBits_add 16 8, Nat.div_div_eq_div_mul, ← Nat.pow_add]
  have h₃ : toBits 16 (n.toNat / 2 ^ 16) =
      toBits 8 (n.toNat / 2 ^ 24) ++ toBits 8 (n.toNat / 2 ^ 16) := by
    rw [toBits_add 8 8, Nat.div_div_eq_div_mul, ← Nat.pow_add]
  have hbyte : ∀ m, toBits 8 (UInt8.ofNat m).toNat = toBits 8 m := fun m => by
    rw [UInt8.toNat_ofNat', toBits_mod]
  rw [h₁, h₂, h₃, toBeBytes]
  simp only [ofBytes_cons, ofBytes_nil, hbyte, List.append_nil, List.append_assoc]

theorem ofBytes_flatMap_toBeBytes (words : List UInt32) :
    ofBytes (words.flatMap toBeBytes) = words.flatMap fun x => toBits 32 x.toNat := by
  induction words with
  | nil => rfl
  | cons x words ih =>
    rw [List.flatMap_cons, ofBytes_append, ofBytes_toBeBytes, ih, List.flatMap_cons]

theorem ofBytes_toBeBytes64 (n : UInt64) : ofBytes (toBeBytes64 n) = toBits 64 n.toNat := by
  have h : toBits 64 n.toNat = toBits 32 (n.toNat / 2 ^ 32) ++ toBits 32 n.toNat := toBits_add 32 32 _
  have hhigh : (n >>> 32).toUInt32.toNat = n.toNat / 2 ^ 32 % 2 ^ 32 := by
    simp [Nat.shiftRight_eq_div_pow]
  have hlow : n.toUInt32.toNat = n.toNat % 2 ^ 32 := by simp
  rw [toBeBytes64, ofBytes_append, ofBytes_toBeBytes, ofBytes_toBeBytes, hhigh, hlow, toBits_mod,
    toBits_mod, h]

theorem ofBits_ofBytes (a b c d : UInt8) :
    ofBits (ofBytes [a, b, c, d]) = (fromBeBytes a b c d).toNat := by
  have hbyte : ∀ x : UInt8, ofBits (toBits 8 x.toNat) = x.toNat := fun x => by
    rw [ofBits_toBits, Nat.mod_eq_of_lt x.toNat_lt]
  have ha := a.toNat_lt
  have hb := b.toNat_lt
  have hc := c.toNat_lt
  have hd := d.toNat_lt
  simp only [ofBytes_cons, ofBytes_nil, List.append_nil, ofBits_append, hbyte, List.length_append,
    length_toBits]
  rw [fromBeBytes, UInt32.toNat_ofNat']
  omega

theorem take_ofBytes {k : ℕ} {bytes : List UInt8} (h : k ≤ bytes.length) :
    (ofBytes bytes).take (8 * k) = ofBytes (bytes.take k) := by
  have hlen : (ofBytes (bytes.take k)).length = 8 * k := by
    rw [length_ofBytes, List.length_take, Nat.min_eq_left h]
  conv_lhs => rw [← List.take_append_drop k bytes, ofBytes_append]
  exact List.take_left' hlen

theorem drop_ofBytes {k : ℕ} {bytes : List UInt8} (h : k ≤ bytes.length) :
    (ofBytes bytes).drop (8 * k) = ofBytes (bytes.drop k) := by
  have hlen : (ofBytes (bytes.take k)).length = 8 * k := by
    rw [length_ofBytes, List.length_take, Nat.min_eq_left h]
  conv_lhs => rw [← List.take_append_drop k bytes, ofBytes_append]
  exact List.drop_left' hlen

/-- Whole chunks of bytes are chunks of bits. -/
theorem toChunks_ofBytes {k n : ℕ} {bytes : List UInt8} (h : bytes.length = (k + 1) * n) :
    (ofBytes bytes).toChunks (8 * (k + 1)) = (bytes.toChunks (k + 1)).map ofBytes := by
  induction n generalizing bytes with
  | zero =>
    rw [List.length_eq_zero_iff.1 (h.trans (Nat.mul_zero _))]
    rfl
  | succ n ih =>
    have hle : k + 1 ≤ bytes.length := by
      rw [h]
      exact Nat.le_mul_of_pos_right _ n.succ_pos
    have hbytes : bytes ≠ [] := List.ne_nil_of_length_pos (by omega)
    have hbits : ofBytes bytes ≠ [] := List.ne_nil_of_length_pos (by rw [length_ofBytes]; omega)
    have hdrop : (bytes.drop (k + 1)).length = (k + 1) * n := by
      rw [List.length_drop, h, Nat.mul_succ, Nat.add_sub_cancel]
    have hchunk := toChunks_eq_cons (8 * k + 7) hbits
    rw [show 8 * k + 7 + 1 = 8 * (k + 1) from rfl, take_ofBytes hle, drop_ofBytes hle] at hchunk
    rw [hchunk, ih hdrop, toChunks_eq_cons k hbytes, List.map_cons]

end Bits
