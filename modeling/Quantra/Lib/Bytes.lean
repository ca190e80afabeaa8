import Mathlib.Algebra.Group.Nat.Defs
import Mathlib.Data.List.Defs

/-! Byte buffers: slices with the bounds check, big-endian words, and little-endian numbers of any
width. -/
namespace Bytes

/-- `&buf[i..j]`; `none` where the indexing would panic. -/
def slice (buf : List UInt8) (i j : ℕ) : Option (List UInt8) :=
  if i ≤ j ∧ j ≤ buf.length then some ((buf.drop i).take (j - i)) else none

theorem size_take {n : ℕ} {buf : List UInt8} (h : n ≤ buf.length) :
    (buf.take n).toArray.size = n := by
  rw [List.size_toArray, List.length_take, Nat.min_eq_left h]

theorem slice_eq {buf : List UInt8} {i j : ℕ} (hij : i ≤ j) (hj : j ≤ buf.length) :
    slice buf i j = some ((buf.drop i).take (j - i)) := by
  unfold slice
  rw [if_pos ⟨hij, hj⟩]

/-- `u32::from_be_bytes`. -/
def fromBeBytes (a b c d : UInt8) : UInt32 :=
  UInt32.ofNat (((a.toNat * 256 + b.toNat) * 256 + c.toNat) * 256 + d.toNat)

/-- `u32::to_be_bytes`. -/
def toBeBytes (n : UInt32) : List UInt8 :=
  [UInt8.ofNat (n.toNat / 2 ^ 24), UInt8.ofNat (n.toNat / 2 ^ 16), UInt8.ofNat (n.toNat / 2 ^ 8),
    UInt8.ofNat n.toNat]

@[simp]
theorem length_toBeBytes (n : UInt32) : (toBeBytes n).length = 4 := rfl

/-- `u16::from_be_bytes`. -/
def fromBeBytes16 (a b : UInt8) : UInt16 := UInt16.ofNat (a.toNat * 256 + b.toNat)

/-- `u16::to_be_bytes`. -/
def toBeBytes16 (n : UInt16) : List UInt8 := [UInt8.ofNat (n.toNat / 256), UInt8.ofNat n.toNat]

@[simp]
theorem length_toBeBytes16 (n : UInt16) : (toBeBytes16 n).length = 2 := rfl

theorem fromBeBytes16_toBeBytes16 (n : UInt16) :
    fromBeBytes16 (UInt8.ofNat (n.toNat / 256)) (UInt8.ofNat n.toNat) = n := by
  have hlt : n.toNat < 2 ^ 16 := n.toNat_lt
  unfold fromBeBytes16
  apply UInt16.toNat_inj.1
  simp only [UInt8.toNat_ofNat', UInt16.toNat_ofNat']
  omega

/-- `u64::to_be_bytes`. -/
def toBeBytes64 (n : UInt64) : List UInt8 :=
  toBeBytes (n >>> 32).toUInt32 ++ toBeBytes n.toUInt32

@[simp]
theorem length_toBeBytes64 (n : UInt64) : (toBeBytes64 n).length = 8 := rfl

/-- `buf[i..j].copy_from_slice(src)`; `none` where it panics: the range is not in the buffer, or the
lengths differ. -/
def copyFromSlice (buf : List UInt8) (i j : ℕ) (src : List UInt8) : Option (List UInt8) :=
  if i ≤ j ∧ j ≤ buf.length ∧ src.length = j - i then some (buf.take i ++ src ++ buf.drop j)
  else none

theorem copyFromSlice_eq_none {buf src : List UInt8} {i j : ℕ} (h : src.length ≠ j - i) :
    copyFromSlice buf i j src = none := by
  unfold copyFromSlice
  rw [if_neg]
  intro hfits
  exact h hfits.2.2

theorem fromBeBytes_toBeBytes (n : UInt32) :
    fromBeBytes (UInt8.ofNat (n.toNat / 2 ^ 24)) (UInt8.ofNat (n.toNat / 2 ^ 16))
      (UInt8.ofNat (n.toNat / 2 ^ 8)) (UInt8.ofNat n.toNat) = n := by
  have hlt : n.toNat < 2 ^ 32 := n.toNat_lt
  unfold fromBeBytes
  apply UInt32.toNat_inj.1
  simp only [UInt8.toNat_ofNat', UInt32.toNat_ofNat']
  omega

/-- `str::as_bytes`. -/
def asBytes (s : String) : List UInt8 := s.toByteArray.data.toList

theorem asBytes_inj {s t : String} : asBytes s = asBytes t ↔ s = t := by
  constructor
  · intro h
    exact String.toByteArray_inj.1 (ByteArray.ext (Array.toList_inj.1 h))
  · exact congrArg asBytes

theorem asBytes_ofList (cs : List Char) :
    asBytes (String.ofList cs) = cs.flatMap String.utf8EncodeChar := by
  unfold asBytes
  rw [String.toByteArray_ofList, List.utf8Encode]
  simp

/-- A character is one byte, its own code, or starts with a byte from 128 on. -/
theorem utf8EncodeChar_cases (c : Char) :
    (c.toNat < 128 ∧ String.utf8EncodeChar c = [UInt8.ofNat c.toNat]) ∨
      (128 ≤ c.toNat ∧ ∃ b rest, String.utf8EncodeChar c = b :: rest ∧ 128 ≤ b.toNat) := by
  have hval : c.val.toNat = c.toNat := rfl
  unfold String.utf8EncodeChar
  simp only [hval]
  by_cases hascii : c.toNat ≤ 127
  · rw [if_pos hascii]
    exact .inl ⟨by omega, rfl⟩
  · refine .inr ⟨by omega, ?_⟩
    rw [if_neg hascii]
    split
    · refine ⟨_, _, rfl, ?_⟩
      rw [UInt8.toNat_ofNat']
      omega
    · split <;> refine ⟨_, _, rfl, ?_⟩ <;> rw [UInt8.toNat_ofNat'] <;> omega

theorem asBytes_ofList_ascii {cs : List Char} (h : ∀ c ∈ cs, c.toNat < 128) :
    asBytes (String.ofList cs) = cs.map fun c => UInt8.ofNat c.toNat := by
  rw [asBytes_ofList]
  induction cs with
  | nil => rfl
  | cons c cs ih =>
    have hc : String.utf8EncodeChar c = [UInt8.ofNat c.toNat] := by
      obtain ⟨-, hone⟩ | ⟨hlarge, -⟩ := utf8EncodeChar_cases c
      · exact hone
      · have hsmall := h c List.mem_cons_self
        omega
    rw [List.flatMap_cons, hc, ih fun d hd => h d (List.mem_cons_of_mem c hd)]
    rfl

theorem asBytes_ne_nil {s : String} (h : s ≠ "") : asBytes s ≠ [] := by
  rw [← String.ofList_toList (s := s), asBytes_ofList]
  cases hs : s.toList with
  | nil => exact absurd (String.toList_eq_nil_iff.1 hs) h
  | cons c cs =>
    rw [List.flatMap_cons]
    exact List.append_ne_nil_of_left_ne_nil String.utf8EncodeChar_ne_nil _

/-- The lowest `n` bytes of a number, the lowest first. -/
def leBytes : ℕ → ℕ → List UInt8
  | 0, _ => []
  | n + 1, v => UInt8.ofNat v :: leBytes n (v / 256)

def leValue : List UInt8 → ℕ
  | [] => 0
  | b :: bytes => b.toNat + 256 * leValue bytes

@[simp]
theorem length_leBytes (n v : ℕ) : (leBytes n v).length = n := by
  induction n generalizing v with
  | zero => rfl
  | succ n ih => rw [leBytes, List.length_cons, ih]

theorem leValue_leBytes (n v : ℕ) : leValue (leBytes n v) = v % 256 ^ n := by
  induction n generalizing v with
  | zero => rw [Nat.pow_zero, Nat.mod_one]; rfl
  | succ n ih =>
    have hbyte : (UInt8.ofNat v).toNat = v % 256 := UInt8.toNat_ofNat'
    rw [leBytes, leValue, hbyte, ih, Nat.pow_succ', Nat.mod_mul]

theorem leValue_lt (bytes : List UInt8) : leValue bytes < 256 ^ bytes.length := by
  induction bytes with
  | nil => exact Nat.one_pos
  | cons b bytes ih =>
    have hb : b.toNat < 256 := b.toNat_lt
    rw [leValue, List.length_cons, Nat.pow_succ']
    omega

section Chunks
variable {α : Type}

theorem toChunks_go (n : ℕ) (xs : List α) (acc₁ : Array α) (acc₂ : Array (List α))
    (hsize : acc₁.size ≤ n + 1) :
    List.toChunks.go (n + 1) xs acc₁ acc₂ =
      acc₂.toList ++ (acc₁.toList ++ xs.take (n + 1 - acc₁.size)) ::
        List.toChunks (n + 1) (xs.drop (n + 1 - acc₁.size)) := by
  induction xs generalizing acc₁ acc₂ with
  | nil => simp [List.toChunks.go, List.toChunks]
  | cons x xs ih =>
    unfold List.toChunks.go
    by_cases hfull : acc₁.size = n + 1
    · have hnext : List.toChunks (n + 1) (x :: xs) =
          (x :: xs.take n) :: List.toChunks (n + 1) (xs.drop n) := by
        show List.toChunks.go (n + 1) xs #[x] #[] = _
        rw [ih #[x] #[] (by simp)]
        simp
      have hsub : n + 1 - acc₁.size = 0 := by omega
      rw [if_pos (by simp [hfull]), ih _ _ (by simp), hsub, List.drop_zero, hnext]
      simp
    · obtain ⟨k, hk⟩ : ∃ k, n + 1 - acc₁.size = k + 1 := ⟨n - acc₁.size, by omega⟩
      have hk' : n + 1 - (acc₁.push x).size = k := by
        rw [Array.size_push]
        omega
      rw [if_neg (by simp [hfull]), ih _ _ (by rw [Array.size_push]; omega), hk, hk']
      simp

/-- The first chunk is what fits into it. -/
theorem toChunks_eq_cons (n : ℕ) {xs : List α} (h : xs ≠ []) :
    xs.toChunks (n + 1) = xs.take (n + 1) :: (xs.drop (n + 1)).toChunks (n + 1) := by
  match xs, h with
  | x :: xs, _ => exact toChunks_go n xs #[x] #[] (by simp)

theorem length_of_mem_toChunks {k n : ℕ} {xs chunk : List α}
    (h : xs.length = (k + 1) * n) (hchunk : chunk ∈ xs.toChunks (k + 1)) : chunk.length = k + 1 := by
  induction n generalizing xs with
  | zero =>
    rw [List.length_eq_zero_iff.1 (h.trans (Nat.mul_zero _))] at hchunk
    cases hchunk
  | succ n ih =>
    have hle : k + 1 ≤ xs.length := by
      rw [h]
      exact Nat.le_mul_of_pos_right _ n.succ_pos
    have hdrop : (xs.drop (k + 1)).length = (k + 1) * n := by
      rw [List.length_drop, h, Nat.mul_succ, Nat.add_sub_cancel]
    rw [toChunks_eq_cons k (List.ne_nil_of_length_pos (by omega)), List.mem_cons] at hchunk
    rcases hchunk with rfl | hchunk
    · rw [List.length_take, Nat.min_eq_left hle]
    · exact ih hdrop hchunk

end Chunks

end Bytes
