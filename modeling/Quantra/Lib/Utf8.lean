import Quantra.Lib.Bytes

/-! Bytes as text, and a text's ASCII characters among its bytes. -/
namespace Bytes

/-- `str::from_utf8`. -/
def decode (bytes : List UInt8) : Option String := String.fromUTF8? ⟨bytes.toArray⟩

theorem decode_asBytes (s : String) : decode (asBytes s) = some s := by
  have hvalid : (⟨s.toByteArray.data.toList.toArray⟩ : ByteArray) = s.toByteArray := by
    rw [Array.toArray_toList]
  rw [decode, asBytes, hvalid, String.fromUTF8?, dif_pos s.isValidUTF8]
  rfl

theorem asBytes_of_decode {bytes : List UInt8} {s : String} (h : decode bytes = some s) :
    asBytes s = bytes := by
  unfold decode String.fromUTF8? at h
  split at h
  · cases h
    exact List.toList_toArray
  · cases h

theorem asBytes_append (s t : String) : asBytes (s ++ t) = asBytes s ++ asBytes t := by
  unfold asBytes
  rw [String.toByteArray_append, ByteArray.data_append, Array.toList_append]

/-- Every byte of a character from 128 on is from 128 on. -/
theorem toNat_of_mem_utf8EncodeChar {c : Char} {b : UInt8} (h : b ∈ String.utf8EncodeChar c)
    (hb : b.toNat < 128) : c.toNat = b.toNat := by
  have hval : c.val.toNat = c.toNat := rfl
  have hbyte (n : ℕ) (hn : 128 ≤ n ∧ n < 256) : b ≠ UInt8.ofNat n := by
    intro heq
    rw [heq, UInt8.toNat_ofNat'] at hb
    omega
  unfold String.utf8EncodeChar at h
  simp only [hval] at h
  split at h
  · rw [List.mem_singleton.1 h, UInt8.toNat_ofNat']
    omega
  · exfalso
    split at h
    · simp only [List.mem_cons, List.not_mem_nil, or_false] at h
      obtain h | h := h <;> exact hbyte _ (by omega) h
    · split at h
      · simp only [List.mem_cons, List.not_mem_nil, or_false] at h
        obtain h | h | h := h <;> exact hbyte _ (by omega) h
      · simp only [List.mem_cons, List.not_mem_nil, or_false] at h
        obtain h | h | h | h := h <;> exact hbyte _ (by omega) h

theorem mem_asBytes_iff {s : String} {c : Char} (hc : c.toNat < 128) :
    UInt8.ofNat c.toNat ∈ asBytes s ↔ c ∈ s.toList := by
  have hcode : (UInt8.ofNat c.toNat).toNat = c.toNat := by
    rw [UInt8.toNat_ofNat']
    omega
  rw [← String.ofList_toList (s := s), asBytes_ofList, String.toList_ofList, List.mem_flatMap]
  constructor
  · rintro ⟨d, hd, hbyte⟩
    have heq := toNat_of_mem_utf8EncodeChar hbyte (by omega)
    rw [hcode] at heq
    exact Char.toNat_inj.1 heq ▸ hd
  · intro hmem
    refine ⟨c, hmem, ?_⟩
    obtain ⟨-, hone⟩ | ⟨hlarge, -⟩ := utf8EncodeChar_cases c
    · rw [hone]
      exact List.mem_singleton_self _
    · omega

theorem decode_eq_some_iff {bytes : List UInt8} {s : String} :
    decode bytes = some s ↔ asBytes s = bytes :=
  ⟨asBytes_of_decode, fun h => h ▸ decode_asBytes s⟩

/-- A text divides where its bytes do, at an ASCII character. -/
theorem chars_of_bytes {cs : List Char} {a b : List UInt8} {c : Char} (hc : c.toNat < 128)
    (h : asBytes (String.ofList cs) = a ++ UInt8.ofNat c.toNat :: b) :
    ∃ u v, cs = u ++ c :: v ∧ asBytes (String.ofList u) = a ∧ asBytes (String.ofList v) = b := by
  have hcode : (UInt8.ofNat c.toNat).toNat = c.toNat := by
    rw [UInt8.toNat_ofNat']
    omega
  induction cs generalizing a with
  | nil =>
    rw [asBytes_ofList, List.flatMap_nil] at h
    cases List.append_ne_nil_of_right_ne_nil a (List.cons_ne_nil _ b) h.symm
  | cons d cs ih =>
    have hnext : ∀ a' : List UInt8, asBytes (String.ofList cs) = a' ++ UInt8.ofNat c.toNat :: b →
        ∃ u v, d :: cs = u ++ c :: v ∧
          asBytes (String.ofList u) = String.utf8EncodeChar d ++ a' ∧
            asBytes (String.ofList v) = b := by
      intro a' hrest
      obtain ⟨u, v, rfl, rfl, hv⟩ := ih hrest
      refine ⟨d :: u, v, rfl, ?_, hv⟩
      rw [asBytes_ofList, List.flatMap_cons, ← asBytes_ofList]
    rw [asBytes_ofList, List.flatMap_cons, ← asBytes_ofList] at h
    obtain ⟨a', rfl, hrest⟩ | ⟨e, hd, hrest⟩ := List.append_eq_append_iff.1 h
    · exact hnext a' hrest
    · cases e with
      | nil =>
        obtain ⟨u, v, hcs, hu, hv⟩ := hnext [] hrest.symm
        rw [hd, List.append_nil, List.append_nil] at hu
        exact ⟨u, v, hcs, hu, hv⟩
      | cons x e =>
        -- the byte is one of `d`, which is `c` then
        obtain ⟨hx, hb⟩ := List.cons.inj hrest
        have hmem : UInt8.ofNat c.toNat ∈ String.utf8EncodeChar d := by simp [hd, hx]
        have hdc := toNat_of_mem_utf8EncodeChar hmem (by omega)
        rw [hcode] at hdc
        obtain rfl := Char.toNat_inj.1 hdc
        obtain ⟨-, hone⟩ | ⟨hlarge, -⟩ := utf8EncodeChar_cases d
        · rw [hone] at hd
          obtain ⟨rfl, he⟩ | ⟨-, he⟩ := List.singleton_eq_append_iff.1 hd
          · rw [(List.cons.inj he).2] at hb
            exact ⟨[], cs, rfl, rfl, hb.symm⟩
          · cases he
        · omega

/-- A piece stands between two separators, or between one and an end. -/
theorem append_of_mem_splitOn {sep : UInt8} {piece l : List UInt8} (h : piece ∈ l.splitOn sep) :
    ∃ u v, l = u ++ piece ++ v ∧ (u = [] ∨ ∃ u', u = u' ++ [sep]) ∧
      (v = [] ∨ ∃ v', v = sep :: v') := by
  induction hn : l.length using Nat.strongRecOn generalizing l with
  | ind n ih =>
    by_cases hsep : sep ∈ l
    · obtain ⟨a, b, rfl, ha⟩ := List.eq_append_cons_of_mem hsep
      rw [List.splitOn_append_cons_self_of_not_mem ha, List.mem_cons] at h
      rcases h with rfl | h
      · exact ⟨[], sep :: b, by simp, .inl rfl, .inr ⟨b, rfl⟩⟩
      · have hlt : b.length < n := by
          rw [← hn, List.length_append, List.length_cons]
          omega
        obtain ⟨u, v, rfl, hu, hv⟩ := ih b.length hlt h rfl
        refine ⟨a ++ sep :: u, v, by simp, .inr ?_, hv⟩
        rcases hu with rfl | ⟨u', rfl⟩
        · exact ⟨a, rfl⟩
        · exact ⟨a ++ sep :: u', by simp⟩
    · rw [List.splitOn_eq_singleton hsep, List.mem_singleton] at h
      exact ⟨[], [], by simp [h], .inl rfl, .inl rfl⟩

/-- Pieces that are each ended by a byte that none of them has. -/
theorem splitOn_terminated {sep : UInt8} {pieces : List (List UInt8)} (h : ∀ p ∈ pieces, sep ∉ p) :
    (pieces.flatMap (· ++ [sep])).splitOn sep = pieces ++ [[]] := by
  induction pieces with
  | nil => rfl
  | cons p pieces ih =>
    have hp := h p List.mem_cons_self
    rw [List.flatMap_cons, List.append_assoc, List.singleton_append,
      List.splitOn_append_cons_self_of_not_mem hp, ih fun q hq => h q (List.mem_cons_of_mem p hq),
      List.cons_append]

end Bytes
