import Mathlib.Data.List.Nodup
import Quantra.Net.WireGuard.Message

/-! The text form of WireGuard keys in `quantra-netd` (`wireguard.rs`): base64 as it is written, and
what is read of it. -/
namespace Quantra.WireGuard
open Bytes

def alphabetCodes : List ℕ :=
  List.range' 65 26 ++ List.range' 97 26 ++ List.range' 48 10 ++ [43, 47]

theorem mem_alphabetCodes {n : ℕ} : n ∈ alphabetCodes ↔
    (65 ≤ n ∧ n < 91) ∨ (97 ≤ n ∧ n < 123) ∨ (48 ≤ n ∧ n < 58) ∨ n = 43 ∨ n = 47 := by
  simp [alphabetCodes, List.mem_range'_1]

theorem alphabetCodes_lt : ∀ n ∈ alphabetCodes, n < 128 := by
  intro n h
  have hcases := mem_alphabetCodes.1 h
  omega

theorem toNat_charOfNat {n : ℕ} (h : n < 256) : (Char.ofNat n).toNat = n := by
  have hvalid : n.isValidChar := Or.inl (by omega)
  rw [Char.ofNat, dif_pos hvalid]
  rfl

theorem alphabet_eq : alphabet = alphabetCodes.map UInt8.ofNat := by
  have htext : "ABCDEFGHIJKLMNOPQRSTUVWXYZabcdefghijklmnopqrstuvwxyz0123456789+/" =
      String.ofList (alphabetCodes.map Char.ofNat) := rfl
  have hcode : ∀ n ∈ alphabetCodes, (Char.ofNat n).toNat = n := by
    intro n h
    have hlt := alphabetCodes_lt n h
    exact toNat_charOfNat (by omega)
  rw [alphabet, htext, asBytes_ofList_ascii, List.map_map]
  · apply List.map_congr_left
    intro n h
    rw [Function.comp_apply, hcode n h]
  · intro c hc
    obtain ⟨n, h, rfl⟩ := List.mem_map.1 hc
    rw [hcode n h]
    exact alphabetCodes_lt n h

theorem length_alphabet : alphabet.length = 64 := by
  rw [alphabet_eq]
  rfl

/-- `ALPHABET[(n & 0x3F) as usize]`. -/
def digit (n : UInt8) : UInt8 :=
  alphabet.get ⟨(n &&& 0x3F).toNat, by
    have hand : (n &&& 0x3F).toNat ≤ 63 := Nat.and_le_right
    rw [length_alphabet]
    omega⟩

/-- `u8 as char`. -/
def digitChar (n : UInt8) : Char := Char.ofNat (digit n).toNat

/-- The body of the loop over chunks of up to three bytes. -/
def encodeChunk (chunk : List UInt8) : List Char :=
  let a := chunk.headD 0
  let b := chunk.getD 1 0
  let c := chunk.getD 2 0
  [digitChar (a >>> 2), digitChar (a <<< 4 ||| b >>> 4),
    if chunk.length > 1 then digitChar (b <<< 2 ||| c >>> 6) else '=',
    if chunk.length > 2 then digitChar c else '=']

def encodeKey (key : Vector UInt8 32) : String :=
  String.ofList ((key.toList.toChunks 3).flatMap encodeChunk)

/-! What a key looks like. -/

/-- A character of the base64 alphabet. -/
def isBase64 (c : Char) : Bool := c.isAlphanum || c == '+' || c == '/'

/-- A text without the white space around it and without the `=` at its end. -/
def stripped (s : String) : List Char := Text.dropWhileEnd (· = '=') (Text.trim s).toList

/-! One digit. -/

theorem toNat_ofNat_code {n : ℕ} (h : n ∈ alphabetCodes) : (UInt8.ofNat n).toNat = n := by
  have hlt := alphabetCodes_lt n h
  rw [UInt8.toNat_ofNat', Nat.mod_eq_of_lt (by omega)]

theorem mem_alphabet {b : UInt8} : b ∈ alphabet ↔ b.toNat ∈ alphabetCodes := by
  rw [alphabet_eq, List.mem_map]
  constructor
  · rintro ⟨n, hn, rfl⟩
    rwa [toNat_ofNat_code hn]
  · intro h
    exact ⟨b.toNat, h, UInt8.ofNat_toNat⟩

theorem nodup_alphabet : alphabet.Nodup := by
  rw [alphabet_eq]
  have hcodes : alphabetCodes.Nodup := by
    simp [alphabetCodes, List.nodup_append, List.nodup_range', List.mem_range'_1]
    refine ⟨⟨?_, ?_⟩, ?_⟩ <;> intros <;> omega
  apply List.Nodup.map_on _ hcodes
  intro m hm n hn h
  rw [← toNat_ofNat_code hm, h, toNat_ofNat_code hn]

theorem val_digit (n : UInt8) : val (digit n) = some (n &&& 0x3F) := by
  have hback : UInt8.ofNat (n &&& 0x3F).toNat = n &&& 0x3F := UInt8.ofNat_toNat
  have hlt : (n &&& 0x3F).toNat < alphabet.length := by
    have hand : (n &&& 0x3F).toNat ≤ 63 := Nat.and_le_right
    rw [length_alphabet]
    omega
  have hfirst : alphabet.idxOf? (digit n) = some (n &&& 0x3F).toNat := by
    refine List.idxOf?_eq_some_iff.2 ⟨hlt, rfl, fun j hj heq => ?_⟩
    have hsame := nodup_alphabet.getElem_inj_iff.1 heq
    omega
  rw [val, hfirst, Option.map_some, hback]

theorem isBase64_iff {c : Char} : isBase64 c = true ↔ c.toNat ∈ alphabetCodes := by
  have hdef : isBase64 c = (((decide (c.val ≥ 'A'.val ∧ c.val ≤ 'Z'.val) ||
      (c.val ≥ 'a'.val && c.val ≤ 'z'.val)) || (c.val ≥ '0'.val && c.val ≤ '9'.val)) ||
        c == '+' || c == '/') := rfl
  have heq : ∀ d : Char, c = d ↔ c.toNat = d.toNat := fun d => Char.toNat_inj.symm
  have hval : c.val.toNat = c.toNat := rfl
  rw [mem_alphabetCodes, hdef]
  simp only [Bool.or_eq_true, beq_iff_eq, heq, Bool.and_eq_true, decide_eq_true_eq, ge_iff_le,
    UInt32.le_iff_toNat_le, hval, Char.reduceToNat, Char.reduceVal, UInt32.reduceToNat]
  omega

theorem isBase64_digitChar (n : UInt8) : isBase64 (digitChar n) = true := by
  have hmem : (digit n).toNat ∈ alphabetCodes := mem_alphabet.1 (List.get_mem alphabet _)
  rw [isBase64_iff, digitChar, toNat_charOfNat (digit n).toNat_lt]
  exact hmem

theorem isBase64_ascii {c : Char} (h : isBase64 c = true) : c.toNat < 128 :=
  alphabetCodes_lt _ (isBase64_iff.1 h)

theorem isSome_val_iff {c : Char} (h : c.toNat < 128) :
    (val (UInt8.ofNat c.toNat)).isSome = isBase64 c := by
  have hcode : (UInt8.ofNat c.toNat).toNat = c.toNat := by
    rw [UInt8.toNat_ofNat', Nat.mod_eq_of_lt (by omega)]
  rw [val, Option.isSome_map, Bool.eq_iff_iff, List.isSome_idxOf?, mem_alphabet, hcode,
    isBase64_iff]

theorem val_of_large {b : UInt8} (h : 128 ≤ b.toNat) : val b = none := by
  unfold val
  rw [List.idxOf?_eq_none_iff.2, Option.map_none]
  intro hmem
  have hlt := alphabetCodes_lt _ (mem_alphabet.1 hmem)
  omega

/-- The bytes of a text are all in the alphabet if and only if its characters are. -/
theorem forall_isSome_val {cs : List Char} :
    (∀ b ∈ asBytes (String.ofList cs), (val b).isSome) ↔ ∀ c ∈ cs, isBase64 c = true := by
  rw [asBytes_ofList, List.forall_mem_flatMap]
  constructor
  · intro h c hc
    obtain ⟨hascii, hone⟩ | ⟨-, b, rest, hbytes, hlarge⟩ := utf8EncodeChar_cases c
    · have hbyte : (val (UInt8.ofNat c.toNat)).isSome = true := h c hc _ (by rw [hone]; simp)
      rwa [isSome_val_iff hascii] at hbyte
    · have hnone : (val b).isSome = true := h c hc b (by rw [hbytes]; simp)
      rw [val_of_large hlarge] at hnone
      exact absurd hnone (by decide)
  · intro h c hc b hb
    have hascii : c.toNat < 128 := isBase64_ascii (h c hc)
    obtain ⟨-, hone⟩ | ⟨hlarge, -⟩ := utf8EncodeChar_cases c
    · rw [hone, List.mem_singleton] at hb
      rw [hb, isSome_val_iff hascii, h c hc]
    · omega

/-! Four digits for three bytes. -/

section Bits
variable (a b c : UInt8)

/-- `0`, `1`, .. `7`. -/
theorem bit_cases {i : ℕ} (h : i < 8) :
    i = 0 ∨ i = 1 ∨ i = 2 ∨ i = 3 ∨ i = 4 ∨ i = 5 ∨ i = 6 ∨ i = 7 := by omega

theorem first_byte : ((a >>> 2) &&& 0x3F) <<< 2 ||| ((a <<< 4 ||| b >>> 4) &&& 0x3F) >>> 4 = a := by
  apply UInt8.eq_of_toBitVec_eq
  ext i hi
  obtain rfl | rfl | rfl | rfl | rfl | rfl | rfl | rfl := bit_cases hi <;> simp

theorem second_byte :
    ((a <<< 4 ||| b >>> 4) &&& 0x3F) <<< 4 ||| ((b <<< 2 ||| c >>> 6) &&& 0x3F) >>> 2 = b := by
  apply UInt8.eq_of_toBitVec_eq
  ext i hi
  obtain rfl | rfl | rfl | rfl | rfl | rfl | rfl | rfl := bit_cases hi <;> simp

theorem third_byte : ((b <<< 2 ||| c >>> 6) &&& 0x3F) <<< 6 ||| (c &&& 0x3F) = c := by
  apply UInt8.eq_of_toBitVec_eq
  ext i hi
  obtain rfl | rfl | rfl | rfl | rfl | rfl | rfl | rfl := bit_cases hi <;> simp

end Bits

/-- What `encode_key` writes before the padding, as numbers whose six low bits count. -/
def sextets : List UInt8 → List UInt8
  | a :: b :: c :: rest =>
    a >>> 2 :: (a <<< 4 ||| b >>> 4) :: (b <<< 2 ||| c >>> 6) :: c :: sextets rest
  | [a, b] => [a >>> 2, a <<< 4 ||| b >>> 4, b <<< 2]
  | [a] => [a >>> 2, a <<< 4]
  | [] => []

/-- What is read of the characters of a key. -/
def decodeBytes (l : List UInt8) : List UInt8 :=
  (l.toChunks 4).flatMap fun chunk => decodeChunk (chunk.filterMap val)

theorem decodeBytes_of_four (a b c d : UInt8) (rest : List UInt8) :
    decodeBytes (a :: b :: c :: d :: rest) =
      decodeChunk ([a, b, c, d].filterMap val) ++ decodeBytes rest := by
  unfold decodeBytes
  rw [toChunks_eq_cons 3 (List.cons_ne_nil _ _), List.flatMap_cons]
  rfl

theorem decodeBytes_of_short {l : List UInt8} (hpos : l ≠ []) (hlen : l.length ≤ 4) :
    decodeBytes l = decodeChunk (l.filterMap val) := by
  unfold decodeBytes
  rw [toChunks_eq_cons 3 hpos, List.flatMap_cons, List.take_of_length_le hlen,
    List.drop_of_length_le hlen]
  exact List.append_nil _

theorem decodeBytes_sextets (l : List UInt8) : decodeBytes ((sextets l).map digit) = l := by
  induction l using sextets.induct with
  | case1 a b c rest ih =>
    show decodeBytes (digit _ :: digit _ :: digit _ :: digit _ :: (sextets rest).map digit) = _
    rw [decodeBytes_of_four, ih]
    simp only [List.filterMap_cons, List.filterMap_nil, val_digit, decodeChunk, first_byte,
      second_byte, third_byte]
    rfl
  | case2 a b =>
    have hlast : b <<< 2 ||| (0 : UInt8) >>> 6 = b <<< 2 := by simp
    have hsecond := second_byte a b 0
    rw [hlast] at hsecond
    show decodeBytes [digit _, digit _, digit _] = _
    rw [decodeBytes_of_short (List.cons_ne_nil _ _) (by simp)]
    simp only [List.filterMap_cons, List.filterMap_nil, val_digit, decodeChunk, first_byte,
      hsecond]
  | case3 a =>
    have hlast : a <<< 4 ||| (0 : UInt8) >>> 4 = a <<< 4 := by simp
    have hfirst := first_byte a 0
    rw [hlast] at hfirst
    show decodeBytes [digit _, digit _] = _
    rw [decodeBytes_of_short (List.cons_ne_nil _ _) (by simp)]
    simp only [List.filterMap_cons, List.filterMap_nil, val_digit, decodeChunk, hfirst]
  | case4 => rfl

/-- The first chunk of three. -/
theorem exists_three {n : ℕ} {l : List UInt8} (h : l.length = n + 3) :
    ∃ a b c rest, l = a :: b :: c :: rest ∧ rest.length = n := by
  obtain ⟨a, t, rfl⟩ := List.exists_cons_of_length_eq_add_one h
  obtain ⟨b, t, rfl⟩ := List.exists_cons_of_length_eq_add_one (Nat.succ.inj h)
  obtain ⟨c, rest, rfl⟩ := List.exists_cons_of_length_eq_add_one (Nat.succ.inj (Nat.succ.inj h))
  exact ⟨a, b, c, rest, rfl, Nat.succ.inj (Nat.succ.inj (Nat.succ.inj h))⟩

theorem length_sextets (k : ℕ) {l : List UInt8} (h : l.length = 3 * k + 2) :
    (sextets l).length = 4 * k + 3 := by
  induction k generalizing l with
  | zero =>
    obtain ⟨a, b, rfl⟩ := List.length_eq_two.1 h
    rfl
  | succ k ih =>
    obtain ⟨a, b, c, rest, rfl, hrest⟩ := exists_three (n := 3 * k + 2) h
    simp only [sextets, List.length_cons, ih hrest]
    omega

/-- Behind whole chunks of three, two bytes are left, and one character of padding. -/
theorem flatMap_encodeChunk (k : ℕ) {l : List UInt8} (h : l.length = 3 * k + 2) :
    (l.toChunks 3).flatMap encodeChunk = (sextets l).map digitChar ++ ['='] := by
  induction k generalizing l with
  | zero =>
    obtain ⟨a, b, rfl⟩ := List.length_eq_two.1 h
    rw [toChunks_eq_cons 2 (List.cons_ne_nil _ _)]
    simp [encodeChunk, sextets, List.toChunks]
  | succ k ih =>
    obtain ⟨a, b, c, rest, rfl, hrest⟩ := exists_three (n := 3 * k + 2) h
    rw [toChunks_eq_cons 2 (List.cons_ne_nil _ _), List.flatMap_cons]
    show encodeChunk [a, b, c] ++ (rest.toChunks 3).flatMap encodeChunk = _
    rw [ih hrest]
    rfl

/-! How many bytes are read. -/

theorem length_decodeChunk {v : List UInt8} (h : v.length ≤ 4) :
    (decodeChunk v).length = v.length - 1 := by
  match v, h with
  | [], _ => rfl
  | [a], _ => rfl
  | [a, b], _ => rfl
  | [a, b, c], _ => rfl
  | [a, b, c, d], _ => rfl
  | a :: b :: c :: d :: e :: rest, h =>
    simp only [List.length_cons] at h
    omega

/-- A character outside of the alphabet costs a byte. -/
theorem length_decodeBytes (k : ℕ) {l : List UInt8} (h : l.length = 4 * k + 3) :
    (decodeBytes l).length ≤ 3 * k + 2 ∧
      ((decodeBytes l).length = 3 * k + 2 ↔ ∀ b ∈ l, (val b).isSome) := by
  induction k generalizing l with
  | zero =>
    have hpos : l ≠ [] := fun hnil => by rw [hnil] at h; cases h
    have hle : (l.filterMap val).length ≤ l.length := List.length_filterMap_le val l
    rw [decodeBytes_of_short hpos (by omega), length_decodeChunk (by omega),
      ← List.filterMap_length_eq_length]
    omega
  | succ k ih =>
    match l, h with
    | a :: b :: c :: d :: rest, h =>
      have hrest : rest.length = 4 * k + 3 := by
        simp only [List.length_cons] at h
        omega
      have hle : ([a, b, c, d].filterMap val).length ≤ 4 := List.length_filterMap_le val _
      have hfour : [a, b, c, d].length = 4 := rfl
      have hall : ([a, b, c, d].filterMap val).length = [a, b, c, d].length ↔
          ∀ x ∈ [a, b, c, d], (val x).isSome := List.filterMap_length_eq_length
      obtain ⟨hmax, hmax_iff⟩ := ih hrest
      have hsplit : (∀ x ∈ a :: b :: c :: d :: rest, (val x).isSome) ↔
          (∀ x ∈ [a, b, c, d], (val x).isSome) ∧ ∀ x ∈ rest, (val x).isSome := by
        show (∀ x ∈ [a, b, c, d] ++ rest, (val x).isSome) ↔ _
        exact List.forall_mem_append
      rw [decodeBytes_of_four, List.length_append, length_decodeChunk hle, hsplit, ← hall,
        ← hmax_iff]
      omega

/-! Keys. -/

theorem decodeKey_eq (s : String) : decodeKey s =
    if (asBytes (String.ofList (stripped s))).length ≠ 43 then
      .error ("WireGuard key must be 44 base64 chars (got " ++
        toString (asBytes (String.ofList (stripped s))).length ++ ")")
    else if h : (decodeBytes (asBytes (String.ofList (stripped s)))).length < 32 then
      .error ("WireGuard key decoded to " ++
        toString (decodeBytes (asBytes (String.ofList (stripped s)))).length ++
        " bytes (need 32)")
    else .ok ⟨((decodeBytes (asBytes (String.ofList (stripped s)))).take 32).toArray,
      size_take (Nat.le_of_not_lt h)⟩ := rfl

theorem asBytes_of_isBase64 {cs : List Char} (h : ∀ c ∈ cs, isBase64 c = true) :
    asBytes (String.ofList cs) = cs.map fun c => UInt8.ofNat c.toNat :=
  asBytes_ofList_ascii fun c hc => isBase64_ascii (h c hc)

theorem exists_decodeKey_iff (s : String) : (∃ key, decodeKey s = .ok key) ↔
    (stripped s).length = 43 ∧ ∀ c ∈ stripped s, isBase64 c = true := by
  have hbytes := length_decodeBytes 10 (l := asBytes (String.ofList (stripped s)))
  rw [decodeKey_eq, ← forall_isSome_val]
  constructor
  · rintro ⟨key, hkey⟩
    split at hkey
    · cases hkey
    · next hlen =>
      have hlen : (asBytes (String.ofList (stripped s))).length = 43 := not_not.1 hlen
      split at hkey
      · cases hkey
      · next hdecoded =>
        obtain ⟨hmax, hall⟩ := hbytes hlen
        have hvalid : ∀ b ∈ asBytes (String.ofList (stripped s)), (val b).isSome :=
          hall.1 (by omega)
        rw [asBytes_of_isBase64 (forall_isSome_val.1 hvalid), List.length_map] at hlen
        exact ⟨hlen, hvalid⟩
  · rintro ⟨hlen, hvalid⟩
    have hcount : (asBytes (String.ofList (stripped s))).length = 43 := by
      rw [asBytes_of_isBase64 (forall_isSome_val.1 hvalid), List.length_map, hlen]
    have hdecoded := (hbytes hcount).2.2 hvalid
    rw [if_neg (not_not.2 hcount), dif_neg (by omega)]
    exact ⟨_, rfl⟩

/-- Characters of the alphabet are no white space and no padding. -/
theorem isBase64_plain {c : Char} (h : isBase64 c = true) :
    Text.isWhitespace c = false ∧ c ≠ '=' := by
  have hcases := mem_alphabetCodes.1 (isBase64_iff.1 h)
  constructor
  · rw [Bool.eq_false_iff]
    intro hspace
    simp only [Text.isWhitespace, Bool.or_eq_true, Bool.and_eq_true, decide_eq_true_eq,
      beq_iff_eq] at hspace
    omega
  · intro heq
    have hcode : c.toNat = 61 := by rw [heq]; rfl
    omega

theorem stripped_encodeKey (key : Vector UInt8 32) :
    stripped (encodeKey key) = (sextets key.toList).map digitChar := by
  have hlen : key.toList.length = 3 * 10 + 2 := key.length_toList
  have hdigits : ∀ c ∈ (sextets key.toList).map digitChar, isBase64 c = true := by
    intro c hc
    obtain ⟨n, -, rfl⟩ := List.mem_map.1 hc
    exact isBase64_digitChar n
  have htext : (encodeKey key).toList = (sextets key.toList).map digitChar ++ ['='] := by
    unfold encodeKey
    rw [String.toList_ofList, flatMap_encodeChunk 10 hlen]
  have htrim : Text.trim (encodeKey key) = encodeKey key := by
    apply Text.trim_of_forall
    intro c hc
    rw [htext, List.mem_append, List.mem_singleton] at hc
    obtain hc | rfl := hc
    · exact (isBase64_plain (hdigits c hc)).1
    · decide
  unfold stripped
  rw [htrim, htext]
  exact Text.dropWhileEnd_concat (by decide) fun c hc => by
    simp [(isBase64_plain (hdigits c hc)).2]

theorem length_encodeKey (key : Vector UInt8 32) : (encodeKey key).length = 44 := by
  have hlen : key.toList.length = 3 * 10 + 2 := key.length_toList
  unfold encodeKey
  rw [flatMap_encodeChunk 10 hlen, String.length_ofList, List.length_append, List.length_map,
    length_sextets 10 hlen]
  rfl

theorem decodeKey_encodeKey (key : Vector UInt8 32) : decodeKey (encodeKey key) = .ok key := by
  have hlen : key.toList.length = 3 * 10 + 2 := key.length_toList
  have hchar : ∀ n, UInt8.ofNat (digitChar n).toNat = digit n := by
    intro n
    rw [digitChar, toNat_charOfNat (digit n).toNat_lt, UInt8.ofNat_toNat]
  have hbytes : asBytes (String.ofList (stripped (encodeKey key))) =
      (sextets key.toList).map digit := by
    rw [stripped_encodeKey, asBytes_of_isBase64, List.map_map]
    · exact List.map_congr_left fun n _ => hchar n
    · intro c hc
      obtain ⟨n, -, rfl⟩ := List.mem_map.1 hc
      exact isBase64_digitChar n
  have hcount : ((sextets key.toList).map digit).length = 43 := by
    rw [List.length_map, length_sextets 10 hlen]
  rw [decodeKey_eq]
  simp only [hbytes, decodeBytes_sextets]
  rw [if_neg (not_not.2 hcount), dif_neg (by omega)]
  have hall : key.toList.take 32 = key.toList := List.take_of_length_le (by omega)
  simp only [hall]
  rfl

/-- A key comes back from its text, which has 44 characters, and a text is a key if and only if 43
characters of the alphabet are left of it. -/
theorem key_codec (key : Vector UInt8 32) (s : String) :
    (encodeKey key).length = 44 ∧ decodeKey (encodeKey key) = .ok key ∧
      ((∃ key, decodeKey s = .ok key) ↔
        (stripped s).length = 43 ∧ ∀ c ∈ stripped s, isBase64 c = true) :=
  ⟨length_encodeKey key, decodeKey_encodeKey key, exists_decodeKey_iff s⟩

end Quantra.WireGuard
