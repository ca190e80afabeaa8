import Quantra.Ramfs.VerityCmdline

/-! `decode_roothash` and `encode_hex` with their indices checked: `none` is an index out of bounds.
Which texts are decoded, and what they are encoded to again. -/
namespace Quantra.Verity
open Bytes MeasuredBoot Text

abbrev Indexed (α : Type) := ExceptT String Option α

/-- `xs[i]`. -/
def index {α : Type} (xs : List α) (i : ℕ) : Indexed α := ExceptT.mk (xs[i]?.map Except.ok)

/-- `out[i] = b`. -/
def store (out : Vector UInt8 32) (i : ℕ) (b : UInt8) : Indexed (Vector UInt8 32) :=
  ExceptT.mk (if h : i < 32 then some (.ok (out.set i b)) else none)

/-- One turn of the loop: the nibbles of a chunk make the `i`-th byte. -/
def decodeChunk (out : Vector UInt8 32) (chunk : List UInt8) (i : ℕ) : Indexed (Vector UInt8 32) := do
  let a ← index chunk 0
  let hi ← ExceptT.mk (some (hexNibble a))
  let b ← index chunk 1
  let lo ← ExceptT.mk (some (hexNibble b))
  store out i ((hi <<< 4) ||| lo)

def decodeIndexed (hex : String) : Indexed (Vector UInt8 32) :=
  let bytes := asBytes (trim hex)
  if bytes.length ≠ 64 then
    throw ("roothash must be 64 hex chars (32 bytes), got " ++ toString bytes.length ++ " chars")
  else
    (bytes.toChunks 2).zipIdx.foldlM (fun out x => decodeChunk out x.1 x.2) (Vector.replicate 32 0)

/-- The characters of one byte. -/
def encodeByte (b : UInt8) : Option (List Char) := do
  let hi ← hexDigits[(b >>> 4).toNat]?
  let lo ← hexDigits[(b &&& 0xf).toNat]?
  some [hi, lo]

def encodeIndexed (bytes : List UInt8) : Option String :=
  (bytes.mapM encodeByte).map fun cs => String.ofList cs.flatten

/-! What is documented. -/

/-- A hexadecimal digit of either case. -/
def IsHex (c : Char) : Prop :=
  '0' ≤ c ∧ c ≤ '9' ∨ 'a' ≤ c ∧ c ≤ 'f' ∨ 'A' ≤ c ∧ c ≤ 'F'

instance (c : Char) : Decidable (IsHex c) := inferInstanceAs (Decidable (_ ∨ _))

/-- The text, without the white space around it, is 64 hexadecimal digits. -/
def IsRoothash (hex : String) : Prop := (trim hex).toList.length = 64 ∧ ∀ c ∈ (trim hex).toList, IsHex c

/-! One byte. -/

/-- What a byte is as a hexadecimal digit, checked for every byte. -/
theorem hexNibble_table : ∀ n < 256,
    if IsHex (Char.ofNat n) then ∃ v < 16, hexNibble (UInt8.ofNat n) = .ok (UInt8.ofNat v) ∧
      hexDigit v = asciiLower (Char.ofNat n)
    else (hexNibble (UInt8.ofNat n)).isOk = false := by
  decide +kernel

/-- Two nibbles, put together and taken apart again. -/
theorem nibbles_table : ∀ hi < 16, ∀ lo < 16,
    ((UInt8.ofNat hi <<< 4) ||| UInt8.ofNat lo).toNat / 16 = hi ∧
      ((UInt8.ofNat hi <<< 4) ||| UInt8.ofNat lo).toNat % 16 = lo := by
  decide +kernel

section Nibble
variable {a v : UInt8}

theorem isHex_toNat {c : Char} (h : IsHex c) : c.toNat < 128 := by
  rcases h with ⟨-, h⟩ | ⟨-, h⟩ | ⟨-, h⟩
  · exact (UInt32.le_iff_toNat_le.1 h).trans_lt (by decide)
  · exact (UInt32.le_iff_toNat_le.1 h).trans_lt (by decide)
  · exact (UInt32.le_iff_toNat_le.1 h).trans_lt (by decide)

theorem hexNibble_ok (h : hexNibble a = .ok v) : IsHex (Char.ofNat a.toNat) ∧ v.toNat < 16 ∧
    hexDigit v.toNat = asciiLower (Char.ofNat a.toNat) := by
  have htable := hexNibble_table a.toNat a.toNat_lt
  rw [UInt8.ofNat_toNat] at htable
  split at htable
  · rename_i hhex
    obtain ⟨n, hn, hvalue, hdigit⟩ := htable
    rw [h] at hvalue
    cases hvalue
    have htoNat : (UInt8.ofNat n).toNat = n := by
      rw [UInt8.toNat_ofNat']
      omega
    rw [htoNat]
    exact ⟨hhex, hn, hdigit⟩
  · rw [h] at htable
    cases htable

theorem hexNibble_of_isHex (h : IsHex (Char.ofNat a.toNat)) : ∃ v, hexNibble a = .ok v := by
  have htable := hexNibble_table a.toNat a.toNat_lt
  rw [UInt8.ofNat_toNat, if_pos h] at htable
  obtain ⟨n, -, hvalue, -⟩ := htable
  exact ⟨_, hvalue⟩

/-- The byte of two nibbles is written with their digits. -/
theorem encode_nibbles {hi lo : UInt8} (hhi : hi.toNat < 16) (hlo : lo.toNat < 16) :
    hexDigit (((hi <<< 4) ||| lo).toNat / 16) = hexDigit hi.toNat ∧
      hexDigit (((hi <<< 4) ||| lo).toNat % 16) = hexDigit lo.toNat := by
  have htable := nibbles_table hi.toNat hhi lo.toNat hlo
  rw [UInt8.ofNat_toNat, UInt8.ofNat_toNat] at htable
  rw [htable.1, htable.2]
  exact ⟨rfl, rfl⟩

end Nibble

/-! The bytes of the text. -/

section Chunks
variable {bytes dec : List UInt8} {n : ℕ}

theorem exists_pair (h : bytes.length = 2 * (n + 1)) :
    ∃ a b rest, bytes = a :: b :: rest ∧ rest.length = 2 * n := by
  rcases bytes with _ | ⟨a, _ | ⟨b, rest⟩⟩
  · simp at h
  · simp at h
    omega
  · exact ⟨a, b, rest, rfl, by simp at h; omega⟩

theorem decodeChunks_ok (hlen : bytes.length = 2 * n) (h : decodeChunks bytes = .ok dec) :
    dec.length = n ∧ (∀ a ∈ bytes, IsHex (Char.ofNat a.toNat)) ∧
      (encodeHex dec).toList = bytes.map fun a => asciiLower (Char.ofNat a.toNat) := by
  induction n generalizing bytes dec with
  | zero =>
    rw [List.length_eq_zero_iff.1 hlen] at h ⊢
    cases h
    exact ⟨rfl, fun a ha => absurd ha List.not_mem_nil, rfl⟩
  | succ n ih =>
    obtain ⟨a, b, rest, rfl, hrest⟩ := exists_pair hlen
    unfold decodeChunks at h
    cases hhi : hexNibble a with
    | error e => rw [hhi] at h; cases h
    | ok hi =>
      cases hlo : hexNibble b with
      | error e => rw [hhi, hlo] at h; cases h
      | ok lo =>
        cases htail : decodeChunks rest with
        | error e => rw [hhi, hlo, htail] at h; cases h
        | ok tail =>
          rw [hhi, hlo, htail] at h
          cases h
          obtain ⟨hlength, hhex, htext⟩ := ih hrest htail
          obtain ⟨ha, hasmall, hadigit⟩ := hexNibble_ok hhi
          obtain ⟨hb, hbsmall, hbdigit⟩ := hexNibble_ok hlo
          obtain ⟨hquot, hrem⟩ := encode_nibbles hasmall hbsmall
          refine ⟨by rw [List.length_cons, hlength], ?_, ?_⟩
          · intro c hc
            rcases List.mem_cons.1 hc with rfl | hc
            · exact ha
            · rcases List.mem_cons.1 hc with rfl | hc
              · exact hb
              · exact hhex c hc
          · rw [encodeHex, String.toList_ofList] at htext ⊢
            rw [List.flatMap_cons, htext, hquot, hrem, hadigit, hbdigit]
            rfl

theorem decodeChunks_of_isHex (hlen : bytes.length = 2 * n)
    (h : ∀ a ∈ bytes, IsHex (Char.ofNat a.toNat)) : ∃ dec, decodeChunks bytes = .ok dec := by
  induction n generalizing bytes with
  | zero =>
    rw [List.length_eq_zero_iff.1 hlen]
    exact ⟨[], rfl⟩
  | succ n ih =>
    obtain ⟨a, b, rest, rfl, hrest⟩ := exists_pair hlen
    obtain ⟨hi, hhi⟩ := hexNibble_of_isHex (h a List.mem_cons_self)
    obtain ⟨lo, hlo⟩ := hexNibble_of_isHex (h b (List.mem_cons_of_mem a List.mem_cons_self))
    obtain ⟨tail, htail⟩ := ih hrest fun c hc =>
      h c (List.mem_cons_of_mem a (List.mem_cons_of_mem b hc))
    refine ⟨((hi <<< 4) ||| lo) :: tail, ?_⟩
    rw [decodeChunks, hhi, hlo, htail]
    rfl

end Chunks

section Ascii
variable {text : String}

theorem asBytes_of_isHex (h : ∀ c ∈ text.toList, IsHex c) :
    asBytes text = text.toList.map fun c => UInt8.ofNat c.toNat := by
  conv_lhs => rw [← String.ofList_toList (s := text)]
  exact asBytes_ofList_ascii fun c hc => isHex_toNat (h c hc)

theorem ofNat_toNat_of_isHex {c : Char} (h : IsHex c) :
    Char.ofNat (UInt8.ofNat c.toNat).toNat = c := by
  have hlt := isHex_toNat h
  have htoNat : (UInt8.ofNat c.toNat).toNat = c.toNat := by
    rw [UInt8.toNat_ofNat']
    omega
  rw [htoNat, Char.ofNat_toNat]

/-- Only an ASCII text has bytes that are all hexadecimal digits. -/
theorem isHex_of_asBytes (h : ∀ a ∈ asBytes text, IsHex (Char.ofNat a.toNat)) :
    ∀ c ∈ text.toList, IsHex c := by
  intro c hc
  rw [← String.ofList_toList (s := text), asBytes_ofList] at h
  rcases utf8EncodeChar_cases c with ⟨hsmall, hbyte⟩ | ⟨-, b, rest, hbytes, hlarge⟩
  · have hmem : UInt8.ofNat c.toNat ∈ text.toList.flatMap String.utf8EncodeChar :=
      List.mem_flatMap.2 ⟨c, hc, by rw [hbyte]; exact List.mem_singleton_self _⟩
    have htoNat : (UInt8.ofNat c.toNat).toNat = c.toNat := by
      rw [UInt8.toNat_ofNat']
      omega
    have hhex := h _ hmem
    rwa [htoNat, Char.ofNat_toNat] at hhex
  · have hmem : b ∈ text.toList.flatMap String.utf8EncodeChar :=
      List.mem_flatMap.2 ⟨c, hc, by rw [hbytes]; exact List.mem_cons_self⟩
    have hlt := isHex_toNat (h b hmem)
    have hvalid : (Char.ofNat b.toNat).toNat = b.toNat := by
      have hb := b.toNat_lt
      have hrange : b.toNat.isValidChar := .inl (by omega)
      rw [Char.ofNat, dif_pos hrange]
      rfl
    omega

end Ascii

/-! The indices. -/

/-- The first bytes are those of `dec`. -/
def Written (out : Vector UInt8 32) (dec : List UInt8) : Prop := ∀ i < dec.length, out[i]? = dec[i]?

theorem Written.set {out : Vector UInt8 32} {done : List UInt8} (h : Written out done)
    (hlt : done.length < 32) (b : UInt8) : Written (out.set done.length b) (done ++ [b]) := by
  intro i hi
  rw [Vector.getElem?_set hlt]
  by_cases hlast : done.length = i
  · rw [if_pos hlast, ← hlast, List.getElem?_concat_length]
  · have hfirst : i < done.length := by
      rw [List.length_append, List.length_singleton] at hi
      omega
    rw [if_neg hlast, h i hfirst, List.getElem?_append_left hfirst]

theorem decodeChunk_eq (out : Vector UInt8 32) (a b : UInt8) {i : ℕ} (hi : i < 32) :
    decodeChunk out [a, b] i = ExceptT.mk (some (match hexNibble a, hexNibble b with
      | .ok x, .ok y => .ok (out.set i ((x <<< 4) ||| y))
      | .ok _, .error e => .error e
      | .error e, _ => .error e)) := by
  have hfirst : index [a, b] 0 = pure a := rfl
  have hsecond : index [a, b] 1 = pure b := rfl
  simp only [decodeChunk, hfirst, hsecond, pure_bind]
  cases hexNibble a with
  | error e => rfl
  | ok x =>
    cases hexNibble b with
    | error e => rfl
    | ok y =>
      have hstore : store out i ((x <<< 4) ||| y) =
          ExceptT.mk (some (.ok (out.set i ((x <<< 4) ||| y)))) := by
        rw [store, dif_pos hi]
      exact hstore

theorem mk_ok_bind {α β : Type} (a : α) (f : α → Indexed β) :
    ExceptT.mk (some (.ok a)) >>= f = f a := rfl

theorem mk_error_bind {α β : Type} (e : String) (f : α → Indexed β) :
    ExceptT.mk (some (.error e)) >>= f = ExceptT.mk (some (.error e)) := rfl

/-- The loop stays within its bounds and comes to what the nibbles give. -/
theorem decodeLoop_eq {bytes done : List UInt8} {n : ℕ} {out : Vector UInt8 32}
    (hlen : bytes.length = 2 * n) (hfit : done.length + n ≤ 32) (hout : Written out done) :
    ∃ out', ((bytes.toChunks 2).zipIdx done.length).foldlM (fun out x => decodeChunk out x.1 x.2)
        out = ExceptT.mk (some ((decodeChunks bytes).map fun _ => out')) ∧
      ∀ dec, decodeChunks bytes = .ok dec → Written out' (done ++ dec) := by
  induction n generalizing bytes done out with
  | zero =>
    rw [List.length_eq_zero_iff.1 hlen]
    refine ⟨out, rfl, fun dec hdec => ?_⟩
    cases hdec
    rwa [List.append_nil]
  | succ n ih =>
    obtain ⟨a, b, rest, rfl, hrest⟩ := exists_pair hlen
    have htake : (a :: b :: rest).take 2 = [a, b] := rfl
    have hdrop : (a :: b :: rest).drop 2 = rest := rfl
    rw [toChunks_eq_cons 1 (List.cons_ne_nil a _), List.zipIdx_cons, List.foldlM_cons, htake, hdrop,
      decodeChunk_eq out a b (by omega), decodeChunks]
    cases hexNibble a with
    | error e => exact ⟨out, mk_error_bind e _, fun dec hdec => by cases hdec⟩
    | ok x =>
      cases hexNibble b with
      | error e => exact ⟨out, mk_error_bind e _, fun dec hdec => by cases hdec⟩
      | ok y =>
        have hlonger : (done ++ [(x <<< 4) ||| y]).length = done.length + 1 := List.length_append
        obtain ⟨out', hfold, hwritten⟩ := ih hrest (by omega) (hout.set (by omega) ((x <<< 4) ||| y))
        rw [hlonger] at hfold
        refine ⟨out', ?_, fun dec hdec => ?_⟩
        · rw [mk_ok_bind, hfold]
          cases decodeChunks rest <;> rfl
        · cases htail : decodeChunks rest with
          | error e => rw [htail] at hdec; cases hdec
          | ok tail =>
            rw [htail] at hdec
            cases hdec
            have hall := hwritten tail htail
            rwa [List.append_assoc] at hall

theorem Written.eq_ofFn {out : Vector UInt8 32} {dec : List UInt8} (h : Written out dec)
    (hlen : dec.length = 32) : out = Vector.ofFn fun i : Fin 32 => dec.getD i 0 := by
  apply Vector.ext
  intro i hi
  have hbyte := h i (by omega)
  rw [Vector.getElem?_eq_getElem hi] at hbyte
  rw [Vector.getElem_ofFn, List.getD_eq_getElem?_getD, ← hbyte, Option.getD_some]

theorem decodeIndexed_eq (hex : String) :
    decodeIndexed hex = ExceptT.mk (some (decodeRoothash hex)) := by
  unfold decodeIndexed decodeRoothash
  dsimp only
  by_cases hlen : (asBytes (trim hex)).length = 64
  · have hempty : Written (Vector.replicate 32 0) [] := fun i hi => absurd hi (Nat.not_lt_zero i)
    obtain ⟨out, hfold, hwritten⟩ := decodeLoop_eq (n := 32) hlen le_rfl hempty
    rw [List.length_nil] at hfold
    rw [if_neg (not_not.2 hlen), if_neg (not_not.2 hlen), hfold]
    cases hdec : decodeChunks (asBytes (trim hex)) with
    | error e => simp only [Except.map]
    | ok dec =>
      have hout := (hwritten dec hdec).eq_ofFn (decodeChunks_ok hlen hdec).1
      rw [List.nil_append] at hout
      simp only [Except.map, hout]
  · rw [if_pos hlen, if_pos hlen]
    rfl

/-! Writing. -/

theorem encodeByte_eq (b : UInt8) :
    encodeByte b = some [hexDigit (b.toNat / 16), hexDigit (b.toNat % 16)] := by
  have hb := b.toNat_lt
  have hhigh : (b >>> 4).toNat = b.toNat / 16 := by
    rw [UInt8.toNat_shiftRight]
    exact Nat.shiftRight_eq_div_pow b.toNat 4
  have hlow : (b &&& 0xf).toNat = b.toNat % 16 := by
    rw [UInt8.toNat_and]
    exact Nat.and_two_pow_sub_one_eq_mod b.toNat 4
  have hdigit : ∀ n < 16, hexDigits[n]? = some (hexDigit n) := by decide
  rw [encodeByte, hhigh, hlow, hdigit _ (by omega), hdigit _ (by omega)]
  rfl

theorem encodeIndexed_eq (bytes : List UInt8) : encodeIndexed bytes = some (encodeHex bytes) := by
  have hall : bytes.mapM encodeByte =
      some (bytes.map fun b => [hexDigit (b.toNat / 16), hexDigit (b.toNat % 16)]) := by
    induction bytes with
    | nil => rfl
    | cons b rest ih => rw [List.mapM_cons, encodeByte_eq, ih]; rfl
  rw [encodeIndexed, hall, Option.map_some, encodeHex, List.flatMap_def]

theorem hexDigit_lower : ∀ n < 16, IsHex (hexDigit n) ∧ asciiLower (hexDigit n) = hexDigit n ∧
    isWhitespace (hexDigit n) = false := by
  decide

theorem encodeHex_digits {bytes : List UInt8} {c : Char} (hc : c ∈ (encodeHex bytes).toList) :
    ∃ n < 16, c = hexDigit n := by
  rw [encodeHex, String.toList_ofList] at hc
  obtain ⟨b, -, hc⟩ := List.mem_flatMap.1 hc
  have hb := b.toNat_lt
  rcases List.mem_cons.1 hc with rfl | hc
  · exact ⟨_, by omega, rfl⟩
  · exact ⟨_, by omega, List.mem_singleton.1 hc⟩

theorem length_encodeHex (bytes : List UInt8) :
    (encodeHex bytes).toList.length = 2 * bytes.length := by
  induction bytes with
  | nil => rfl
  | cons b rest ih =>
    rw [encodeHex, String.toList_ofList] at ih ⊢
    rw [List.flatMap_cons, List.length_append, ih, List.length_cons]
    exact (by omega : 2 + 2 * rest.length = 2 * (rest.length + 1))

theorem trim_encodeHex (bytes : List UInt8) : trim (encodeHex bytes) = encodeHex bytes := by
  apply trim_of_forall
  intro c hc
  obtain ⟨n, hn, rfl⟩ := encodeHex_digits hc
  exact (hexDigit_lower n hn).2.2

theorem isRoothash_encodeHex (b : Vector UInt8 32) : IsRoothash (encodeHex b.toList) := by
  rw [IsRoothash, trim_encodeHex, length_encodeHex, Vector.length_toList]
  refine ⟨rfl, fun c hc => ?_⟩
  obtain ⟨n, hn, rfl⟩ := encodeHex_digits hc
  exact (hexDigit_lower n hn).1

theorem toAsciiLowercase_encodeHex (bytes : List UInt8) :
    toAsciiLowercase (encodeHex bytes) = encodeHex bytes := by
  have hsame : (encodeHex bytes).toList.map asciiLower = (encodeHex bytes).toList := by
    conv_rhs => rw [← List.map_id (encodeHex bytes).toList]
    apply List.map_congr_left
    intro c hc
    obtain ⟨n, hn, rfl⟩ := encodeHex_digits hc
    exact (hexDigit_lower n hn).2.1
  rw [toAsciiLowercase, hsame, String.ofList_toList]

/-! Reading. -/

section Accepted
variable {hex : String} {b : Vector UInt8 32}

theorem asBytes_of_isRoothash (h : IsRoothash hex) : (asBytes (trim hex)).length = 2 * 32 ∧
    ∀ a ∈ asBytes (trim hex), IsHex (Char.ofNat a.toNat) := by
  rw [asBytes_of_isHex h.2, List.length_map]
  refine ⟨h.1, fun a ha => ?_⟩
  obtain ⟨c, hc, rfl⟩ := List.mem_map.1 ha
  rw [ofNat_toNat_of_isHex (h.2 c hc)]
  exact h.2 c hc

theorem decodeRoothash_of_isRoothash (h : IsRoothash hex) : ∃ b, decodeRoothash hex = .ok b := by
  obtain ⟨hlen, hhex⟩ := asBytes_of_isRoothash h
  obtain ⟨dec, hdec⟩ := decodeChunks_of_isHex hlen hhex
  rw [decodeRoothash, if_neg (not_not.2 hlen), hdec]
  exact ⟨_, rfl⟩

theorem toList_ofFn_getD {dec : List UInt8} (hlen : dec.length = 32) :
    (Vector.ofFn fun i : Fin 32 => dec.getD i 0).toList = dec := by
  apply List.ext_getElem
  · rw [Vector.length_toList, hlen]
  · intro i hi hdec
    rw [Vector.getElem_toList, Vector.getElem_ofFn, List.getD_eq_getElem?_getD,
      List.getElem?_eq_getElem hdec, Option.getD_some]

theorem decodeRoothash_ok (h : decodeRoothash hex = .ok b) :
    IsRoothash hex ∧ encodeHex b.toList = toAsciiLowercase (trim hex) := by
  unfold decodeRoothash at h
  dsimp only at h
  by_cases hlen : (asBytes (trim hex)).length = 64
  · rw [if_neg (not_not.2 hlen)] at h
    cases hdec : decodeChunks (asBytes (trim hex)) with
    | error e => rw [hdec] at h; cases h
    | ok dec =>
      rw [hdec] at h
      obtain ⟨hlength, hbytes, htext⟩ := decodeChunks_ok (n := 32) hlen hdec
      have hhex := isHex_of_asBytes hbytes
      have hb : b.toList = dec := by
        rw [← Except.ok.inj h]
        exact toList_ofFn_getD hlength
      rw [asBytes_of_isHex hhex] at hlen htext
      rw [List.length_map] at hlen
      rw [List.map_map] at htext
      have hlower : (encodeHex dec).toList = (trim hex).toList.map asciiLower := by
        rw [htext]
        apply List.map_congr_left
        intro c hc
        exact congrArg asciiLower (ofNat_toNat_of_isHex (hhex c hc))
      refine ⟨⟨hlen, hhex⟩, ?_⟩
      rw [hb, toAsciiLowercase, ← hlower, String.ofList_toList]
  · rw [if_pos hlen] at h
    cases h

theorem decodeRoothash_encodeHex (b : Vector UInt8 32) : decodeRoothash (encodeHex b.toList) = .ok b := by
  obtain ⟨b', hb'⟩ := decodeRoothash_of_isRoothash (isRoothash_encodeHex b)
  have htext := (decodeRoothash_ok hb').2
  rw [trim_encodeHex, toAsciiLowercase_encodeHex] at htext
  have hsame : b' = b := Vector.toList_inj.1 (encodeHex_inj htext)
  rw [hb', hsame]

end Accepted

/-- The two are inverse to each other up to the case of the digits, and neither leaves its bounds. -/
theorem roothash_codec :
    (∀ hex, ∃ r, (decodeIndexed hex).run = some r ∧ (r.isOk ↔ IsRoothash hex) ∧
      ∀ b, r = .ok b → encodeIndexed b.toList = some (toAsciiLowercase (trim hex))) ∧
    ∀ b : Vector UInt8 32, ∃ text, encodeIndexed b.toList = some text ∧
      (decodeIndexed text).run = some (.ok b) := by
  constructor
  · intro hex
    refine ⟨decodeRoothash hex, congrArg ExceptT.run (decodeIndexed_eq hex), ?_, fun b hb => ?_⟩
    · constructor
      · intro hok
        cases hdec : decodeRoothash hex with
        | error e => rw [hdec] at hok; cases hok
        | ok b => exact (decodeRoothash_ok hdec).1
      · intro hhex
        obtain ⟨b, hb⟩ := decodeRoothash_of_isRoothash hhex
        rw [hb]
        rfl
    · rw [encodeIndexed_eq, (decodeRoothash_ok hb).2]
  · intro b
    refine ⟨_, encodeIndexed_eq _, ?_⟩
    rw [decodeIndexed_eq, decodeRoothash_encodeHex]
    rfl

end Quantra.Verity
