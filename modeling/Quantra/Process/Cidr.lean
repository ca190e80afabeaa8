import Quantra.Lib.Checked
import Quantra.Process.IpRange

/-! `IpRange::parse` with checked arithmetic: which texts it reads as what they are, and which end
the process. -/
namespace Quantra.Process

/-! Addresses, as the standard library reads them. -/

/-- No more than three digits, and no zero before another. -/
def parseOctet (cs : List Char) : Option ℕ :=
  if cs.length ≤ 3 ∧ (cs.head? = some '0' → cs = ['0']) then
    (Text.digitsToNat cs).filter (· < 256)
  else none

/-- `Ipv4Addr::from_str`. -/
def parseIpv4 (s : String) : Option UInt32 :=
  match (Text.splitChars '.' s.toList).mapM parseOctet with
  | some [a, b, c, d] => some (UInt32.ofNat (((a * 256 + b) * 256 + c) * 256 + d))
  | _ => none

def isHexDigit (c : Char) : Bool :=
  c.isDigit || ('a' ≤ c && c ≤ 'f') || ('A' ≤ c && c ≤ 'F')

def IsHextet (cs : List Char) : Prop := cs ≠ [] ∧ cs.length ≤ 4 ∧ cs.all isHexDigit

/-- The parts of `n` groups; the last two groups may be written as an IPv4 address. -/
def IsGroups (n : ℕ) (parts : List (List Char)) : Prop :=
  (parts.length = n ∧ ∀ p ∈ parts, IsHextet p) ∨
    ∃ front last, parts = front ++ [last] ∧ (∀ p ∈ front, IsHextet p) ∧
      (parseIpv4 (String.ofList last)).isSome ∧ front.length + 2 = n

/-- Eight groups, or fewer around one `::`. -/
def IsIpv6 (s : String) : Prop :=
  (∃ parts, IsGroups 8 parts ∧ s.toList = [':'].intercalate parts) ∨
    ∃ front back n, (∀ p ∈ front, IsHextet p) ∧ IsGroups n back ∧ front.length + n < 8 ∧
      s.toList = [':'].intercalate front ++ ':' :: ':' :: [':'].intercalate back

example : IsIpv6 "fe80::1" :=
  .inr ⟨["fe80".toList], ["1".toList], 1, by simp [IsHextet]; decide,
    .inl ⟨rfl, by simp [IsHextet]; decide⟩, by decide, by decide⟩

/-! The parser. -/

/-- The mask, where a difference below zero and a shift by the whole width end the process. -/
def checkedMask (pre : ℕ) : Option UInt32 :=
  if pre = 0 then some 0
  else (Checked.sub 32 pre).bind fun shift =>
    if shift < 32 then some (0xFFFFFFFF <<< UInt32.ofNat shift) else none

theorem checkedMask_of_le {pre : ℕ} (h : pre ≤ 32) :
    checkedMask pre = some (maskOf (UInt32.ofNat pre)) := by
  have hall : ∀ pre : Fin 33, checkedMask pre.val = some (maskOf (UInt32.ofNat pre.val)) := by
    decide
  exact hall ⟨pre, Nat.lt_succ_of_le h⟩

theorem checkedMask_of_lt {pre : ℕ} (h : 32 < pre) : checkedMask pre = none := by
  have hpos : pre ≠ 0 := by omega
  rw [checkedMask, if_neg hpos, Checked.sub_of_lt h, Option.bind_none]

theorem eq_maskOf_of_checkedMask {pre : ℕ} {mask : UInt32} (h : checkedMask pre = some mask) :
    mask = maskOf (UInt32.ofNat pre) := by
  by_cases hle : pre ≤ 32
  · rw [checkedMask_of_le hle] at h
    exact (Option.some.inj h).symm
  · rw [checkedMask_of_lt (Nat.lt_of_not_le hle)] at h
    cases h

namespace IpRange

def withMask (ip : UInt32) (pre : ℕ) (mask : UInt32) (h : checkedMask pre = some mask) : IpRange :=
  ⟨ip &&& mask, mask, false, UInt32.ofNat pre, eq_maskOf_of_checkedMask h, by
    rw [← eq_maskOf_of_checkedMask h, UInt32.and_assoc, UInt32.and_self]⟩

/-- The range of an address; `none` ends the process. -/
def checkedRange (ip : UInt32) (pre : ℕ) : Option IpRange :=
  match h : checkedMask pre with
  | some mask => some (withMask ip pre mask h)
  | none => none

/-- `none` is the end of the process; `some none` is a text that is no range. -/
def parseChecked (cidr : String) : Option (Option IpRange) :=
  let cidr := Text.trim cidr
  if cidr = "any" ∨ cidr = "0.0.0.0/0" then some (some any)
  else if cidr = "::/0" then some (some v6)
  else
    match Text.splitOnce '/' cidr with
    | none => some none
    | some (ip, pre) =>
      match Text.parseU32 pre with
      | none => some none
      | some pre =>
        match parseIpv4 ip with
        | some ip => (checkedRange ip pre).map some
        | none => some (some v6)

end IpRange

open IpRange

theorem checkedRange_of_le {ip : UInt32} {pre : ℕ} (h : pre ≤ 32) :
    checkedRange ip pre = some (ofCidr ip (UInt32.ofNat pre)) := by
  have hmask := checkedMask_of_le h
  unfold checkedRange
  split
  · rename_i mask hsome
    have heq := eq_maskOf_of_checkedMask hsome
    subst heq
    rfl
  · rename_i hnone
    rw [hmask] at hnone
    cases hnone

theorem checkedRange_of_lt {ip : UInt32} {pre : ℕ} (h : 32 < pre) :
    checkedRange ip pre = none := by
  have hmask := checkedMask_of_lt h
  unfold checkedRange
  split
  · rename_i mask hsome
    rw [hmask] at hsome
    cases hsome
  · rfl

/-- What the parser makes of an address and a length before and after the slash. -/
def rangeOf (addr : String) (pre : ℕ) : Option (Option IpRange) :=
  match parseIpv4 addr with
  | some ip => (checkedRange ip pre).map some
  | none => some (some v6)

theorem rangeOf_of_none {addr : String} (h : parseIpv4 addr = none) (pre : ℕ) :
    rangeOf addr pre = some (some v6) := by
  rw [rangeOf, h]

theorem rangeOf_of_le {addr : String} {ip : UInt32} {pre : ℕ} (h : parseIpv4 addr = some ip)
    (hle : pre ≤ 32) : rangeOf addr pre = some (some (ofCidr ip (UInt32.ofNat pre))) := by
  simp only [rangeOf, h, checkedRange_of_le hle, Option.map_some]

theorem rangeOf_of_lt {addr : String} {ip : UInt32} {pre : ℕ} (h : parseIpv4 addr = some ip)
    (hlt : 32 < pre) : rangeOf addr pre = none := by
  simp only [rangeOf, h, checkedRange_of_lt hlt, Option.map_none]

/-! What the texts stand for. -/

/-- `a.b.c.d/n`, or `any`, which is `0.0.0.0/0`. -/
def IsV4Cidr (cidr : String) (ip : UInt32) (pre : ℕ) : Prop :=
  (cidr = "any" ∧ ip = 0 ∧ pre = 0) ∨
    ∃ addr len, Text.splitOnce '/' cidr = some (addr, len) ∧ parseIpv4 addr = some ip ∧
      Text.parseU32 len = some pre ∧ pre ≤ 32

def IsV6Cidr (cidr : String) : Prop :=
  ∃ addr len pre, Text.splitOnce '/' cidr = some (addr, len) ∧ IsIpv6 addr ∧
    Text.parseU32 len = some pre ∧ pre ≤ 128

/-- The text does not end the process, it is read as what it is, and a range has the addresses that
agree with its own in the first bits. -/
structure ReadsExactly (text : String) : Prop where
  total : (parseChecked text).isSome
  v4 : (∃ r, parseChecked text = some (some r) ∧ r.isV6 = false) ↔
    ∃ ip pre, IsV4Cidr (Text.trim text) ip pre
  v6 : (∃ r, parseChecked text = some (some r) ∧ r.isV6 = true) ↔ IsV6Cidr (Text.trim text)
  contains : ∀ ip pre r, IsV4Cidr (Text.trim text) ip pre → parseChecked text = some (some r) →
    ∀ x : UInt32, r.containsIpv4 x ↔ x.toNat / 2 ^ (32 - pre) = ip.toNat / 2 ^ (32 - pre)

/-- Where a number follows the slash, an address goes before it, of a kind that the number fits. -/
def WellFormed (text : String) : Prop :=
  ∀ addr len pre, Text.splitOnce '/' (Text.trim text) = some (addr, len) →
    Text.parseU32 len = some pre →
      ((parseIpv4 addr).isSome ∧ pre ≤ 32) ∨ (IsIpv6 addr ∧ pre ≤ 128)

/-! No text is an address of both kinds. -/

theorem isDigit_of_digitsToNat {cs : List Char} {n : ℕ} (h : Text.digitsToNat cs = some n) :
    ∀ c ∈ cs, c.isDigit := by
  unfold Text.digitsToNat at h
  split at h
  · rename_i hdigits
    exact List.all_eq_true.1 hdigits.2
  · cases h

theorem not_mem_octet {cs : List Char} {n : ℕ} (h : parseOctet cs = some n) : ':' ∉ cs := by
  intro hmem
  unfold parseOctet at h
  split at h
  · have hread := (Option.filter_eq_some_iff.1 h).1
    exact absurd (isDigit_of_digitsToNat hread ':' hmem) (by decide)
  · cases h

theorem not_mem_of_parseIpv4 {s : String} (h : (parseIpv4 s).isSome) : ':' ∉ s.toList := by
  intro hmem
  unfold parseIpv4 at h
  split at h
  · rename_i hparts
    rw [← Text.intercalate_splitChars '.' s.toList] at hmem
    obtain hsep | ⟨cs, hcs, hc⟩ := Text.mem_intercalate hmem
    · cases hsep
    · obtain ⟨n, hn⟩ := Text.exists_of_mapM hparts cs hcs
      exact not_mem_octet hn hc
  · cases h

theorem mem_intercalate_of_two {sep : Char} {parts : List (List Char)} (h : 2 ≤ parts.length) :
    sep ∈ [sep].intercalate parts := by
  cases parts with
  | nil => exact absurd h (by decide)
  | cons p parts =>
    cases parts with
    | nil =>
      rw [List.length_singleton] at h
      omega
    | cons q parts =>
      rw [List.intercalate_cons_cons]
      simp

theorem mem_of_isIpv6 {s : String} (h : IsIpv6 s) : ':' ∈ s.toList := by
  obtain ⟨parts, hgroups, hs⟩ | ⟨front, back, n, -, -, -, hs⟩ := h
  · have hlen : 2 ≤ parts.length := by
      obtain ⟨hlen, -⟩ | ⟨front, last, rfl, -, -, hlen⟩ := hgroups
      · omega
      · rw [List.length_append, List.length_singleton]
        omega
    rw [hs]
    exact mem_intercalate_of_two hlen
  · rw [hs]
    simp

theorem not_isIpv6_of_parseIpv4 {s : String} (h : (parseIpv4 s).isSome) : ¬ IsIpv6 s :=
  fun hv6 => not_mem_of_parseIpv4 h (mem_of_isIpv6 hv6)

/-! The cases of the parser. -/

section Cases
variable {text addr len : String} {pre : ℕ}

theorem parseChecked_of_split (hsplit : Text.splitOnce '/' (Text.trim text) = some (addr, len))
    (hlen : Text.parseU32 len = some pre) : parseChecked text = rangeOf addr pre := by
  unfold parseChecked
  dsimp only
  split_ifs with hany hv6
  · obtain hany | hzero := hany
    · rw [hany] at hsplit
      cases hsplit
    · have hcut : Text.splitOnce '/' "0.0.0.0/0" = some ("0.0.0.0", "0") := by decide
      have hzeroLen : Text.parseU32 "0" = some 0 := by decide
      rw [hzero, hcut, Option.some.injEq, Prod.mk.injEq] at hsplit
      obtain ⟨rfl, rfl⟩ := hsplit
      rw [hzeroLen, Option.some.injEq] at hlen
      subst hlen
      rfl
  · have hcut : Text.splitOnce '/' "::/0" = some ("::", "0") := by decide
    have hnone : parseIpv4 "::" = none := by decide
    rw [hv6, hcut, Option.some.injEq, Prod.mk.injEq] at hsplit
    obtain ⟨rfl, rfl⟩ := hsplit
    rw [rangeOf_of_none hnone]
  · rw [hsplit]
    dsimp only
    rw [hlen]
    rfl

theorem parseChecked_any (h : Text.trim text = "any") : parseChecked text = some (some any) := by
  unfold parseChecked
  exact if_pos (.inl h)

theorem parseChecked_of_no_length (hany : Text.trim text ≠ "any")
    (hnone : ∀ addr len, Text.splitOnce '/' (Text.trim text) = some (addr, len) →
      Text.parseU32 len = none) : parseChecked text = some none := by
  unfold parseChecked
  dsimp only
  split_ifs with hzero hv6
  · rw [hzero.resolve_left hany] at hnone
    cases hnone "0.0.0.0" "0" (by decide)
  · rw [hv6] at hnone
    cases hnone "::" "0" (by decide)
  · split
    · rfl
    · rename_i addr len hsplit
      rw [hnone addr len hsplit]

/-- A text is `any`, has no length after a slash, or has an address before one. -/
theorem cidr_cases (text : String) : Text.trim text = "any" ∨
    (∀ addr len, Text.splitOnce '/' (Text.trim text) = some (addr, len) →
      Text.parseU32 len = none) ∨
    ∃ addr len pre, Text.splitOnce '/' (Text.trim text) = some (addr, len) ∧
      Text.parseU32 len = some pre := by
  by_cases hnone : ∀ addr len, Text.splitOnce '/' (Text.trim text) = some (addr, len) →
      Text.parseU32 len = none
  · exact .inr (.inl hnone)
  · refine .inr (.inr ?_)
    simp only [not_forall] at hnone
    obtain ⟨addr, len, hsplit, hlen⟩ := hnone
    obtain ⟨pre, hpre⟩ := Option.ne_none_iff_exists'.1 hlen
    exact ⟨addr, len, pre, hsplit, hpre⟩

/-! The addresses of a range. -/

theorem containsIpv4_ofCidr {ip x : UInt32} (h : pre ≤ 32) :
    (ofCidr ip (UInt32.ofNat pre)).containsIpv4 x ↔
      x.toNat / 2 ^ (32 - pre) = ip.toNat / 2 ^ (32 - pre) := by
  have hshift : ∀ pre : Fin 33, trailingZeros (maskOf (UInt32.ofNat pre.val)) = 32 - pre.val := by
    decide +kernel
  have hzeros : trailingZeros (maskOf (UInt32.ofNat pre)) = 32 - pre :=
    hshift ⟨pre, Nat.lt_succ_of_le h⟩
  rw [ containsIpv4_iff_prefix rfl]
  show x.toNat / 2 ^ trailingZeros (maskOf (UInt32.ofNat pre)) =
    (ip &&& maskOf (UInt32.ofNat pre)).toNat / 2 ^ trailingZeros (maskOf (UInt32.ofNat pre)) ↔ _
  rw [hzeros]
  have hkept : (ip &&& maskOf (UInt32.ofNat pre)).toNat / 2 ^ (32 - pre) =
      ip.toNat / 2 ^ (32 - pre) := by
    by_cases hzero : pre = 0
    · subst hzero
      have hip : ip.toNat / 2 ^ 32 = 0 := Nat.div_eq_of_lt ip.toNat_lt
      rw [hip]
      exact Nat.div_eq_of_lt (UInt32.toNat_lt _)
    · have hmask : maskOf (UInt32.ofNat pre) = 0xFFFFFFFF <<< UInt32.ofNat (32 - pre) := by
        have hall : ∀ pre : Fin 33, pre.val ≠ 0 →
            maskOf (UInt32.ofNat pre.val) = 0xFFFFFFFF <<< UInt32.ofNat (32 - pre.val) := by
          decide +kernel
        exact hall ⟨pre, Nat.lt_succ_of_le h⟩ hzero
      have hnat : (UInt32.ofNat (32 - pre)).toNat = 32 - pre :=
        UInt32.toNat_ofNat_of_lt' (by show 32 - pre < 4294967296; omega)
      have hlt : (UInt32.ofNat (32 - pre)).toNat < 32 := by omega
      rw [hmask, toNat_and_shiftLeft ip hlt, hnat, Nat.mul_div_cancel _ (Nat.two_pow_pos _)]
  rw [hkept]

/-! What is read in each case. -/

theorem isV4Cidr_iff_of_split
    (hsplit : Text.splitOnce '/' (Text.trim text) = some (addr, len))
    (hlen : Text.parseU32 len = some pre) {ip : UInt32} {n : ℕ} :
    IsV4Cidr (Text.trim text) ip n ↔ parseIpv4 addr = some ip ∧ n = pre ∧ pre ≤ 32 := by
  constructor
  · intro h
    obtain ⟨hany, -⟩ | ⟨addr', len', hsplit', hip, hlen', hle⟩ := h
    · rw [hany] at hsplit
      cases hsplit
    · rw [hsplit, Option.some.injEq, Prod.mk.injEq] at hsplit'
      rw [← hsplit'.2, hlen, Option.some.injEq] at hlen'
      rw [← hsplit'.1] at hip
      exact ⟨hip, hlen'.symm, hlen'.symm ▸ hle⟩
  · intro h
    exact .inr ⟨addr, len, hsplit, h.1, by rw [hlen, h.2.1], h.2.1.symm ▸ h.2.2⟩

theorem isV6Cidr_iff_of_split
    (hsplit : Text.splitOnce '/' (Text.trim text) = some (addr, len))
    (hlen : Text.parseU32 len = some pre) :
    IsV6Cidr (Text.trim text) ↔ IsIpv6 addr ∧ pre ≤ 128 := by
  constructor
  · intro h
    obtain ⟨addr', len', pre', hsplit', hv6, hlen', hle⟩ := h
    rw [hsplit, Option.some.injEq, Prod.mk.injEq] at hsplit'
    rw [← hsplit'.2, hlen, Option.some.injEq] at hlen'
    rw [← hsplit'.1] at hv6
    exact ⟨hv6, hlen'.symm ▸ hle⟩
  · intro h
    exact ⟨addr, len, pre, hsplit, h.1, hlen, h.2⟩

theorem readsExactly_any (h : Text.trim text = "any") : ReadsExactly text := by
  have hparse := parseChecked_any h
  have hpre : ∀ ip n, IsV4Cidr (Text.trim text) ip n → ip = 0 ∧ n = 0 := by
    intro ip n hv4
    obtain ⟨-, hip, hn⟩ | ⟨addr, len, hsplit, -⟩ := hv4
    · exact ⟨hip, hn⟩
    · rw [h] at hsplit
      cases hsplit
  constructor
  case total => rw [hparse]; rfl
  case v4 => exact iff_of_true ⟨any, hparse, rfl⟩ ⟨0, 0, .inl ⟨h, rfl, rfl⟩⟩
  case v6 =>
    refine iff_of_false (fun hread => ?_) fun hv6 => ?_
    · obtain ⟨r, hr, hv6⟩ := hread
      rw [hparse, Option.some.injEq, Option.some.injEq] at hr
      rw [← hr] at hv6
      cases hv6
    · obtain ⟨addr, len, pre, hsplit, -⟩ := hv6
      rw [h] at hsplit
      cases hsplit
  case contains =>
    intro ip n r hv4 hr x
    obtain ⟨rfl, rfl⟩ := hpre ip n hv4
    rw [hparse, Option.some.injEq, Option.some.injEq] at hr
    rw [← hr]
    show (ofCidr 0 (UInt32.ofNat 0)).containsIpv4 x ↔ _
    exact containsIpv4_ofCidr (Nat.zero_le 32)

theorem readsExactly_of_no_length (hany : Text.trim text ≠ "any")
    (hnone : ∀ addr len, Text.splitOnce '/' (Text.trim text) = some (addr, len) →
      Text.parseU32 len = none) : ReadsExactly text := by
  have hparse := parseChecked_of_no_length hany hnone
  have hno : ∀ r, parseChecked text ≠ some (some r) := by
    intro r hr
    rw [hparse, Option.some.injEq] at hr
    cases hr
  have hsplit : ∀ addr len pre, Text.splitOnce '/' (Text.trim text) = some (addr, len) →
      Text.parseU32 len ≠ some pre := by
    intro addr len pre hsplit hlen
    rw [hnone addr len hsplit] at hlen
    cases hlen
  constructor
  case total => rw [hparse]; rfl
  case v4 =>
    refine iff_of_false (fun h => hno _ h.choose_spec.1) fun h => ?_
    obtain ⟨ip, n, h | ⟨addr, len, hs, -, hlen, -⟩⟩ := h
    · exact hany h.1
    · exact hsplit addr len n hs hlen
  case v6 =>
    refine iff_of_false (fun h => hno _ h.choose_spec.1) fun h => ?_
    obtain ⟨addr, len, n, hs, -, hlen, -⟩ := h
    exact hsplit addr len n hs hlen
  case contains => exact fun ip n r _ hr => absurd hr (hno r)

/-- What is no IPv4 address is marked as IPv6. -/
theorem readsExactly_iff_of_none (hsplit : Text.splitOnce '/' (Text.trim text) = some (addr, len))
    (hlen : Text.parseU32 len = some pre) (hip : parseIpv4 addr = none) :
    ReadsExactly text ↔ IsIpv6 addr ∧ pre ≤ 128 := by
  have hmarker : parseChecked text = some (some v6) := by
    rw [parseChecked_of_split hsplit hlen, rangeOf_of_none hip]
  have hv6 := isV6Cidr_iff_of_split hsplit hlen
  have hno : ∀ ip n, ¬ IsV4Cidr (Text.trim text) ip n := by
    intro ip n h
    rw [isV4Cidr_iff_of_split hsplit hlen, hip] at h
    cases h.1
  constructor
  · intro h
    exact hv6.1 (h.v6.1 ⟨v6, hmarker, rfl⟩)
  · intro haddr
    constructor
    case total => rw [hmarker]; rfl
    case v4 =>
      refine iff_of_false (fun hread => ?_) fun hread => ?_
      · obtain ⟨r, hr, hflag⟩ := hread
        rw [hmarker, Option.some.injEq, Option.some.injEq] at hr
        rw [← hr] at hflag
        cases hflag
      · obtain ⟨ip, n, h⟩ := hread
        exact hno ip n h
    case v6 => exact iff_of_true ⟨v6, hmarker, rfl⟩ (hv6.2 haddr)
    case contains => exact fun ip n r h => absurd h (hno ip n)

theorem readsExactly_iff_of_some {ip : UInt32}
    (hsplit : Text.splitOnce '/' (Text.trim text) = some (addr, len))
    (hlen : Text.parseU32 len = some pre) (hip : parseIpv4 addr = some ip) :
    ReadsExactly text ↔ pre ≤ 32 := by
  have hparse := parseChecked_of_split hsplit hlen
  constructor
  · intro h
    by_contra hlt
    have htotal := h.total
    rw [hparse, rangeOf_of_lt hip (Nat.lt_of_not_le hlt)] at htotal
    cases htotal
  · intro hle
    rw [rangeOf_of_le hip hle] at hparse
    have hsome : (parseIpv4 addr).isSome := by rw [hip]; rfl
    constructor
    case total => rw [hparse]; rfl
    case v4 =>
      exact iff_of_true ⟨_, hparse, rfl⟩
        ⟨ip, pre, (isV4Cidr_iff_of_split hsplit hlen).2 ⟨hip, rfl, hle⟩⟩
    case v6 =>
      refine iff_of_false (fun hread => ?_) fun h => ?_
      · obtain ⟨r, hr, hflag⟩ := hread
        rw [hparse, Option.some.injEq, Option.some.injEq] at hr
        rw [← hr] at hflag
        cases hflag
      · exact not_isIpv6_of_parseIpv4 hsome ((isV6Cidr_iff_of_split hsplit hlen).1 h).1
    case contains =>
      intro ip' n r h hr x
      obtain ⟨hip', rfl, -⟩ := (isV4Cidr_iff_of_split hsplit hlen).1 h
      rw [hip, Option.some.injEq] at hip'
      rw [hparse, Option.some.injEq, Option.some.injEq] at hr
      rw [← hr, ← hip']
      exact containsIpv4_ofCidr hle

theorem readsExactly_iff_of_split
    (hsplit : Text.splitOnce '/' (Text.trim text) = some (addr, len))
    (hlen : Text.parseU32 len = some pre) : ReadsExactly text ↔
      ((parseIpv4 addr).isSome ∧ pre ≤ 32) ∨ (IsIpv6 addr ∧ pre ≤ 128) := by
  cases hip : parseIpv4 addr with
  | none =>
    rw [readsExactly_iff_of_none hsplit hlen hip]
    simp
  | some ip =>
    have hsome : (parseIpv4 addr).isSome := by rw [hip]; rfl
    have hnotV6 : ¬ IsIpv6 addr := not_isIpv6_of_parseIpv4 hsome
    rw [readsExactly_iff_of_some hsplit hlen hip]
    simp [hnotV6]

end Cases

/-- A text is read exactly if, or it has no number after a slash, or an address before it that the
number fits. -/
theorem parse_exact_iff (text : String) : ReadsExactly text ↔ WellFormed text := by
  obtain hany | hnone | ⟨addr, len, pre, hsplit, hlen⟩ := cidr_cases text
  · refine iff_of_true (readsExactly_any hany) fun addr len pre hsplit => ?_
    rw [hany] at hsplit
    cases hsplit
  · by_cases hany : Text.trim text = "any"
    · refine iff_of_true (readsExactly_any hany) fun addr len pre hsplit => ?_
      rw [hany] at hsplit
      cases hsplit
    · refine iff_of_true (readsExactly_of_no_length hany hnone) fun addr len pre hsplit hlen => ?_
      rw [hnone addr len hsplit] at hlen
      cases hlen
  · rw [readsExactly_iff_of_split hsplit hlen]
    constructor
    · intro h addr' len' pre' hsplit' hlen'
      rw [hsplit, Option.some.injEq, Prod.mk.injEq] at hsplit'
      rw [← hsplit'.2, hlen, Option.some.injEq] at hlen'
      rw [← hsplit'.1, ← hlen']
      exact h
    · intro h
      exact h addr len pre hsplit hlen

/-- A length above 32 ends the process, and what is no address at all is taken for IPv6. -/
theorem parse_inexact : ¬ ReadsExactly "10.0.0.0/33" ∧ ¬ ReadsExactly "localhost/8" := by
  constructor
  · intro h
    have hstops : parseChecked "10.0.0.0/33" = none := by decide +kernel
    have htotal := h.total
    rw [hstops] at htotal
    cases htotal
  · intro h
    have hsplit : Text.splitOnce '/' (Text.trim "localhost/8") = some ("localhost", "8") := by
      decide
    have hlen : Text.parseU32 "8" = some 8 := by decide
    have hv6 := ((readsExactly_iff_of_none hsplit hlen (by decide)).1 h).1
    exact absurd (mem_of_isIpv6 hv6) (by decide)

end Quantra.Process
