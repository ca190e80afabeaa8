import Quantra.Lib.Text
import Mathlib.Data.Nat.Bitwise

/-! The address ranges of `ip_address_deny` and `ip_address_allow`, and the policy that both filters
are to enforce. -/
namespace Quantra.Process

/-- The mask of a prefix length: `!0u32 << (32 - prefix)`, where the shift counts modulo 32. -/
def maskOf (pre : UInt32) : UInt32 := if pre = 0 then 0 else 0xFFFFFFFF <<< (32 - pre)

/-- A range as `parse` makes it. An IPv6 range has no address and no mask. -/
structure IpRange where
  addr : UInt32
  mask : UInt32
  isV6 : Bool
  masked : ∃ pre, mask = maskOf pre ∧ addr = addr &&& maskOf pre

namespace IpRange

def any : IpRange := ⟨0, 0, false, 0, rfl, rfl⟩

def v6 : IpRange := ⟨0, 0, true, 0, rfl, rfl⟩

def ofCidr (ip pre : UInt32) : IpRange :=
  ⟨ip &&& maskOf pre, maskOf pre, false, pre, rfl, by rw [UInt32.and_assoc, UInt32.and_self]⟩

/-- `Ipv4Addr::from_str` is a parameter. -/
def parse (parseIpv4 : String → Option UInt32) (cidr : String) : Option IpRange :=
  let cidr := Text.trim cidr
  if cidr = "any" ∨ cidr = "0.0.0.0/0" then some any
  else if cidr = "::/0" then some v6
  else
    match Text.splitOnce '/' cidr with
    | none => none
    | some (ip, pre) =>
      (Text.parseU32 pre).map fun pre =>
        match parseIpv4 ip with
        | some ip => ofCidr ip (UInt32.ofNat pre)
        | none => v6

def containsIpv4 (r : IpRange) (ip : UInt32) : Bool :=
  !r.isV6 && (r.mask == 0 || ip &&& r.mask == r.addr)

end IpRange

/-- The ranges that a filter for IPv4 looks at. -/
def ipv4Ranges (ranges : List IpRange) : List IpRange := ranges.filter (!·.isV6)

/-- The policy: a denied destination is dropped, and so is one that is not allowed if anything is
allowed at all. -/
def passes (deny allow : List IpRange) (ip : UInt32) : Bool :=
  !deny.any (·.containsIpv4 ip) && (allow.isEmpty || allow.any (·.containsIpv4 ip))

section Ranges
variable {r : IpRange} {ranges : List IpRange} {ip : UInt32}

theorem containsIpv4_of_mask_zero (hv4 : r.isV6 = false) (h : r.mask = 0) : r.containsIpv4 ip := by
  simp [IpRange.containsIpv4, hv4, h]

theorem containsIpv4_iff (hv4 : r.isV6 = false) (h : r.mask ≠ 0) :
    r.containsIpv4 ip ↔ ip &&& r.mask = r.addr := by
  simp [IpRange.containsIpv4, hv4, h]

theorem isV6_of_mem_ipv4Ranges (h : r ∈ ipv4Ranges ranges) : r.isV6 = false := by
  have hkept := (List.mem_filter.1 h).2
  rwa [Bool.not_eq_true'] at hkept

theorem any_ipv4Ranges :
    (ipv4Ranges ranges).any (·.containsIpv4 ip) = ranges.any (·.containsIpv4 ip) := by
  rw [ipv4Ranges, List.any_filter]
  congr 1
  funext r
  cases hv6 : r.isV6 <;> simp [IpRange.containsIpv4, hv6]

end Ranges

/-- `u32::trailing_zeros`. -/
def trailingZeros (x : UInt32) : ℕ := ((List.range 32).find? x.toNat.testBit).getD 32

/-! A mask keeps the leading bits of an address. -/

section Prefix
variable {r : IpRange} {ip : UInt32}

theorem trailingZeros_shiftLeft :
    ∀ k : Fin 32, trailingZeros (0xFFFFFFFF <<< UInt32.ofNat k.val) = k.val := by
  decide +kernel

theorem toNat_and_shiftLeft (x : UInt32) {k : UInt32} (hk : k.toNat < 32) :
    (x &&& (0xFFFFFFFF <<< k)).toNat = x.toNat / 2 ^ k.toNat * 2 ^ k.toNat := by
  have hmod : k.toNat % 32 = k.toNat := Nat.mod_eq_of_lt hk
  have hones : (0xFFFFFFFF : UInt32).toNat = 2 ^ 32 - 1 := rfl
  refine Nat.eq_of_testBit_eq fun i => ?_
  rw [← Nat.shiftLeft_eq, ← Nat.shiftRight_eq_div_pow, Nat.testBit_shiftLeft,
    Nat.testBit_shiftRight, UInt32.toNat_and, Nat.testBit_and, UInt32.toNat_shiftLeft, hmod,
    Nat.testBit_mod_two_pow, Nat.testBit_shiftLeft, hones, Nat.testBit_two_pow_sub_one]
  by_cases hi : k.toNat ≤ i
  · have hadd : k.toNat + (i - k.toNat) = i := by omega
    rw [hadd]
    by_cases hlt : i < 32
    · have hsub : i - k.toNat < 32 := by omega
      simp [hi, hlt, hsub]
    · have hx : x.toNat.testBit i = false :=
        Nat.testBit_lt_two_pow
          (Nat.lt_of_lt_of_le x.toNat_lt (Nat.pow_le_pow_right (by decide) (by omega)))
      simp [hx]
  · simp [hi]

theorem maskOf_eq (pre : UInt32) :
    maskOf pre = 0 ∨ ∃ k : Fin 32, maskOf pre = 0xFFFFFFFF <<< UInt32.ofNat k.val := by
  by_cases hzero : pre = 0
  · exact .inl (if_pos hzero)
  · refine .inr ⟨⟨(32 - pre).toNat % 32, Nat.mod_lt _ (by decide)⟩, ?_⟩
    rw [maskOf, if_neg hzero]
    refine UInt32.toNat.inj ?_
    have hk : (UInt32.ofNat ((32 - pre).toNat % 32)).toNat = (32 - pre).toNat % 32 :=
      UInt32.toNat_ofNat_of_lt' (Nat.lt_trans (Nat.mod_lt _ (by decide)) (by decide))
    rw [UInt32.toNat_shiftLeft, UInt32.toNat_shiftLeft, hk, Nat.mod_mod]

theorem trailingZeros_le (x : UInt32) : trailingZeros x ≤ 32 := by
  unfold trailingZeros
  cases hfind : (List.range 32).find? x.toNat.testBit with
  | none => exact Nat.le_refl 32
  | some k => exact Nat.le_of_lt (List.mem_range.1 (List.mem_of_find?_eq_some hfind))

/-- The range is that of the prefix whose length `trailing_zeros` gives back. -/
theorem containsIpv4_iff_prefix (hv4 : r.isV6 = false) :
    r.containsIpv4 ip ↔
      ip.toNat / 2 ^ trailingZeros r.mask = r.addr.toNat / 2 ^ trailingZeros r.mask := by
  obtain ⟨pre, hmask, haddr⟩ := r.masked
  rw [← hmask] at haddr
  obtain hzero | ⟨k, hk⟩ := maskOf_eq pre
  · rw [← hmask] at hzero
    have htz : trailingZeros 0 = 32 := by decide
    have hip : ip.toNat / 2 ^ 32 = 0 := Nat.div_eq_of_lt ip.toNat_lt
    have hr : r.addr.toNat / 2 ^ 32 = 0 := Nat.div_eq_of_lt r.addr.toNat_lt
    rw [hzero, htz, hip, hr]
    exact iff_of_true (containsIpv4_of_mask_zero hv4 hzero) rfl
  · rw [← hmask] at hk
    have hkNat : (UInt32.ofNat k.val).toNat = k.val :=
      UInt32.toNat_ofNat_of_lt' (Nat.lt_trans k.isLt (by decide))
    have htz : trailingZeros r.mask = k.val := by rw [hk, trailingZeros_shiftLeft]
    have hmask : r.mask ≠ 0 := by
      intro hzero
      rw [hzero] at htz
      have hlt := k.isLt
      have hall : trailingZeros 0 = 32 := by decide
      omega
    have hlt : (UInt32.ofNat k.val).toNat < 32 := by
      rw [hkNat]
      exact k.isLt
    have hcut := fun x => toNat_and_shiftLeft x hlt
    rw [hkNat, ← hk] at hcut
    have hwhole : r.addr.toNat = r.addr.toNat / 2 ^ k.val * 2 ^ k.val :=
      (congrArg UInt32.toNat haddr).trans (hcut r.addr)
    rw [containsIpv4_iff hv4 hmask, ← UInt32.toNat_inj, hcut, htz]
    constructor
    · intro h
      rw [← h, Nat.mul_div_cancel _ (Nat.two_pow_pos k.val)]
    · intro h
      rw [h]
      exact hwhole.symm

end Prefix

end Quantra.Process
