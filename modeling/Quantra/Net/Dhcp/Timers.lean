import Quantra.Lib.Checked
import Quantra.Net.Dhcp.Lease
import Quantra.Net.Dhcp.Lease6

/-! Renewal times: those that `renewal_loop` computes from a lease time (`dhcp.rs`), and those that
`dhcp6_acquire` stores (`ipv6.rs`). -/
namespace Quantra.Dhcp

/-- The product of two `u32`. With overflow checks a product that does not fit is a panic, without
them it wraps. -/
def mulU32 (checks : Bool) (a b : UInt32) : Option UInt32 :=
  if checks then (Checked.mul (2 ^ 32) a.toNat b.toNat).map UInt32.ofNat else some (a * b)

structure RenewalTimes where
  t1 : UInt32
  t2 : UInt32
  deriving DecidableEq, Repr

/-- The times in seconds for which `renewal_loop` sleeps; `none` for a panic. -/
def renewalTimes (checks : Bool) (leaseSecs : UInt32) : Option RenewalTimes := do
  let t1 := max (leaseSecs / 2) 30
  let product ← mulU32 checks leaseSecs 7
  some ⟨t1, max (product / 8) 60⟩

/-- The times that `dhcp6_acquire` puts into the lease, defaults for those that the server left
open. -/
def storedTimes (checks : Bool) (reply : Dhcp6.Dhcp6Reply) : Option RenewalTimes := do
  let t1 := if reply.t1 > 0 then reply.t1 else reply.preferred / 2
  let t2 ← if reply.t2 > 0 then some reply.t2 else (mulU32 checks reply.preferred 4).map (· / 5)
  some ⟨t1, t2⟩

/-- Renewal and rebinding come in this order, and before the lease expires. -/
def RenewalTimes.Within (lifetime : UInt32) (times : RenewalTimes) : Prop :=
  times.t1 ≤ times.t2 ∧ times.t2 ≤ lifetime

/-- No product overflows, and in every build the times are in order. -/
structure TimersLaw (leaseSecs : UInt32) (reply : Dhcp6.Dhcp6Reply) : Prop where
  noOverflow : (renewalTimes true leaseSecs).isSome
  inLease : ∀ checks times, renewalTimes checks leaseSecs = some times → times.Within leaseSecs
  noOverflow6 : (storedTimes true reply).isSome
  inLifetime6 : reply.t1 = 0 → reply.t2 = 0 → ∀ checks times,
    storedTimes checks reply = some times → times.Within reply.preferred

variable {checks : Bool} {a b leaseSecs : UInt32} {reply : Dhcp6.Dhcp6Reply}

theorem toNat_max (a b : UInt32) : (max a b).toNat = max a.toNat b.toNat := by
  have hle : a ≤ b ↔ a.toNat ≤ b.toNat := UInt32.le_iff_toNat_le
  show (if a ≤ b then b else a).toNat = max a.toNat b.toNat
  by_cases h : a ≤ b
  · rw [if_pos h, Nat.max_eq_right (hle.1 h)]
  · rw [if_neg h, Nat.max_eq_left (Nat.le_of_not_le fun hab => h (hle.2 hab))]

theorem isSome_mulU32 : (mulU32 true a b).isSome ↔ a.toNat * b.toNat < 2 ^ 32 := by
  unfold mulU32 Checked.mul
  rw [if_pos rfl, Option.isSome_map]
  split
  · exact iff_of_true rfl ‹_›
  · exact iff_of_false Bool.false_ne_true ‹_›

/-- A product that fits is there in every build. -/
theorem mulU32_of_lt (h : a.toNat * b.toNat < 2 ^ 32) : mulU32 checks a b = some (a * b) := by
  cases checks with
  | true =>
    unfold mulU32
    rw [if_pos rfl, Checked.mul_of_lt h, Option.map_some, UInt32.ofNat_mul, UInt32.ofNat_toNat,
      UInt32.ofNat_toNat]
  | false => rfl

theorem toNat_mul_of_lt (h : a.toNat * b.toNat < 2 ^ 32) : (a * b).toNat = a.toNat * b.toNat := by
  rw [UInt32.toNat_mul, Nat.mod_eq_of_lt h]

theorem isSome_renewalTimes :
    (renewalTimes true leaseSecs).isSome ↔ leaseSecs.toNat * 7 < 2 ^ 32 := by
  have hmul : (mulU32 true leaseSecs 7).isSome ↔ leaseSecs.toNat * 7 < 2 ^ 32 := isSome_mulU32
  rw [← hmul]
  unfold renewalTimes
  cases mulU32 true leaseSecs 7 with
  | none => exact Iff.rfl
  | some product => exact Iff.rfl

/-- The task of a stored lease dies exactly where the times overflow. -/
theorem isSome_renewalTimes_iff_timersFit :
    (renewalTimes checks leaseSecs).isSome ↔ TimersFit checks leaseSecs := by
  cases checks with
  | true => exact isSome_renewalTimes.trans ⟨fun h _ => h, fun h => h rfl⟩
  | false => exact iff_of_true rfl nofun

theorem toNat_renewalTimes {times : RenewalTimes} (hfits : leaseSecs.toNat * 7 < 2 ^ 32)
    (h : renewalTimes checks leaseSecs = some times) :
    times.t1.toNat = max (leaseSecs.toNat / 2) 30 ∧
      times.t2.toNat = max (leaseSecs.toNat * 7 / 8) 60 := by
  have hproduct : mulU32 checks leaseSecs 7 = some (leaseSecs * 7) := mulU32_of_lt hfits
  have hvalue : (leaseSecs * 7).toNat = leaseSecs.toNat * 7 := toNat_mul_of_lt hfits
  unfold renewalTimes at h
  rw [hproduct] at h
  cases h
  dsimp only
  rw [toNat_max, toNat_max, UInt32.toNat_div, UInt32.toNat_div, hvalue]
  exact ⟨rfl, rfl⟩

theorem within_iff {lifetime : UInt32} {times : RenewalTimes} : times.Within lifetime ↔
    times.t1.toNat ≤ times.t2.toNat ∧ times.t2.toNat ≤ lifetime.toNat := Iff.rfl

/-- The floor of a minute for T2 is beyond a shorter lease. -/
theorem within_renewalTimes_iff {times : RenewalTimes} (hfits : leaseSecs.toNat * 7 < 2 ^ 32)
    (h : renewalTimes checks leaseSecs = some times) :
    times.Within leaseSecs ↔ 60 ≤ leaseSecs.toNat := by
  obtain ⟨ht1, ht2⟩ := toNat_renewalTimes hfits h
  rw [within_iff, ht1, ht2]
  omega

theorem isSome_storedTimes : (storedTimes true reply).isSome ↔
    (reply.t2 = 0 → reply.preferred.toNat * 4 < 2 ^ 32) := by
  have hmul : (mulU32 true reply.preferred 4).isSome ↔ reply.preferred.toNat * 4 < 2 ^ 32 :=
    isSome_mulU32
  have hzero : reply.t2 > 0 ↔ reply.t2 ≠ 0 := UInt32.pos_iff_ne_zero
  rw [← hmul]
  unfold storedTimes
  by_cases ht2 : reply.t2 = 0
  · rw [if_neg (fun h => hzero.1 h ht2)]
    cases mulU32 true reply.preferred 4 with
    | none => simp [ht2]
    | some product => simp
  · rw [if_pos (hzero.2 ht2)]
    exact iff_of_true rfl fun h => absurd h ht2

/-- The lease of `dhcp6_acquire` holds these times, and its panic is theirs. -/
theorem storedTimes_eq (iface : String) (addr : Net.Ipv6Addr) : storedTimes checks reply =
    if Dhcp6.T2Fits checks reply then
      some ⟨(Dhcp6.leaseOf iface reply addr).t1, (Dhcp6.leaseOf iface reply addr).t2⟩
    else none := by
  have hzero : reply.t2 > 0 ↔ reply.t2 ≠ 0 := UInt32.pos_iff_ne_zero
  unfold storedTimes Dhcp6.leaseOf
  by_cases ht2 : reply.t2 = 0
  · have hopen : ¬reply.t2 > 0 := fun h => hzero.1 h ht2
    have hproduct : mulU32 checks reply.preferred 4 =
        if Dhcp6.T2Fits checks reply then some (reply.preferred * 4) else none := by
      cases checks with
      | false => exact (if_pos nofun).symm
      | true =>
        by_cases hfits : reply.preferred.toNat * 4 < 2 ^ 32
        · have hfits6 : Dhcp6.T2Fits true reply := fun _ _ => hfits
          rw [if_pos hfits6]
          exact mulU32_of_lt hfits
        · have hfits6 : ¬Dhcp6.T2Fits true reply := fun h => hfits (h rfl ht2)
          rw [if_neg hfits6]
          exact Option.not_isSome_iff_eq_none.1 (mt isSome_mulU32.1 hfits)
    rw [if_neg hopen, hproduct, if_neg hopen]
    split <;> rfl
  · have hfits : Dhcp6.T2Fits checks reply := fun _ h => absurd h ht2
    rw [if_pos (hzero.2 ht2), if_pos hfits, if_pos (hzero.2 ht2)]
    rfl

theorem within_storedTimes {times : RenewalTimes} (ht1 : reply.t1 = 0) (ht2 : reply.t2 = 0)
    (hfits : reply.preferred.toNat * 4 < 2 ^ 32) (h : storedTimes checks reply = some times) :
    times.Within reply.preferred := by
  have hproduct : mulU32 checks reply.preferred 4 = some (reply.preferred * 4) :=
    mulU32_of_lt hfits
  have hvalue : (reply.preferred * 4).toNat = reply.preferred.toNat * 4 := toNat_mul_of_lt hfits
  unfold storedTimes at h
  rw [ht1, ht2, hproduct] at h
  cases h
  have hhalf : (reply.preferred / 2).toNat = reply.preferred.toNat / 2 := UInt32.toNat_div ..
  have hfifths : (reply.preferred * 4 / 5).toNat = reply.preferred.toNat * 4 / 5 := by
    rw [UInt32.toNat_div, hvalue]
    rfl
  rw [within_iff]
  simp only [gt_iff_lt, UInt32.lt_irrefl, if_false]
  omega

/-- The times are in order and within the lease exactly for leases from a minute up to `2 ^ 32 / 7`
seconds and, where the server left T2 open, for preferred lifetimes below `2 ^ 30` seconds. -/
theorem timersLaw_iff (leaseSecs : UInt32) (reply : Dhcp6.Dhcp6Reply) :
    TimersLaw leaseSecs reply ↔
      (60 ≤ leaseSecs.toNat ∧ leaseSecs.toNat * 7 < 2 ^ 32) ∧
        (reply.t2 = 0 → reply.preferred.toNat * 4 < 2 ^ 32) := by
  constructor
  · intro h
    have hfits := isSome_renewalTimes.1 h.noOverflow
    obtain ⟨times, htimes⟩ := Option.isSome_iff_exists.1 h.noOverflow
    have hminute := (within_renewalTimes_iff hfits htimes).1 (h.inLease true times htimes)
    exact ⟨⟨hminute, hfits⟩, isSome_storedTimes.1 h.noOverflow6⟩
  · intro ⟨⟨hminute, hfits⟩, hfits6⟩
    refine ⟨isSome_renewalTimes.2 hfits, ?_, isSome_storedTimes.2 hfits6, ?_⟩
    · intro checks times htimes
      exact (within_renewalTimes_iff hfits htimes).2 hminute
    · intro ht1 ht2 checks times htimes
      exact within_storedTimes ht1 ht2 (hfits6 ht2) htimes

/-- A reply that leaves its times open and grants its address for ever. -/
def infiniteReply : Dhcp6.Dhcp6Reply := ⟨[], none, 128, 0xFFFFFFFF, 0xFFFFFFFF, 0, 0, []⟩

/-- An infinite lease is a panic with overflow checks, and has T2 before T1 without them; and a
lease of half a minute is over when rebinding starts. -/
theorem not_timersLaw_infinite :
    (¬TimersLaw 0xFFFFFFFF infiniteReply ∧ renewalTimes true 0xFFFFFFFF = none ∧
      renewalTimes false 0xFFFFFFFF = some ⟨2147483647, 536870911⟩ ∧
      storedTimes true infiniteReply = none ∧
      storedTimes false infiniteReply = some ⟨2147483647, 858993458⟩) ∧
    ¬TimersLaw 30 infiniteReply ∧ renewalTimes true 30 = some ⟨30, 60⟩ := by
  have hinfinite : renewalTimes true 0xFFFFFFFF = none := by decide
  have hshort : renewalTimes true 30 = some ⟨30, 60⟩ := by decide
  refine ⟨⟨?_, hinfinite, by decide, by decide, by decide⟩, ?_, hshort⟩
  · intro h
    have hsome := h.noOverflow
    rw [hinfinite] at hsome
    cases hsome
  · intro h
    have hwithin := h.inLease true _ hshort
    exact absurd hwithin.2 (by decide)

end Quantra.Dhcp
