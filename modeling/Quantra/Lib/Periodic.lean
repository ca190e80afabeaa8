import Mathlib.Data.Nat.Notation

/-! Instants that come back with a fixed period: the last one, the next one, and whether one was
missed. -/
namespace Periodic

/-- The schedule with period `p` and phase `r` has an instant at `n`. -/
def Occurs (p r n : ℕ) : Prop := n % p = r

/-- The time since the last instant of the schedule, if it goes back without end. -/
def sinceLast (p r n : ℕ) : ℕ := (n + (p - r)) % p

def untilNext (p r n : ℕ) : ℕ := p - sinceLast p r n

variable {p r n : ℕ}

theorem sinceLast_lt (hr : r < p) : sinceLast p r n < p := Nat.mod_lt _ (by omega)

theorem untilNext_pos (hr : r < p) : 0 < untilNext p r n := Nat.sub_pos_of_lt (sinceLast_lt hr)

theorem untilNext_le : untilNext p r n ≤ p := Nat.sub_le p _

theorem sinceLast_add (d : ℕ) : sinceLast p r (n + d) = (sinceLast p r n + d) % p := by
  unfold sinceLast
  rw [Nat.mod_add_mod]
  exact congrArg (· % p) (by omega)

theorem untilNext_mod {q : ℕ} (h : p ∣ q) : untilNext p r (n % q) = untilNext p r n := by
  unfold untilNext sinceLast
  rw [← Nat.mod_add_mod, Nat.mod_mod_of_dvd n h, Nat.mod_add_mod]

theorem add_mod_cases {a b : ℕ} (ha : a < p) (hb : b < p) :
    a + b < p ∧ (a + b) % p = a + b ∨ p ≤ a + b ∧ (a + b) % p = a + b - p := by
  by_cases h : a + b < p
  · exact .inl ⟨h, Nat.mod_eq_of_lt h⟩
  · have hle : p ≤ a + b := Nat.not_lt.1 h
    have hmod : (a + b) % p = a + b - p := by
      rw [Nat.mod_eq_sub_mod hle]
      exact Nat.mod_eq_of_lt (by omega)
    exact .inr ⟨hle, hmod⟩

theorem occurs_iff (hr : r < p) : Occurs p r n ↔ sinceLast p r n = 0 := by
  have hn : n % p < p := Nat.mod_lt n (by omega)
  unfold Occurs sinceLast
  rw [← Nat.mod_add_mod]
  by_cases hzero : r = 0
  · rw [hzero, Nat.sub_zero, Nat.add_mod_right, Nat.mod_mod]
  · have hturn : p - r < p := by omega
    obtain ⟨hlt, hsum⟩ | ⟨hle, hsum⟩ := add_mod_cases hn hturn
    · rw [hsum]
      omega
    · rw [hsum]
      omega

theorem occurs_add_iff (hr : r < p) {d : ℕ} :
    Occurs p r (n + d) ↔ (sinceLast p r n + d) % p = 0 := by
  rw [occurs_iff hr, sinceLast_add]

theorem occurs_add_untilNext (hr : r < p) : Occurs p r (n + untilNext p r n) := by
  have hle : sinceLast p r n ≤ p := Nat.le_of_lt (sinceLast_lt hr)
  rw [occurs_add_iff hr, untilNext, Nat.add_sub_cancel' hle, Nat.mod_self]

theorem not_occurs_of_lt_untilNext (hr : r < p) {d : ℕ} (hpos : 0 < d)
    (hlt : d < untilNext p r n) : ¬Occurs p r (n + d) := by
  have hsmall : sinceLast p r n + d < p := by
    unfold untilNext at hlt
    omega
  rw [occurs_add_iff hr, Nat.mod_eq_of_lt hsmall]
  omega

/-- `d` is the least way ahead to an instant. -/
def IsNext (occurs : ℕ → Prop) (n d : ℕ) : Prop :=
  0 < d ∧ occurs (n + d) ∧ ∀ e, 0 < e → e < d → ¬occurs (n + e)

theorem isNext_untilNext (hr : r < p) : IsNext (Occurs p r) n (untilNext p r n) :=
  ⟨untilNext_pos hr, occurs_add_untilNext hr, fun _ => not_occurs_of_lt_untilNext hr⟩

/-- An instant was passed since `t` if and only if the last one is less far back than `t`. -/
theorem exists_occurs_iff (hr : r < p) {t : ℕ} (ht : t ≤ n) :
    (∃ k, t < k ∧ k ≤ n ∧ Occurs p r k) ↔ sinceLast p r n < n - t := by
  constructor
  · rintro ⟨k, htk, hkn, hk⟩
    obtain ⟨d, rfl⟩ := Nat.exists_eq_add_of_le hkn
    rw [occurs_iff hr] at hk
    have hd : d % p ≤ d := Nat.mod_le d p
    rw [sinceLast_add, hk, Nat.zero_add]
    omega
  · intro h
    have hlt : sinceLast p r n < p := sinceLast_lt hr
    have hback : n = n - sinceLast p r n + sinceLast p r n := by omega
    refine ⟨n - sinceLast p r n, by omega, Nat.sub_le n _, ?_⟩
    -- going on from there by `sinceLast p r n` must lead back to `sinceLast p r n`
    have hfirst : sinceLast p r (n - sinceLast p r n) < p := sinceLast_lt hr
    have hturn := sinceLast_add (p := p) (r := r) (n := n - sinceLast p r n) (sinceLast p r n)
    rw [← hback] at hturn
    rw [occurs_iff hr]
    have hcases := add_mod_cases hfirst hlt
    omega

example : untilNext 86400 9000 1000 = 8000 := by decide

end Periodic
