import Mathlib.Data.Nat.Notation

/-! Unsigned machine arithmetic that stops where a result leaves its type, and loops whose body may
stop. -/
namespace Checked

def add (bound a b : ℕ) : Option ℕ := if a + b < bound then some (a + b) else none

def mul (bound a b : ℕ) : Option ℕ := if a * b < bound then some (a * b) else none

/-- No bound: what is taken away leaves the type only below zero. -/
def sub (a b : ℕ) : Option ℕ := if b ≤ a then some (a - b) else none

variable {bound a b : ℕ}

theorem add_of_lt (h : a + b < bound) : add bound a b = some (a + b) := if_pos h

theorem mul_of_lt (h : a * b < bound) : mul bound a b = some (a * b) := if_pos h

theorem sub_of_le (h : b ≤ a) : sub a b = some (a - b) := if_pos h

theorem sub_of_lt (h : a < b) : sub a b = none := if_neg (Nat.not_le.2 h)

section Loops
variable {α β γ : Type*}

/-- A counted loop keeps what each of its turns keeps, and does not stop if none of them does. -/
theorem exists_foldlM_range' {P : ℕ → β → Prop} {f : β → ℕ → Option β} {s n : ℕ} {b : β} (hs : P s b)
    (hstep : ∀ i b, s ≤ i → i < s + n → P i b → ∃ b', f b i = some b' ∧ P (i + 1) b') :
    ∃ b', (List.range' s n).foldlM f b = some b' ∧ P (s + n) b' := by
  induction n generalizing s b with
  | zero => exact ⟨b, rfl, hs⟩
  | succ n ih =>
    obtain ⟨b', hb', hP⟩ := hstep s b (Nat.le_refl s) (by omega) hs
    obtain ⟨b'', hrest, hlast⟩ := ih hP fun i b hi hlt => hstep i b (by omega) (by omega)
    refine ⟨b'', ?_, by rwa [Nat.add_right_comm] at hlast⟩
    rw [List.range'_succ, List.foldlM_cons, hb']
    exact hrest

/-- A loop over a list that does in each turn what `g` does. -/
theorem exists_foldlM {R : β → γ → Prop} {f : β → α → Option β} {g : γ → α → γ} {xs : List α} {b : β}
    {c : γ} (h : R b c)
    (hstep : ∀ x ∈ xs, ∀ b c, R b c → ∃ b', f b x = some b' ∧ R b' (g c x)) :
    ∃ b', xs.foldlM f b = some b' ∧ R b' (xs.foldl g c) := by
  induction xs generalizing b c with
  | nil => exact ⟨b, rfl, h⟩
  | cons x xs ih =>
    obtain ⟨b', hb', hR⟩ := hstep x List.mem_cons_self b c h
    obtain ⟨b'', hrest, hlast⟩ := ih hR fun y hy => hstep y (List.mem_cons_of_mem x hy)
    refine ⟨b'', ?_, hlast⟩
    rw [List.foldlM_cons, hb']
    exact hrest

end Loops

end Checked
