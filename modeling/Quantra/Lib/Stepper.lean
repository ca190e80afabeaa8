import Mathlib.Data.Nat.Notation

/-! Machines that take one step after another until they return a value or fail. -/
namespace Stepper

/-- What a state leads to. -/
inductive Next (σ υ : Type*)
  | step (s : σ)
  | done (v : υ)
  | fault
  deriving DecidableEq, Repr

variable {σ υ : Type*} (next : σ → Next σ υ)

/-- The machine returns `v` from `s`. It does not if it fails, or if it never stops. -/
inductive Returns : σ → υ → Prop
  | done {s : σ} {v : υ} : next s = .done v → Returns s v
  | step {s t : σ} {v : υ} : next s = .step t → Returns t v → Returns s v

/-- At most so many steps. -/
def run : ℕ → σ → Option υ
  | 0, _ => none
  | fuel + 1, s =>
    match next s with
    | .step t => run fuel t
    | .done v => some v
    | .fault => none

variable {next} {s t : σ} {v w : υ}

theorem returns_of_step (h : next s = .step t) : Returns next s v ↔ Returns next t v := by
  constructor
  · intro hs
    cases hs with
    | done hdone =>
      rw [h] at hdone
      cases hdone
    | step hstep ht =>
      rw [h] at hstep
      cases hstep
      exact ht
  · exact .step h

theorem returns_of_done (h : next s = .done w) : Returns next s v ↔ v = w := by
  constructor
  · intro hs
    cases hs with
    | done hdone =>
      rw [h] at hdone
      cases hdone
      rfl
    | step hstep _ =>
      rw [h] at hstep
      cases hstep
  · rintro rfl
    exact .done h

theorem not_returns_of_fault (h : next s = .fault) : ¬Returns next s v := by
  intro hs
  cases hs with
  | done hdone =>
    rw [h] at hdone
    cases hdone
  | step hstep _ =>
    rw [h] at hstep
    cases hstep

/-- A run that comes to an end shows what the machine returns. -/
theorem returns_of_run {fuel : ℕ} (h : run next fuel s = some v) : Returns next s v := by
  induction fuel generalizing s with
  | zero => cases h
  | succ fuel ih =>
    unfold run at h
    cases hnext : next s with
    | step t =>
      rw [hnext] at h
      exact .step hnext (ih h)
    | done w =>
      rw [hnext] at h
      cases h
      exact .done hnext
    | fault =>
      rw [hnext] at h
      cases h

end Stepper
