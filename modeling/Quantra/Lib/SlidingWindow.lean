import Mathlib.Data.Nat.Notation

/-! Counting in a sliding window: a log of times in ascending order, of which the recent ones are
kept by dropping from the front. -/
namespace SlidingWindow

/-- The times at most `width` before `now`. -/
def recent (width now : ℕ) (log : List ℕ) : List ℕ := log.filter fun t => now - t ≤ width

/-- Drop from the front while it is too old. -/
def evict (width now : ℕ) (log : List ℕ) : List ℕ := log.dropWhile fun t => now - t > width

/-- The times in the closed interval of length `width` that starts at `a`. -/
def within (width a : ℕ) (log : List ℕ) : List ℕ := log.filter fun t => a ≤ t ∧ t ≤ a + width

/-- No interval of length `width` has more than `m` of the times. -/
def Limited (m width : ℕ) (log : List ℕ) : Prop := ∀ a, (within width a log).length ≤ m

variable {m width now : ℕ} {log : List ℕ}

/-- In ascending order the recent times are a rest of the log. -/
theorem evict_eq_recent (h : log.Pairwise (· ≤ ·)) : evict width now log = recent width now log := by
  induction log with
  | nil => rfl
  | cons t log ih =>
    obtain ⟨hhead, htail⟩ := List.pairwise_cons.1 h
    unfold evict recent
    by_cases hold : now - t > width
    · have hnot : ¬now - t ≤ width := Nat.not_le.2 hold
      rw [List.dropWhile_cons, if_pos (decide_eq_true hold), List.filter_cons,
        if_neg fun h => hnot (of_decide_eq_true h)]
      exact ih htail
    · have hall : ∀ u ∈ t :: log, now - u ≤ width := by
        intro u hu
        have htu : t ≤ u := by
          obtain rfl | hu := List.mem_cons.1 hu
          · exact Nat.le_refl u
          · exact hhead u hu
        omega
      rw [List.dropWhile_cons, if_neg fun h => hold (of_decide_eq_true h),
        List.filter_eq_self.2 fun u hu => decide_eq_true (hall u hu)]

/-- What is recent later was recent before. -/
theorem recent_recent {later : ℕ} (h : now ≤ later) :
    recent width later (recent width now log) = recent width later log := by
  unfold recent
  rw [List.filter_filter]
  apply List.filter_congr
  intro t ht
  rw [Bool.and_eq_left_iff_imp, decide_eq_true_eq, decide_eq_true_eq]
  omega

theorem recent_concat (width : ℕ) (log : List ℕ) (now : ℕ) :
    recent width now (log ++ [now]) = recent width now log ++ [now] := by
  unfold recent
  simp

theorem length_recent_le (h : Limited m width log) (hlog : ∀ t ∈ log, t ≤ now) :
    (recent width now log).length ≤ m := by
  have heq : recent width now log = within width (now - width) log := by
    apply List.filter_congr
    intro t ht
    have hle := hlog t ht
    rw [decide_eq_decide]
    omega
  rw [heq]
  exact h (now - width)

/-- One more is within the limit where the window before it has room. -/
theorem Limited.concat (h : Limited m width log) (hroom : (recent width now log).length < m) :
    Limited m width (log ++ [now]) := by
  intro a
  unfold within
  rw [List.filter_append, List.length_append]
  by_cases hin : a ≤ now ∧ now ≤ a + width
  · -- what shares the interval with `now` and came before it is recent
    have hle : (log.filter fun t => a ≤ t ∧ t ≤ a + width).length ≤
        (recent width now log).length := by
      unfold recent
      rw [← List.countP_eq_length_filter, ← List.countP_eq_length_filter]
      apply List.countP_mono_left
      intro t _ ht
      rw [decide_eq_true_eq] at ht ⊢
      omega
    have hone : ([now].filter fun t => decide (a ≤ t ∧ t ≤ a + width)).length ≤ 1 :=
      List.length_filter_le _ _
    omega
  · have hnone : ([now].filter fun t => decide (a ≤ t ∧ t ≤ a + width)) = [] := by simp [hin]
    rw [hnone]
    exact h a

theorem limited_nil : Limited m width [] := fun _ => Nat.zero_le m

example : evict 60 100 [10, 39, 40, 90] = [40, 90] := by decide

end SlidingWindow
