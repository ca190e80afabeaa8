import Mathlib.Data.List.Basic

/-! Candidates that are tried one after the other, and what may keep a later one from being tried. -/
namespace Attempts
variable {α : Type*}

/-- What comes of trying a candidate. After one that `passes` the next is tried; one that `stops` ends
the attempts, and one that `breaks` does not even let them end. -/
inductive Verdict
  | works
  | passes
  | stops
  | breaks
  deriving DecidableEq, Repr

/-- The list up to the first element that meets `p`. -/
def upTo (p : α → Bool) : List α → List α
  | [] => []
  | a :: as => a :: if p a then [] else upTo p as

@[simp] theorem upTo_nil (p : α → Bool) : upTo p [] = [] := rfl

theorem upTo_cons (p : α → Bool) (a : α) (as : List α) :
    upTo p (a :: as) = a :: if p a then [] else upTo p as := rfl

theorem upTo_cons_of_pos {p : α → Bool} {a : α} (h : p a) (as : List α) : upTo p (a :: as) = [a] := by
  rw [upTo_cons, if_pos h]

theorem upTo_cons_of_neg {p : α → Bool} {a : α} (h : ¬p a) (as : List α) :
    upTo p (a :: as) = a :: upTo p as := by
  rw [upTo_cons, if_neg h]

theorem upTo_sublist (p : α → Bool) (as : List α) : (upTo p as).Sublist as := by
  induction as with
  | nil => exact .slnil
  | cons a as ih =>
    rw [upTo_cons]
    split
    · exact (List.nil_sublist as).cons_cons a
    · exact ih.cons_cons a

theorem upTo_eq_nil {p : α → Bool} {as : List α} : upTo p as = [] ↔ as = [] := by
  cases as with
  | nil => exact iff_of_true rfl rfl
  | cons a as => exact iff_of_false (List.cons_ne_nil a _) (List.cons_ne_nil a as)

section Attempts
variable (verdict : α → Verdict) (would cand : α → Bool)

/-- The candidates that are tried. -/
def tried (as : List α) : List α := upTo (fun a => verdict a ≠ .passes) as

/-- What has ended the attempts; `none` if nothing has. -/
def outcome : List α → Option Verdict
  | [] => none
  | a :: as => if verdict a = .passes then outcome as else some (verdict a)

/-- The attempts end; they come to something just when a candidate would; and the candidates are tried
up to the first that would. -/
structure Exhaustive (as : List α) : Prop where
  ends : outcome verdict as ≠ some .breaks
  works_iff : outcome verdict as = some .works ↔ ∃ a ∈ as, would a
  tried : (upTo would (as.filter cand)).Sublist (tried verdict as)

/-- Before the first that would, nothing breaks, and what stops has no candidate behind it. -/
def Clear (as : List α) : Prop :=
  ∀ before a after, as = before ++ a :: after → (∀ b ∈ before, ¬would b) →
    verdict a ≠ .breaks ∧ (verdict a = .stops → ∀ b ∈ after, ¬cand b)

/-- What the verdicts have to do with what a candidate would come to. -/
structure Judged (as : List α) : Prop where
  works : ∀ a ∈ as, verdict a = .works → would a
  passes : ∀ a ∈ as, verdict a = .passes → ¬would a
  stops : ∀ a ∈ as, verdict a = .stops → ¬would a
  breaks : ∀ a ∈ as, verdict a = .breaks → cand a
  would : ∀ a ∈ as, would a → cand a

variable {verdict would cand} {a : α} {as : List α}

theorem Judged.tail (h : Judged verdict would cand (a :: as)) : Judged verdict would cand as where
  works b hb := h.works b (List.mem_cons_of_mem a hb)
  passes b hb := h.passes b (List.mem_cons_of_mem a hb)
  stops b hb := h.stops b (List.mem_cons_of_mem a hb)
  breaks b hb := h.breaks b (List.mem_cons_of_mem a hb)
  would b hb := h.would b (List.mem_cons_of_mem a hb)

theorem outcome_cons (a : α) (as : List α) : outcome verdict (a :: as) =
    if verdict a = .passes then outcome verdict as else some (verdict a) := rfl

theorem outcome_cons_of_ne (as : List α) (h : verdict a ≠ .passes) :
    outcome verdict (a :: as) = some (verdict a) ∧ tried verdict (a :: as) = [a] := by
  rw [outcome_cons, if_neg h, tried, upTo_cons_of_pos (by simpa using h)]
  exact ⟨rfl, rfl⟩

theorem outcome_cons_of_passes (as : List α) (h : verdict a = .passes) :
    outcome verdict (a :: as) = outcome verdict as ∧
      tried verdict (a :: as) = a :: tried verdict as := by
  rw [outcome_cons, if_pos h, tried, upTo_cons_of_neg (by simpa using h)]
  exact ⟨rfl, rfl⟩

/-- An element that does not meet the test is of no use to a list of such that do. -/
theorem sublist_cons_iff_of_not_mem {xs ys : List α} (h : a ∉ xs) :
    xs.Sublist (a :: ys) ↔ xs.Sublist ys := by
  constructor
  · intro hsub
    cases hsub with
    | cons _ hrest => exact hrest
    | cons_cons _ hrest => exact absurd List.mem_cons_self h
  · exact fun hsub => hsub.cons a

theorem not_mem_upTo_filter (h : ¬cand a) : a ∉ upTo would (as.filter cand) := fun hmem =>
  h (List.mem_filter.1 ((upTo_sublist would _).subset hmem)).2

/-- Nothing more than the first has been tried. -/
theorem upTo_sublist_singleton (hnot : ¬would a) :
    (upTo would ((a :: as).filter cand)).Sublist [a] ↔ ∀ b ∈ as, ¬cand b := by
  have hnil : (upTo would (as.filter cand)).Sublist [] ↔ ∀ b ∈ as, ¬cand b := by
    rw [List.sublist_nil, upTo_eq_nil, List.filter_eq_nil_iff]
  by_cases hcand : cand a
  · rw [List.filter_cons_of_pos hcand, upTo_cons_of_neg hnot, List.cons_sublist_cons, hnil]
  · rw [List.filter_cons_of_neg hcand, sublist_cons_iff_of_not_mem (not_mem_upTo_filter hcand), hnil]

theorem exhaustive_cons_of_passes (hj : Judged verdict would cand (a :: as))
    (h : verdict a = .passes) :
    Exhaustive verdict would cand (a :: as) ↔ Exhaustive verdict would cand as := by
  obtain ⟨houtcome, htried⟩ := outcome_cons_of_passes as h
  have hnot : ¬would a := hj.passes a List.mem_cons_self h
  have hexists : (∃ b ∈ a :: as, would b = true) ↔ ∃ b ∈ as, would b = true := by simp [hnot]
  have hsub : (upTo would ((a :: as).filter cand)).Sublist (tried verdict (a :: as)) ↔
      (upTo would (as.filter cand)).Sublist (tried verdict as) := by
    rw [htried]
    by_cases hcand : cand a
    · rw [List.filter_cons_of_pos hcand, upTo_cons_of_neg hnot, List.cons_sublist_cons]
    · rw [List.filter_cons_of_neg hcand, sublist_cons_iff_of_not_mem (not_mem_upTo_filter hcand)]
  constructor
  · intro ⟨hends, hworks, hall⟩
    rw [houtcome] at hends hworks
    exact ⟨hends, hworks.trans hexists, hsub.1 hall⟩
  · intro ⟨hends, hworks, hall⟩
    refine ⟨?_, ?_, hsub.2 hall⟩
    · rwa [houtcome]
    · rw [houtcome]
      exact hworks.trans hexists.symm

theorem clear_cons_of_not_would (hnot : ¬would a) :
    Clear verdict would cand (a :: as) ↔
      (verdict a ≠ .breaks ∧ (verdict a = .stops → ∀ b ∈ as, ¬cand b)) ∧
        Clear verdict would cand as := by
  constructor
  · intro h
    refine ⟨h [] a as rfl fun b hb => absurd hb List.not_mem_nil, fun before c after hsplit hbefore => ?_⟩
    refine h (a :: before) c after (by rw [hsplit, List.cons_append]) fun b hb => ?_
    rcases List.mem_cons.1 hb with rfl | hb
    · exact hnot
    · exact hbefore b hb
  · rintro ⟨hfirst, hrest⟩ before c after hsplit hbefore
    cases before with
    | nil =>
      cases hsplit
      exact hfirst
    | cons b before =>
      cases hsplit
      exact hrest before c after rfl fun d hd => hbefore d (List.mem_cons_of_mem _ hd)

theorem clear_cons_of_would (hwould : would a) (hworks : verdict a = .works) :
    Clear verdict would cand (a :: as) := by
  intro before c after hsplit hbefore
  cases before with
  | nil =>
    cases hsplit
    rw [hworks]
    exact ⟨by decide, fun h => by cases h⟩
  | cons b before =>
    cases hsplit
    exact absurd hwould (hbefore a List.mem_cons_self)

/-- Without candidates nothing can be in the way. -/
theorem clear_of_not_cand (hj : Judged verdict would cand as) (h : ∀ b ∈ as, ¬cand b) :
    Clear verdict would cand as := by
  rintro before c after rfl -
  have hmem : c ∈ before ++ c :: after := List.mem_append_right before List.mem_cons_self
  refine ⟨fun hbreaks => h c hmem (hj.breaks c hmem hbreaks), fun _ b hb => h b ?_⟩
  exact List.mem_append_right before (List.mem_cons_of_mem c hb)

/-- Every candidate gets its turn just when nothing is in the way. -/
theorem exhaustive_iff (hj : Judged verdict would cand as) :
    Exhaustive verdict would cand as ↔ Clear verdict would cand as := by
  induction as with
  | nil =>
    refine ⟨fun _ before a after hsplit => ?_, fun _ => ⟨by simp [outcome], by simp [outcome], .slnil⟩⟩
    cases List.append_eq_nil_iff.1 hsplit.symm |>.2
  | cons a as ih =>
    cases hverdict : verdict a with
    | passes =>
      have hnot : ¬would a := hj.passes a List.mem_cons_self hverdict
      rw [exhaustive_cons_of_passes hj hverdict, ih hj.tail, clear_cons_of_not_would hnot, hverdict]
      simp
    | works =>
      have hne : verdict a ≠ .passes := by
        rw [hverdict]
        decide
      obtain ⟨houtcome, htried⟩ := outcome_cons_of_ne as hne
      have hwould := hj.works a List.mem_cons_self hverdict
      refine ⟨fun _ => clear_cons_of_would hwould hverdict, fun _ => ⟨?_, ?_, ?_⟩⟩
      · rw [houtcome, hverdict]
        decide
      · rw [houtcome, hverdict]
        exact iff_of_true rfl ⟨a, List.mem_cons_self, hwould⟩
      · rw [htried, List.filter_cons_of_pos (hj.would a List.mem_cons_self hwould),
          upTo_cons_of_pos hwould]
    | stops =>
      have hne : verdict a ≠ .passes := by
        rw [hverdict]
        decide
      obtain ⟨houtcome, htried⟩ := outcome_cons_of_ne as hne
      have hnot : ¬would a := hj.stops a List.mem_cons_self hverdict
      rw [clear_cons_of_not_would hnot]
      constructor
      · intro ⟨_, _, hall⟩
        rw [htried] at hall
        have hnone := (upTo_sublist_singleton hnot).1 hall
        exact ⟨⟨by rw [hverdict]; decide, fun _ => hnone⟩, clear_of_not_cand hj.tail hnone⟩
      · rintro ⟨⟨-, hlast⟩, -⟩
        have hnone := hlast hverdict
        refine ⟨?_, ?_, ?_⟩
        · rw [houtcome, hverdict]
          decide
        · rw [houtcome, hverdict]
          refine iff_of_false (by decide) ?_
          rintro ⟨b, hb, hwould⟩
          rcases List.mem_cons.1 hb with rfl | hb
          · exact hnot hwould
          · exact hnone b hb (hj.tail.would b hb hwould)
        · rw [htried]
          exact (upTo_sublist_singleton hnot).2 hnone
    | breaks =>
      have hne : verdict a ≠ .passes := by
        rw [hverdict]
        decide
      obtain ⟨houtcome, -⟩ := outcome_cons_of_ne as hne
      constructor
      · intro h
        exact absurd (houtcome.trans (congrArg some hverdict)) h.ends
      · intro h
        have hfirst := (h [] a as rfl fun b hb => absurd hb List.not_mem_nil).1
        exact absurd hverdict hfirst

end Attempts

end Attempts
