import Quantra.Lib.Settings

/-! The text of a file of lines, each of them ended by a line feed. -/
namespace LineFile

def text (ls : List (List Char)) : List Char := ls.flatMap (· ++ ['\n'])

variable {cs l : List Char} {ls : List (List Char)}

theorem text_nil : text [] = [] := rfl

theorem text_cons (l : List Char) (ls : List (List Char)) : text (l :: ls) = l ++ '\n' :: text ls := by
  rw [text, List.flatMap_cons, List.append_assoc]
  rfl

theorem text_append (ls ms : List (List Char)) : text (ls ++ ms) = text ls ++ text ms :=
  List.flatMap_append

theorem text_concat (ls : List (List Char)) (l : List Char) :
    text (ls ++ [l]) = text ls ++ (l ++ ['\n']) := by
  rw [text_append, text_cons, text_nil]

/-- The lines are read as they were written. -/
theorem lines_text (h : ∀ l ∈ ls, '\n' ∉ l ∧ l.getLast? ≠ some '\r') :
    Text.lines (String.ofList (text ls)) = ls.map String.ofList :=
  Text.lines_terminated h

/-- A line with its line feed stands in the file only as the end of a line. -/
theorem infix_text_iff (hcs : '\n' ∉ cs) (hls : ∀ l ∈ ls, '\n' ∉ l) :
    cs ++ ['\n'] <:+: text ls ↔ ∃ l ∈ ls, cs <:+ l := by
  induction ls with
  | nil =>
    constructor
    · intro h
      have hnil := List.infix_nil.1 h
      exact absurd hnil (List.append_ne_nil_of_right_ne_nil _ (List.cons_ne_nil _ _))
    · rintro ⟨l, hl, -⟩
      cases hl
  | cons l ls ih =>
    have hl := hls l List.mem_cons_self
    have hiff := ih fun m hm => hls m (List.mem_cons_of_mem l hm)
    constructor
    · rintro ⟨s, t, h⟩
      have heq : (s ++ cs) ++ '\n' :: t = l ++ '\n' :: text ls := by
        rw [← text_cons, ← h]
        simp
      by_cases hs : '\n' ∈ s
      · -- the line before the occurrence is the first one
        obtain ⟨s₁, s₂, rfl, hs₁⟩ := List.eq_append_cons_of_mem hs
        rw [List.append_assoc, List.append_assoc, List.cons_append] at heq
        obtain ⟨-, hrest⟩ := Settings.append_cons_inj hs₁ hl heq
        have hin : cs ++ ['\n'] <:+: text ls := ⟨s₂, t, by rw [← hrest]; simp⟩
        obtain ⟨m, hm, hsuffix⟩ := hiff.1 hin
        exact ⟨m, List.mem_cons_of_mem l hm, hsuffix⟩
      · have hboth : '\n' ∉ s ++ cs := by
          rw [List.mem_append, not_or]
          exact ⟨hs, hcs⟩
        obtain ⟨rfl, -⟩ := Settings.append_cons_inj hboth hl heq
        exact ⟨s ++ cs, List.mem_cons_self, s, rfl⟩
    · rintro ⟨m, hm, hsuffix⟩
      rw [text_cons]
      obtain rfl | hm := List.mem_cons.1 hm
      · obtain ⟨s, rfl⟩ := hsuffix
        exact ⟨s, text ls, by simp⟩
      · have hin := hiff.2 ⟨m, hm, hsuffix⟩
        have hlater : text ls <:+ l ++ '\n' :: text ls := ⟨l ++ ['\n'], by simp⟩
        exact hin.trans hlater.isInfix

/-- What follows the last separator is the same in a text and in an end of it that has one. -/
theorem eq_of_suffix {sep : Char} {pre pre' s s' : List Char} (hs : sep ∉ s) (hs' : sep ∉ s')
    (h : pre ++ sep :: s <:+ pre' ++ sep :: s') : s = s' ∧ pre <:+ pre' := by
  obtain ⟨t, ht⟩ := h
  have hrev := congrArg List.reverse ht
  simp only [List.reverse_append, List.reverse_cons, List.append_assoc, List.singleton_append] at hrev
  have hns : sep ∉ s.reverse := fun hmem => hs (List.mem_reverse.1 hmem)
  have hns' : sep ∉ s'.reverse := fun hmem => hs' (List.mem_reverse.1 hmem)
  obtain ⟨hlast, hrest⟩ := Settings.append_cons_inj hns hns' hrev
  refine ⟨List.reverse_injective hlast, t, ?_⟩
  apply List.reverse_injective
  rw [List.reverse_append]
  exact hrest

end LineFile
