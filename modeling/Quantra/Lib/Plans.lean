import Quantra.Lib.Calls
import Mathlib.Data.List.Basic

/-! Programs under a system that gives every call one answer, and plans: sequences of calls that are
tried in turn until one of them goes well to its end. -/
namespace Calls
variable {ι ρ ε α β : Type*}

namespace Prog
variable (env : ι → ρ)

/-- What the program returns. -/
def value : Prog ι ρ α → α
  | ret a => a
  | call c next => (next (env c)).value

/-- The calls that the program makes. -/
def trace : Prog ι ρ α → List ι
  | ret _ => []
  | call c next => c :: (next (env c)).trace

variable {env}

@[simp] theorem value_ret (a : α) : (ret a : Prog ι ρ α).value env = a := rfl

@[simp] theorem value_call (c : ι) (next : ρ → Prog ι ρ α) :
    (call c next).value env = (next (env c)).value env := rfl

@[simp] theorem trace_ret (a : α) : (ret a : Prog ι ρ α).trace env = [] := rfl

@[simp] theorem trace_call (c : ι) (next : ρ → Prog ι ρ α) :
    (call c next).trace env = c :: (next (env c)).trace env := rfl

@[simp] theorem value_bind (p : Prog ι ρ α) (f : α → Prog ι ρ β) :
    (p.bind f).value env = (f (p.value env)).value env := by
  induction p with
  | ret a => rfl
  | call c next ih => exact ih (env c)

@[simp] theorem trace_bind (p : Prog ι ρ α) (f : α → Prog ι ρ β) :
    (p.bind f).trace env = p.trace env ++ (f (p.value env)).trace env := by
  induction p with
  | ret a => rfl
  | call c next ih => exact congrArg (c :: ·) (ih (env c))

theorem makes_of_mem_trace {bad : ι → Prop} {p : Prog ι ρ α} {c : ι} (h : c ∈ p.trace env)
    (hbad : bad c) : p.Makes bad := by
  induction p with
  | ret a => cases h
  | call d next ih =>
    rw [makes_call]
    rcases List.mem_cons.1 h with rfl | hrest
    · exact .inl hbad
    · exact .inr ⟨env d, ih (env d) hrest⟩

section Check
variable {p : Prog ι ρ (Except ε β)} {ok : β → Prog ι ρ α} {err : ε → Prog ι ρ α}

theorem value_check_ok {b : β} (h : p.value env = .ok b) :
    (p.check ok err).value env = (ok b).value env := by
  unfold check
  rw [value_bind, h]

theorem trace_check_ok {b : β} (h : p.value env = .ok b) :
    (p.check ok err).trace env = p.trace env ++ (ok b).trace env := by
  unfold check
  rw [trace_bind, h]

theorem value_check_error {e : ε} (h : p.value env = .error e) :
    (p.check ok err).value env = (err e).value env := by
  unfold check
  rw [value_bind, h]

theorem trace_check_error {e : ε} (h : p.value env = .error e) :
    (p.check ok err).trace env = p.trace env ++ (err e).trace env := by
  unfold check
  rw [trace_bind, h]

end Check

end Prog

section Plans
variable (ok : ι → Bool)

/-- Every call of the plan goes well. -/
def works (plan : List ι) : Bool := plan.all ok

/-- The calls of the plan have been made, up to the first that fails. -/
def Tried (log : List ι) : List ι → Prop
  | [] => True
  | c :: rest => c ∈ log ∧ (ok c → Tried log rest)

/-- The first plan that works has been carried out to its last call; a failure means that all of them
have been tried. -/
structure Serves (plans : List (List ι)) (success : Bool) (log : List ι) : Prop where
  complete : ∀ plan, plans.find? (works ok) = some plan →
    success = true ∧ ∃ c, plan.getLast? = some c ∧ log.getLast? = some c
  exhaustive : success = false → ∀ plan ∈ plans, Tried ok log plan

variable {ok} {plans : List (List ι)} {success : Bool} {log : List ι} {c : ι}

theorem Tried.mono {plan log' : List ι} (hlog : log ⊆ log') (h : Tried ok log plan) :
    Tried ok log' plan := by
  induction plan with
  | nil => trivial
  | cons c rest ih => exact ⟨hlog h.1, fun hok => ih (h.2 hok)⟩

/-- As much of the plan as there is to make has been made. -/
theorem tried_of_cut {before rest : List ι} (hlog : before ++ [c] ⊆ log) (h : ok c = false) :
    Tried ok log (before ++ c :: rest) := by
  induction before with
  | nil => exact ⟨hlog List.mem_cons_self, fun hok => absurd hok (by simp [h])⟩
  | cons b before ih =>
    have hsub : before ++ [c] ⊆ log := fun x hx => hlog (List.mem_cons_of_mem b hx)
    exact ⟨hlog List.mem_cons_self, fun _ => ih hsub⟩

theorem tried_of_subset {plan : List ι} (hlog : plan ⊆ log) : Tried ok log plan := by
  induction plan with
  | nil => trivial
  | cons b plan ih =>
    have hsub : plan ⊆ log := fun x hx => hlog (List.mem_cons_of_mem b hx)
    exact ⟨hlog List.mem_cons_self, fun _ => ih hsub⟩

/-- A single plan that ends at a call that fails. -/
theorem serves_of_cut (before : List ι) {rest : List ι} (hlog : before ++ [c] ⊆ log) (h : ok c = false) :
    Serves ok [before ++ c :: rest] false log := by
  constructor
  · intro plan hplan
    have hworks := List.find?_some hplan
    obtain rfl := List.mem_singleton.1 (List.mem_of_find?_eq_some hplan)
    have hok := List.all_eq_true.1 hworks c (by simp)
    rw [h] at hok
    cases hok
  · intro _ plan hplan
    obtain rfl := List.mem_singleton.1 hplan
    exact tried_of_cut hlog h

/-- A single plan that comes to its last call. -/
theorem serves_of_end (before : List ι) (hlog : before ++ [c] ⊆ log)
    (hlast : log.getLast? = some c) :
    Serves ok [before ++ [c]] (ok c) log := by
  constructor
  · intro plan hplan
    have hworks := List.find?_some hplan
    obtain rfl := List.mem_singleton.1 (List.mem_of_find?_eq_some hplan)
    exact ⟨List.all_eq_true.1 hworks c (by simp), c, by simp, hlast⟩
  · intro _ plan hplan
    obtain rfl := List.mem_singleton.1 hplan
    exact tried_of_subset hlog

/-- Calls made before do no harm. -/
theorem Serves.prepend (before : List ι) (h : Serves ok plans success log) :
    Serves ok plans success (before ++ log) := by
  constructor
  · intro plan hplan
    obtain ⟨hsuccess, c, hc, hlast⟩ := h.complete plan hplan
    refine ⟨hsuccess, c, hc, ?_⟩
    rw [List.getLast?_append, hlast]
    rfl
  · intro hfail plan hplan
    exact (h.exhaustive hfail plan hplan).mono (List.subset_append_right before log)

theorem serves_call (c : ι) : Serves ok [[c]] (ok c) [c] :=
  serves_of_end [] (List.Subset.refl [c]) rfl

theorem serves_cons_of_ok (plans : List (List ι)) (h : ok c = true) :
    Serves ok ([c] :: plans) true [c] := by
  have hworks : works ok [c] = true := by simpa [works] using h
  constructor
  · intro plan hplan
    rw [List.find?_cons_of_pos hworks] at hplan
    obtain rfl := Option.some.inj hplan
    exact ⟨rfl, c, rfl, rfl⟩
  · intro hfail
    cases hfail

theorem serves_cons_of_fail (h : ok c = false) (hrest : Serves ok plans success log) :
    Serves ok ([c] :: plans) success (c :: log) := by
  have hworks : ¬works ok [c] = true := by simp [works, h]
  have hlater := hrest.prepend [c]
  constructor
  · intro plan hplan
    rw [List.find?_cons_of_neg hworks] at hplan
    exact hlater.complete plan hplan
  · intro hfail plan hplan
    rcases List.mem_cons.1 hplan with rfl | hplan
    · exact ⟨List.mem_cons_self, fun hok => absurd hok (by simp [h])⟩
    · exact hlater.exhaustive hfail plan hplan

/-- A failure without the first call of a plan. -/
theorem not_serves {rest : List ι} (hplan : c :: rest ∈ plans) (hlog : c ∉ log) :
    ¬Serves ok plans false log :=
  fun h => hlog (h.exhaustive rfl _ hplan).1

theorem Serves.congr {plans' : List (List ι)} (h : Serves ok plans success log)
    (hfind : plans'.find? (works ok) = plans.find? (works ok)) (hsub : plans' ⊆ plans) :
    Serves ok plans' success log := by
  constructor
  · intro plan hplan
    exact h.complete plan (hfind.symm.trans hplan)
  · intro hfail plan hplan
    exact h.exhaustive hfail plan (hsub hplan)

/-- Keeping only the first of equal candidates changes neither what is found nor what is there. -/
theorem find?_firsts [BEq α] [LawfulBEq α] (p : α → Bool) (new old : List α) :
    (new.foldl (fun cs a => if cs.contains a then cs else cs ++ [a]) old).find? p =
      (old ++ new).find? p := by
  induction new generalizing old with
  | nil => rw [List.foldl_nil, List.append_nil]
  | cons a new ih =>
    rw [List.foldl_cons, ih]
    by_cases hold : old.contains a
    · rw [if_pos hold, List.find?_append, List.find?_append]
      cases hfind : old.find? p with
      | some b => rfl
      | none =>
        have hneg := List.find?_eq_none.1 hfind a (List.contains_iff_mem.1 hold)
        rw [List.find?_cons_of_neg hneg]
    · rw [if_neg hold, List.append_assoc, List.singleton_append]

theorem mem_firsts [BEq α] [LawfulBEq α] (new old : List α) (b : α) :
    b ∈ new.foldl (fun cs a => if cs.contains a then cs else cs ++ [a]) old ↔ b ∈ old ++ new := by
  induction new generalizing old with
  | nil => rw [List.foldl_nil, List.append_nil]
  | cons a new ih =>
    rw [List.foldl_cons, ih]
    by_cases hold : old.contains a
    · have ha := List.contains_iff_mem.1 hold
      rw [if_pos hold, List.mem_append, List.mem_append, List.mem_cons]
      constructor
      · rintro (hb | hb)
        · exact .inl hb
        · exact .inr (.inr hb)
      · rintro (hb | rfl | hb)
        · exact .inl hb
        · exact .inl ha
        · exact .inr hb
    · rw [if_neg hold, List.append_assoc, List.singleton_append]

end Plans

end Calls
