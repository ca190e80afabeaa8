import Quantra.Lib.Levels

/-! Going up from element to element until one of them passes a test. -/
namespace Climb

variable {α β : Type*} (up : α → Option α)

/-- The search with a bound on the number of elements looked at; `none` if the bound is too low. -/
def climb (find : α → Option β) : ℕ → α → Option (Option β)
  | 0, _ => none
  | n + 1, a =>
    match find a with
    | some b => some (some b)
    | none => (up a).elim (some none) (climb find n)

/-- What the test gives at the nearest element where it gives anything. -/
inductive Nearest (test : α → β → Prop) : α → Option β → Prop
  | here {a : α} {b : β} : test a b → Nearest test a (some b)
  | up {a a' : α} {r : Option β} :
    (∀ b, ¬test a b) → up a = some a' → Nearest test a' r → Nearest test a r
  | top {a : α} : (∀ b, ¬test a b) → up a = none → Nearest test a none

/-- The nearest element where the test gives anything. -/
inductive Stops (test : α → β → Prop) : α → α → Prop
  | here {a : α} {b : β} : test a b → Stops test a a
  | up {a a' c : α} : (∀ b, ¬test a b) → up a = some a' → Stops test a' c → Stops test a c

/-- `a` comes right above `b`. -/
def Above (a b : α) : Prop := up b = some a

variable {up} {find : α → Option β} {test weaker : α → β → Prop} {a a' c : α} {b : β}
  {r r' : Option β} {n m : ℕ}

theorem climb_succ_of_some (h : find a = some b) : climb up find (n + 1) a = some (some b) := by
  rw [climb, h]

theorem climb_succ_of_none (h : find a = none) :
    climb up find (n + 1) a = (up a).elim (some none) (climb up find n) := by
  rw [climb, h]

theorem climb_mono (h : climb up find n a = some r) (hle : n ≤ m) :
    climb up find m a = some r := by
  induction n generalizing a m with
  | zero => cases h
  | succ n ih =>
    obtain ⟨m, rfl⟩ := Nat.exists_eq_add_of_lt (Nat.lt_of_lt_of_le (Nat.lt_succ_self n) hle)
    cases hfind : find a with
    | some b =>
      rw [climb_succ_of_some hfind] at h ⊢
      exact h
    | none =>
      rw [climb_succ_of_none hfind] at h ⊢
      cases hup : up a with
      | none =>
        rw [hup] at h
        exact h
      | some a' =>
        rw [hup] at h
        exact ih h (Nat.le_add_right n m)

/-- The search ends if every chain upwards does. -/
theorem exists_climb (h : Levels.Peeled (Above up) n a) : ∃ r, climb up find n a = some r := by
  induction n generalizing a with
  | zero => exact h.elim
  | succ n ih =>
    cases hfind : find a with
    | some b => exact ⟨_, climb_succ_of_some hfind⟩
    | none =>
      rw [climb_succ_of_none hfind]
      cases hup : up a with
      | none => exact ⟨_, rfl⟩
      | some a' => exact ih (h a' hup)

theorem nearest_of_climb (h : climb up find n a = some r) :
    Nearest up (fun a b => find a = some b) a r := by
  induction n generalizing a with
  | zero => cases h
  | succ n ih =>
    cases hfind : find a with
    | some b =>
      rw [climb_succ_of_some hfind] at h
      rw [← Option.some.inj h]
      exact .here hfind
    | none =>
      have hno : ∀ b, ¬find a = some b := by simp [hfind]
      rw [climb_succ_of_none hfind] at h
      cases hup : up a with
      | none =>
        rw [hup] at h
        rw [← Option.some.inj h]
        exact .top hno hup
      | some a' =>
        rw [hup] at h
        exact .up hno hup (ih h)

/-- Where the test gives anything, the search ends. -/
theorem Nearest.of_test (h : Nearest up test a r) (htest : test a b) :
    ∃ b', r = some b' ∧ test a b' := by
  cases h with
  | here htest' => exact ⟨_, rfl, htest'⟩
  | up hno _ _ => exact absurd htest (hno b)
  | top hno _ => exact absurd htest (hno b)

/-- Where it gives nothing, the search goes on. -/
theorem Nearest.above (h : Nearest up test a r) (hno : ∀ b, ¬test a b) (hup : up a = some a') :
    Nearest up test a' r := by
  cases h with
  | here htest => exact absurd htest (hno _)
  | up _ hup' h =>
    rw [hup] at hup'
    cases hup'
    exact h
  | top _ hup' =>
    rw [hup] at hup'
    cases hup'

theorem Nearest.eq_none (h : Nearest up test a r) (hno : ∀ b, ¬test a b) (hup : up a = none) :
    r = none := by
  cases h with
  | here htest => exact absurd htest (hno _)
  | up _ hup' _ =>
    rw [hup] at hup'
    cases hup'
  | top _ _ => rfl

/-- A test that gives one thing at most at each element leads to one thing only. -/
theorem Nearest.unique (hfun : ∀ a b b', test a b → test a b' → b = b') (h : Nearest up test a r)
    (h' : Nearest up test a r') : r = r' := by
  induction h with
  | here htest =>
    obtain ⟨b', rfl, htest'⟩ := h'.of_test htest
    rw [hfun _ _ _ htest htest']
  | up hno hup _ ih => exact ih (h'.above hno hup)
  | top hno hup => exact (h'.eq_none hno hup).symm

/-- A test that gives no more comes no nearer, so what it gives at the stop is the nearest. -/
theorem Stops.nearest (h : Stops up weaker a c) (hle : ∀ a b, test a b → weaker a b)
    (htest : test c b) : Nearest up test a (some b) := by
  induction h with
  | here _ => exact .here htest
  | up hno hup _ ih => exact .up (fun b hb => hno b (hle _ _ hb)) hup (ih htest)

theorem Stops.exists_test (h : Stops up test a c) : ∃ b, test c b := by
  induction h with
  | here htest => exact ⟨_, htest⟩
  | up _ _ _ ih => exact ih

/-- Where a test gives anything, one that gives something at the same elements stops. -/
theorem Nearest.exists_stops (h : Nearest up test a (some b))
    (hle : ∀ a b, test a b → weaker a b) (hno : ∀ a, (∀ b, ¬test a b) → ∀ b, ¬weaker a b) :
    ∃ c, Stops up weaker a c := by
  generalize hr : some b = r at h
  induction h with
  | here htest => exact ⟨_, .here (hle _ _ htest)⟩
  | up hnone hup _ ih =>
    obtain ⟨c, hc⟩ := ih hr
    exact ⟨c, .up (hno _ hnone) hup hc⟩
  | top => cases hr

/-- Its search goes on from the stop. -/
theorem Stops.nearest_above (h : Stops up weaker a c) (hle : ∀ a b, test a b → weaker a b)
    (hnearest : Nearest up test a r) : Nearest up test c r := by
  induction h with
  | here _ => exact hnearest
  | up hno hup _ ih => exact ih (hnearest.above (fun b hb => hno b (hle _ _ hb)) hup)

end Climb
