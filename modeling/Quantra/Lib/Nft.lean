import Mathlib.Data.Nat.Notation

/-! Chains of a packet filter. The rules are tried in order, the first that matches decides, and the
policy of the chain if none does. -/
namespace Nft

inductive Verdict
  | accept
  | drop
  deriving DecidableEq, Repr

/-- A condition on the packet, and what follows from it. -/
structure Rule (μ : Type*) where
  cond : μ
  verdict : Verdict
  deriving DecidableEq, Repr

structure Chain (μ : Type*) where
  rules : List (Rule μ)
  policy : Verdict
  deriving DecidableEq, Repr

variable {μ π : Type*} (holds : μ → π → Bool)

/-- The verdict of the first rule that matches. -/
def decided (rules : List (Rule μ)) (p : π) : Option Verdict :=
  (rules.find? fun r => holds r.cond p).map (·.verdict)

def Chain.verdict (c : Chain μ) (p : π) : Verdict := (decided holds c.rules p).getD c.policy

/-- `add rule`. -/
def Chain.add (c : Chain μ) (r : Rule μ) : Chain μ := { c with rules := c.rules ++ [r] }

variable {holds} {r : Rule μ} {rules more : List (Rule μ)} {p : π} {v : Verdict} {c : Chain μ}

@[simp]
theorem decided_nil : decided holds [] p = none := rfl

theorem decided_cons_of_holds (h : holds r.cond p) :
    decided holds (r :: rules) p = some r.verdict := by
  simp only [decided, List.find?_cons, h, Option.map_some]

theorem decided_cons_of_not (h : holds r.cond p = false) :
    decided holds (r :: rules) p = decided holds rules p := by
  simp only [decided, List.find?_cons, h]

theorem decided_append :
    decided holds (rules ++ more) p = (decided holds rules p).or (decided holds more p) := by
  induction rules with
  | nil => rfl
  | cons r rules ih =>
    rw [List.cons_append]
    cases hr : holds r.cond p with
    | true => rw [decided_cons_of_holds hr, decided_cons_of_holds hr, Option.some_or]
    | false => rw [decided_cons_of_not hr, decided_cons_of_not hr, ih]

/-- Rules of one verdict decide as soon as one of them matches. -/
theorem decided_map {conds : List μ} :
    decided holds (conds.map (⟨·, v⟩)) p = if conds.any (holds · p) then some v else none := by
  induction conds with
  | nil => rfl
  | cons m conds ih =>
    rw [List.map_cons, List.any_cons]
    cases hm : holds m p with
    | true => exact decided_cons_of_holds (r := ⟨m, v⟩) hm
    | false => rw [decided_cons_of_not (r := ⟨m, v⟩) hm, ih, Bool.false_or]

theorem verdict_add_of_holds (h : holds r.cond p) :
    (c.add r).verdict holds p = (decided holds c.rules p).getD r.verdict := by
  rw [Chain.verdict, Chain.add, decided_append, decided_cons_of_holds h]
  cases decided holds c.rules p <;> rfl

theorem verdict_add_of_not (h : holds r.cond p = false) :
    (c.add r).verdict holds p = c.verdict holds p := by
  rw [Chain.verdict, Chain.add, decided_append, decided_cons_of_not h, decided_nil, Option.or_none]
  rfl

end Nft
