import Mathlib.Logic.Unique

/-! Programs as trees of calls to a surrounding system whose answers are not known: what calls a
program can come to make, what it can return, and what it cannot avoid. -/
namespace Calls

/-- A program over calls in `ι` that are answered in `ρ`. -/
inductive Prog (ι ρ α : Type*)
  | ret (a : α)
  | call (c : ι) (next : ρ → Prog ι ρ α)

variable {ι ρ ε α β : Type*}

namespace Prog

def bind : Prog ι ρ α → (α → Prog ι ρ β) → Prog ι ρ β
  | ret a, f => f a
  | call c next, f => call c fun o => (next o).bind f

/-- Some answers lead the program to a call in `bad`. -/
def Makes (bad : ι → Prop) : Prog ι ρ α → Prop
  | ret _ => False
  | call c next => bad c ∨ ∃ o, (next o).Makes bad

/-- Some answers lead the program to return `a`. -/
def Returns : Prog ι ρ α → α → Prop
  | ret b, a => b = a
  | call _ next, a => ∃ o, (next o).Returns a

variable {bad : ι → Prop} {p : Prog ι ρ α} {f : α → Prog ι ρ β}

theorem bind_assoc {γ : Type*} {g : β → Prog ι ρ γ} :
    (p.bind f).bind g = p.bind fun a => (f a).bind g := by
  induction p with
  | ret a => rfl
  | call c next ih => simp only [bind, ih]

@[simp] theorem makes_ret (a : α) : ¬(ret a : Prog ι ρ α).Makes bad := fun h => h

@[simp] theorem makes_call (c : ι) (next : ρ → Prog ι ρ α) :
    (call c next).Makes bad ↔ bad c ∨ ∃ o, (next o).Makes bad := Iff.rfl

@[simp] theorem returns_ret (a b : α) : (ret a : Prog ι ρ α).Returns b ↔ a = b := Iff.rfl

@[simp] theorem returns_call (c : ι) (next : ρ → Prog ι ρ α) (a : α) :
    (call c next).Returns a ↔ ∃ o, (next o).Returns a := Iff.rfl

-- from here on the two are used through the lemmas above: unfolding them would run the program
attribute [irreducible] Makes Returns

theorem makes_bind :
    (p.bind f).Makes bad ↔ p.Makes bad ∨ ∃ a, p.Returns a ∧ (f a).Makes bad := by
  induction p with
  | ret a => simp [bind]
  | call c next ih =>
    simp only [bind, makes_call, ih, returns_call, exists_or, or_assoc]
    refine or_congr_right (or_congr_right ?_)
    constructor
    · intro h
      obtain ⟨o, a, hreturns, hmakes⟩ := h
      exact ⟨a, ⟨o, hreturns⟩, hmakes⟩
    · intro h
      obtain ⟨a, ⟨o, hreturns⟩, hmakes⟩ := h
      exact ⟨o, a, hreturns, hmakes⟩

theorem returns_bind {b : β} : (p.bind f).Returns b ↔ ∃ a, p.Returns a ∧ (f a).Returns b := by
  induction p with
  | ret a => simp [bind]
  | call c next ih =>
    simp only [bind, returns_call, ih]
    constructor
    · intro h
      obtain ⟨o, a, hreturns, hrest⟩ := h
      exact ⟨a, ⟨o, hreturns⟩, hrest⟩
    · intro h
      obtain ⟨a, ⟨o, hreturns⟩, hrest⟩ := h
      exact ⟨o, a, hreturns, hrest⟩

theorem exists_returns [Nonempty ρ] (p : Prog ι ρ α) : ∃ a, p.Returns a := by
  induction p with
  | ret a => exact ⟨a, (returns_ret a a).2 rfl⟩
  | call c next ih =>
    obtain ⟨o⟩ := ‹Nonempty ρ›
    obtain ⟨a, ha⟩ := ih o
    exact ⟨a, (returns_call c next a).2 ⟨o, ha⟩⟩

theorem Makes.mono {bad' : ι → Prop} (hbad : ∀ c, bad c → bad' c) (h : p.Makes bad) :
    p.Makes bad' := by
  induction p with
  | ret a => exact absurd h (makes_ret a)
  | call c next ih =>
    obtain hc | ⟨o, ho⟩ := (makes_call c next).1 h
    · exact (makes_call c next).2 (.inl (hbad c hc))
    · exact (makes_call c next).2 (.inr ⟨o, ih o ho⟩)

theorem not_makes_of_forall (h : ∀ c, ¬bad c) : ¬p.Makes bad := by
  induction p with
  | ret a => exact makes_ret a
  | call c next ih =>
    intro hmakes
    obtain hbad | ⟨o, hnext⟩ := (makes_call c next).1 hmakes
    · exact h c hbad
    · exact ih o hnext

/-- The calls in `xs`, answered as given there, lead `p` to `q`. -/
def Leads : Prog ι ρ α → List (ι × ρ) → Prog ι ρ α → Prop
  | p, [], q => p = q
  | ret _, _ :: _, _ => False
  | call c next, (c', o) :: xs, q => c' = c ∧ (next o).Leads xs q

@[simp] theorem leads_nil (p q : Prog ι ρ α) : p.Leads [] q ↔ p = q := by
  cases p <;> exact Iff.rfl

@[simp] theorem leads_ret (a : α) (x : ι × ρ) (xs : List (ι × ρ)) (q : Prog ι ρ α) :
    ¬(ret a).Leads (x :: xs) q := fun h => h

@[simp] theorem leads_call (c : ι) (next : ρ → Prog ι ρ α) (x : ι × ρ) (xs : List (ι × ρ))
    (q : Prog ι ρ α) : (call c next).Leads (x :: xs) q ↔ x.1 = c ∧ (next x.2).Leads xs q := Iff.rfl

/-- A path through `p.bind f` ends inside `p`, or goes through all of `p` and then into `f`. -/
theorem leads_bind {xs : List (ι × ρ)} {r : Prog ι ρ β} (h : (p.bind f).Leads xs r) :
    (∃ q, p.Leads xs q ∧ r = q.bind f) ∨
      ∃ ys zs a, xs = ys ++ zs ∧ p.Leads ys (ret a) ∧ (f a).Leads zs r := by
  induction p generalizing xs with
  | ret a => exact .inr ⟨[], xs, a, rfl, (leads_nil _ _).2 rfl, h⟩
  | call c next ih =>
    cases xs with
    | nil => exact .inl ⟨call c next, (leads_nil _ _).2 rfl, ((leads_nil _ _).1 h).symm⟩
    | cons x xs =>
      obtain ⟨hx, hrest⟩ := h
      obtain ⟨q, hq, hr⟩ | ⟨ys, zs, a, hxs, hys, hzs⟩ := ih x.2 hrest
      · exact .inl ⟨q, ⟨hx, hq⟩, hr⟩
      · exact .inr ⟨x :: ys, zs, a, by rw [hxs, List.cons_append], ⟨hx, hys⟩, hzs⟩

/-- Once a call of `p` has been made and answered as `key` says, what is left of `p` is `good`. -/
def After (key : ι × ρ → Prop) (good : Prog ι ρ α → Prop) (p : Prog ι ρ α) : Prop :=
  ∀ xs x q, key x → p.Leads (xs ++ [x]) q → good q

section After
variable {key : ι × ρ → Prop}

theorem after_ret (good : Prog ι ρ α → Prop) (a : α) : (ret a).After key good := by
  intro xs x q _ hleads
  cases xs with
  | nil => exact absurd hleads (leads_ret a x [] q)
  | cons y ys => exact absurd hleads (leads_ret a y (ys ++ [x]) q)

theorem after_call {good : Prog ι ρ α → Prop} {c : ι} {next : ρ → Prog ι ρ α}
    (hkey : ∀ o, key (c, o) → good (next o)) (hnext : ∀ o, (next o).After key good) :
    (call c next).After key good := by
  intro xs x q hx hleads
  cases xs with
  | nil =>
    obtain ⟨hc, hq⟩ := hleads
    have hnow : key (c, x.2) := by rw [← hc]; exact hx
    rw [← (leads_nil _ _).1 hq]
    exact hkey x.2 hnow
  | cons y ys => exact hnext y.2 ys x q hx hleads.2

/-- A program that never makes the call is never past it. -/
theorem after_of_not_makes {good : Prog ι ρ α → Prop}
    (h : ¬p.Makes fun c => ∃ o, key (c, o)) : p.After key good := by
  induction p with
  | ret a => exact after_ret good a
  | call c next ih =>
    rw [makes_call, not_or] at h
    refine after_call (fun o ho => absurd ⟨o, ho⟩ h.1) fun o => ih o ?_
    intro hmakes
    exact h.2 ⟨o, hmakes⟩

theorem After.mono {good good' : Prog ι ρ α → Prop} (h : p.After key good)
    (hgood : ∀ q, good q → good' q) : p.After key good' :=
  fun xs x q hx hleads => hgood q (h xs x q hx hleads)

theorem after_bind {good : Prog ι ρ β → Prop} (hp : p.After key fun q => good (q.bind f))
    (hf : ∀ a, (f a).After key good) : (p.bind f).After key good := by
  intro xs x r hx hleads
  obtain ⟨q, hq, rfl⟩ | ⟨ys, zs, a, hsplit, hys, hzs⟩ := leads_bind hleads
  · exact hp xs x q hx hq
  · rcases List.eq_nil_or_concat zs with hnil | ⟨zs', z, hconcat⟩
    · -- the call is the last one that `p` makes
      rw [hnil, List.append_nil] at hsplit
      rw [← hsplit] at hys
      rw [hnil] at hzs
      rw [← (leads_nil _ _).1 hzs]
      exact hp xs x (ret a) hx hys
    · rw [List.concat_eq_append] at hconcat
      rw [hconcat, ← List.append_assoc] at hsplit
      have hz : x = z := by simpa using (List.append_inj' hsplit rfl).2
      rw [hconcat, ← hz] at hzs
      exact hf a zs' x r hx hzs

end After

/-! Steps that may fail, and their sequences: a failure ends the sequence. -/

/-- Go on by the outcome. -/
def check (p : Prog ι ρ (Except ε β)) (ok : β → Prog ι ρ α) (err : ε → Prog ι ρ α) :
    Prog ι ρ α :=
  p.bind fun
    | .ok b => ok b
    | .error e => err e

def done : Prog ι ρ (Except ε Unit) := ret (.ok ())

def andThen (s t : Prog ι ρ (Except ε Unit)) : Prog ι ρ (Except ε Unit) :=
  s.check (fun _ => t) fun e => ret (.error e)

def each (xs : List β) (step : β → Prog ι ρ (Except ε Unit)) : Prog ι ρ (Except ε Unit) :=
  match xs with
  | [] => done
  | x :: xs => (step x).andThen (each xs step)

def when (b : Bool) (s : Prog ι ρ (Except ε Unit)) : Prog ι ρ (Except ε Unit) :=
  if b then s else done

def Succeeds (s : Prog ι ρ (Except ε Unit)) : Prop := s.Returns (.ok ())

section Steps
variable {s t : Prog ι ρ (Except ε Unit)} {step : β → Prog ι ρ (Except ε Unit)} {xs : List β}
  {b : Bool}

@[simp] theorem makes_done : ¬(done : Prog ι ρ (Except ε Unit)).Makes bad := makes_ret _

@[simp] theorem succeeds_done : (done : Prog ι ρ (Except ε Unit)).Succeeds :=
  (returns_ret _ _).2 rfl

@[simp] theorem makes_check {q : Prog ι ρ (Except ε β)} {ok : β → Prog ι ρ α}
    {err : ε → Prog ι ρ α} :
    (q.check ok err).Makes bad ↔ q.Makes bad ∨ (∃ b, q.Returns (.ok b) ∧ (ok b).Makes bad) ∨
      ∃ e, q.Returns (.error e) ∧ (err e).Makes bad := by
  unfold check
  rw [makes_bind]
  refine or_congr_right ?_
  constructor
  · intro h
    obtain ⟨o, hreturns, hmakes⟩ := h
    cases o with
    | ok b => exact .inl ⟨b, hreturns, hmakes⟩
    | error e => exact .inr ⟨e, hreturns, hmakes⟩
  · intro h
    obtain ⟨b, hreturns, hmakes⟩ | ⟨e, hreturns, hmakes⟩ := h
    · exact ⟨.ok b, hreturns, hmakes⟩
    · exact ⟨.error e, hreturns, hmakes⟩

@[simp] theorem returns_check {q : Prog ι ρ (Except ε β)} {ok : β → Prog ι ρ α}
    {err : ε → Prog ι ρ α} {a : α} :
    (q.check ok err).Returns a ↔ (∃ b, q.Returns (.ok b) ∧ (ok b).Returns a) ∨
      ∃ e, q.Returns (.error e) ∧ (err e).Returns a := by
  unfold check
  rw [returns_bind]
  constructor
  · intro h
    obtain ⟨o, hreturns, hrest⟩ := h
    cases o with
    | ok b => exact .inl ⟨b, hreturns, hrest⟩
    | error e => exact .inr ⟨e, hreturns, hrest⟩
  · intro h
    obtain ⟨b, hreturns, hrest⟩ | ⟨e, hreturns, hrest⟩ := h
    · exact ⟨.ok b, hreturns, hrest⟩
    · exact ⟨.error e, hreturns, hrest⟩

theorem after_check {key : ι × ρ → Prop} {good : Prog ι ρ α → Prop} {q : Prog ι ρ (Except ε β)}
    {ok : β → Prog ι ρ α} {err : ε → Prog ι ρ α} (hq : q.After key fun r => good (r.check ok err))
    (hok : ∀ b, (ok b).After key good) (herr : ∀ e, (err e).After key good) :
    (q.check ok err).After key good := by
  unfold check
  refine after_bind hq fun o => ?_
  cases o with
  | ok b => exact hok b
  | error e => exact herr e

theorem andThen_assoc {u : Prog ι ρ (Except ε Unit)} :
    (s.andThen t).andThen u = s.andThen (t.andThen u) := by
  unfold andThen check
  rw [bind_assoc]
  congr 1
  funext r
  cases r <;> rfl

@[simp] theorem makes_andThen :
    (s.andThen t).Makes bad ↔ s.Makes bad ∨ (s.Succeeds ∧ t.Makes bad) := by
  simp [andThen, Succeeds, Unique.exists_iff]

@[simp] theorem succeeds_andThen : (s.andThen t).Succeeds ↔ s.Succeeds ∧ t.Succeeds := by
  simp [andThen, Succeeds, Unique.exists_iff]

@[simp] theorem makes_when : (when b s).Makes bad ↔ b ∧ s.Makes bad := by
  cases b <;> simp [when]

@[simp] theorem succeeds_when : (when b s).Succeeds ↔ (b → s.Succeeds) := by
  cases b <;> simp [when]

@[simp] theorem each_nil : each [] step = done := rfl

@[simp] theorem each_cons (x : β) : each (x :: xs) step = (step x).andThen (each xs step) := rfl

theorem succeeds_each : (each xs step).Succeeds ↔ ∀ x ∈ xs, (step x).Succeeds := by
  induction xs with
  | nil => simp
  | cons x xs ih => simp [ih]

/-- Where every step can succeed, every step is reached. -/
theorem makes_each (h : ∀ x ∈ xs, (step x).Succeeds) :
    (each xs step).Makes bad ↔ ∃ x ∈ xs, (step x).Makes bad := by
  induction xs with
  | nil => simp
  | cons x xs ih =>
    have hx : (step x).Succeeds := h x (List.mem_cons_self ..)
    rw [each_cons, makes_andThen, ih fun y hy => h y (List.mem_cons_of_mem x hy)]
    simp [hx]

end Steps

/-! Whole runs. -/

/-- The calls in `xs` are all that the program makes, and it returns `a`. -/
def Ends (p : Prog ι ρ α) (xs : List (ι × ρ)) (a : α) : Prop := p.Leads xs (ret a)

section Ends
variable {xs : List (ι × ρ)} {a : α} {b : β}

theorem ends_ret {a' : α} (h : (ret a : Prog ι ρ α).Ends xs a') : xs = [] ∧ a = a' := by
  cases xs with
  | nil => exact ⟨rfl, Prog.ret.inj ((leads_nil _ _).1 h)⟩
  | cons x xs => exact absurd h (leads_ret a x xs _)

theorem ends_call {c : ι} {next : ρ → Prog ι ρ α} (h : (call c next).Ends xs a) :
    ∃ o ys, xs = (c, o) :: ys ∧ (next o).Ends ys a := by
  cases xs with
  | nil => cases (leads_nil _ _).1 h
  | cons x xs =>
    obtain ⟨rfl, hrest⟩ := h
    exact ⟨x.2, xs, rfl, hrest⟩

theorem ends_bind (h : (p.bind f).Ends xs b) :
    ∃ ys zs a, xs = ys ++ zs ∧ p.Ends ys a ∧ (f a).Ends zs b := by
  obtain ⟨q, hq, hend⟩ | hsplit := leads_bind h
  · cases q with
    | ret a => exact ⟨xs, [], a, (List.append_nil xs).symm, hq, (leads_nil _ _).2 hend.symm⟩
    | call c next => cases hend
  · exact hsplit

theorem ends_check {q : Prog ι ρ (Except ε β)} {ok : β → Prog ι ρ α} {err : ε → Prog ι ρ α}
    (h : (q.check ok err).Ends xs a) :
    ∃ ys zs, xs = ys ++ zs ∧ ((∃ b, q.Ends ys (.ok b) ∧ (ok b).Ends zs a) ∨
      ∃ e, q.Ends ys (.error e) ∧ (err e).Ends zs a) := by
  obtain ⟨ys, zs, r, hxs, hq, hrest⟩ := ends_bind h
  refine ⟨ys, zs, hxs, ?_⟩
  cases r with
  | ok b => exact .inl ⟨b, hq, hrest⟩
  | error e => exact .inr ⟨e, hq, hrest⟩

/-- Where an error is passed on, nothing comes behind it. -/
theorem ends_check_error {ε' : Type*} {q : Prog ι ρ (Except ε β)}
    {ok : β → Prog ι ρ (Except ε' α)} {err : ε → ε'} {r : Except ε' α}
    (h : (q.check ok fun e => ret (.error (err e))).Ends xs r) :
    (∃ ys zs b, xs = ys ++ zs ∧ q.Ends ys (.ok b) ∧ (ok b).Ends zs r) ∨
      ∃ e, q.Ends xs (.error e) ∧ r = .error (err e) := by
  obtain ⟨ys, zs, hxs, ⟨b, hq, hrest⟩ | ⟨e, hq, hrest⟩⟩ := ends_check h
  · exact .inl ⟨ys, zs, b, hxs, hq, hrest⟩
  · obtain ⟨rfl, rfl⟩ := ends_ret hrest
    rw [List.append_nil] at hxs
    exact .inr ⟨e, hxs ▸ hq, rfl⟩

/-- The run on the given answers; `none` unless they are as many as the program asks for. -/
def play : Prog ι ρ α → List ρ → Option (List (ι × ρ) × α)
  | ret a, [] => some ([], a)
  | call c next, o :: os => ((next o).play os).map fun r => ((c, o) :: r.1, r.2)
  | _, _ => none

theorem ends_of_play {os : List ρ} (h : p.play os = some (xs, a)) : p.Ends xs a := by
  induction p generalizing os xs with
  | ret a' =>
    cases os with
    | nil =>
      cases h
      exact (leads_nil _ _).2 rfl
    | cons o os => cases h
  | call c next ih =>
    cases os with
    | nil => cases h
    | cons o os =>
      obtain ⟨r, hr, heq⟩ := Option.map_eq_some_iff.1 h
      cases heq
      exact ⟨rfl, ih o hr⟩

end Ends

/-! Programs under a system that answers from a state of its own. -/

section Run
variable {κ σ : Type*}

/-- The outcome under a system that answers the calls; `none` if it ends the program at one. -/
def run (perform : ι → σ → Option (ρ × σ)) : Prog ι ρ α → σ → Option (α × σ)
  | ret a, s => some (a, s)
  | call c next, s => (perform c s).bind fun r => (next r.1).run perform r.2

/-- The same program over other calls. -/
def mapCall (f : ι → κ) : Prog ι ρ α → Prog κ ρ α
  | ret a => ret a
  | call c next => call (f c) fun o => (next o).mapCall f

variable {perform : ι → σ → Option (ρ × σ)}

@[simp] theorem run_ret (a : α) (s : σ) : (ret a : Prog ι ρ α).run perform s = some (a, s) := rfl

@[simp] theorem run_call (c : ι) (next : ρ → Prog ι ρ α) (s : σ) :
    (call c next).run perform s =
      (perform c s).bind fun r => (next r.1).run perform r.2 := rfl

theorem run_bind (s : σ) : (p.bind f).run perform s =
    (p.run perform s).bind fun r => (f r.1).run perform r.2 := by
  induction p generalizing s with
  | ret a => rfl
  | call c next ih =>
    simp only [bind, run_call, Option.bind_assoc]
    exact Option.bind_congr fun r _ => ih r.1 r.2

/-- What every answer keeps of the state, the program keeps. -/
theorem run_invariant {inv : σ → Prop}
    (h : ∀ c s r, inv s → perform c s = some r → inv r.2) {s : σ} {r : α × σ} (hs : inv s)
    (hrun : p.run perform s = some r) : inv r.2 := by
  induction p generalizing s with
  | ret a =>
    cases hrun
    exact hs
  | call c next ih =>
    obtain ⟨q, hq, hrest⟩ := Option.bind_eq_some_iff.1 hrun
    exact ih q.1 (h c s q hs hq) hrest

theorem run_andThen (s t : Prog ι ρ (Except ε Unit)) (x : σ) :
    (s.andThen t).run perform x = (s.run perform x).bind fun r =>
      match r.1 with
      | .ok _ => t.run perform r.2
      | .error e => some (.error e, r.2) := by
  unfold andThen check
  rw [run_bind]
  refine Option.bind_congr fun r _ => ?_
  cases r.1 <;> rfl

end Run

/-! Programs some of whose answers are known. -/

section Given
variable (known : ι → Option ρ)

/-- Where an answer is known the program goes on with that one. -/
def given : Prog ι ρ α → Prog ι ρ α
  | ret a => ret a
  | call c next => call c fun o => (next ((known c).getD o)).given

variable {known}

@[simp] theorem given_ret (a : α) : (ret a : Prog ι ρ α).given known = ret a := rfl

@[simp] theorem given_call (c : ι) (next : ρ → Prog ι ρ α) :
    (call c next).given known = call c fun o => (next ((known c).getD o)).given known := rfl

theorem given_eq_self (h : ∀ c, known c = none) : p.given known = p := by
  induction p with
  | ret a => rfl
  | call c next ih =>
    rw [given_call, h c]
    congr 1
    funext o
    exact ih o

@[simp] theorem given_bind : (p.bind f).given known =
    (p.given known).bind fun a => (f a).given known := by
  induction p with
  | ret a => rfl
  | call c next ih =>
    simp only [bind, given_call, ih]

@[simp] theorem given_check {q : Prog ι ρ (Except ε β)} {ok : β → Prog ι ρ α}
    {err : ε → Prog ι ρ α} : (q.check ok err).given known =
      (q.given known).check (fun b => (ok b).given known) fun e => (err e).given known := by
  unfold check
  rw [given_bind]
  congr 1
  funext o
  cases o <;> rfl

@[simp] theorem given_done : (done : Prog ι ρ (Except ε Unit)).given known = done := rfl

@[simp] theorem given_andThen (s t : Prog ι ρ (Except ε Unit)) :
    (s.andThen t).given known = (s.given known).andThen (t.given known) := by
  unfold andThen
  rw [given_check]
  rfl

@[simp] theorem given_each (xs : List β) (step : β → Prog ι ρ (Except ε Unit)) :
    (each xs step).given known = each xs fun x => (step x).given known := by
  induction xs with
  | nil => rfl
  | cons x xs ih => rw [each_cons, each_cons, given_andThen, ih]

@[simp] theorem given_when (b : Bool) (s : Prog ι ρ (Except ε Unit)) :
    (when b s).given known = when b (s.given known) := by
  cases b <;> rfl

end Given

end Prog

/-! Systems that may answer a call in more than one way. -/

/-- A system ends a program at some calls, and gives one of several answers to the others. -/
structure System (ι ρ σ : Type*) where
  ends : ι → σ → Prop
  answers : ι → σ → ρ → σ → Prop

/-- The same system behind other calls. -/
def System.behind {κ σ : Type*} (sys : System κ ρ σ) (f : ι → κ) : System ι ρ σ :=
  ⟨fun c => sys.ends (f c), fun c => sys.answers (f c)⟩

namespace Prog

section Surely
variable {κ σ : Type*} {sys : System ι ρ σ} {post : α → σ → Prop} {s : σ}
  {p : Prog ι ρ α} {f : α → Prog ι ρ β} {known : ι → Option ρ} {bad : ι → Prop}

/-- Whatever the system answers, it does not end the program, which comes to return with `post`. -/
def Surely (sys : System ι ρ σ) (post : α → σ → Prop) : Prog ι ρ α → σ → Prop
  | ret a, s => post a s
  | call c next, s => ¬sys.ends c s ∧ ∀ o s', sys.answers c s o s' → (next o).Surely sys post s'

@[simp] theorem surely_ret (a : α) : (ret a : Prog ι ρ α).Surely sys post s ↔ post a s := Iff.rfl

@[simp] theorem surely_call (c : ι) (next : ρ → Prog ι ρ α) :
    (call c next).Surely sys post s ↔
      ¬sys.ends c s ∧ ∀ o s', sys.answers c s o s' → (next o).Surely sys post s' := Iff.rfl

theorem surely_bind {post : β → σ → Prop} : (p.bind f).Surely sys post s ↔
    p.Surely sys (fun a s' => (f a).Surely sys post s') s := by
  induction p generalizing s with
  | ret a => rfl
  | call c next ih => simp only [bind, surely_call, ih]

theorem Surely.mono {post' : α → σ → Prop} (h : p.Surely sys post s)
    (hpost : ∀ a s', post a s' → post' a s') : p.Surely sys post' s := by
  induction p generalizing s with
  | ret a => exact hpost a s h
  | call c next ih => exact ⟨h.1, fun o s' hs' => ih o (h.2 o s' hs')⟩

theorem surely_mapCall {sys : System κ ρ σ} {g : ι → κ} :
    (p.mapCall g).Surely sys post s ↔ p.Surely (sys.behind g) post s := by
  induction p generalizing s with
  | ret a => rfl
  | call c next ih =>
    simp only [mapCall, surely_call, ih]
    rfl

theorem surely_andThen {s t : Prog ι ρ (Except ε Unit)} {post : Except ε Unit → σ → Prop} {x : σ} :
    (s.andThen t).Surely sys post x ↔ s.Surely sys (fun r x' =>
      match r with
      | .ok _ => t.Surely sys post x'
      | .error e => post (.error e) x') x := by
  unfold andThen check
  rw [surely_bind]
  constructor
  · intro h
    refine h.mono fun r x' hr => ?_
    cases r <;> exact hr
  · intro h
    refine h.mono fun r x' hr => ?_
    cases r <;> exact hr

/-- Where the system has one answer only, the run on these answers is the only one. -/
theorem surely_of_run {perform : ι → σ → Option (ρ × σ)}
    (hperform : ∀ c s r, perform c s = some r →
      ¬sys.ends c s ∧ ∀ o s', sys.answers c s o s' ↔ (o, s') = r)
    {a : α} {s' : σ} (hrun : p.run perform s = some (a, s')) :
    p.Surely sys post s ↔ post a s' := by
  induction p generalizing s with
  | ret b =>
    cases hrun
    rfl
  | call c next ih =>
    obtain ⟨r, hr, hrest⟩ := Option.bind_eq_some_iff.1 hrun
    obtain ⟨hends, hanswers⟩ := hperform c s r hr
    rw [surely_call, and_iff_right hends, ← ih r.1 hrest]
    constructor
    · intro h
      exact h r.1 r.2 ((hanswers r.1 r.2).2 rfl)
    · intro h o s'' hs''
      cases (hanswers o s'').1 hs''
      exact h

/-- A system that gives the known answers, and ends the program at bad calls only, leaves a
program alone that makes none, and keeps what each of its answers keeps. -/
theorem surely_of_not_makes {inv : σ → Prop} (hends : ∀ c s, inv s → sys.ends c s → bad c)
    (hstep : ∀ c s o s', inv s → sys.answers c s o s' → inv s' ∧ ∀ o' ∈ known c, o = o')
    (hs : inv s) (h : ¬(p.given known).Makes bad) : p.Surely sys (fun _ s' => inv s') s := by
  induction p generalizing s with
  | ret a => exact hs
  | call c next ih =>
    rw [given_call, makes_call, not_or, not_exists] at h
    refine ⟨fun hend => h.1 (hends c s hs hend), fun o s' hs' => ?_⟩
    obtain ⟨hinv, hknown⟩ := hstep c s o s' hs hs'
    apply ih o hinv
    have hrest := h.2 o
    cases hc : known c with
    | none => rwa [hc] at hrest
    | some o' =>
      rw [hc, Option.getD_some] at hrest
      rwa [hknown o' hc]

/-- Where every answer is possible that is not known to be another, a program that is surely left
alone makes no bad call. -/
theorem not_makes_of_surely {inv : σ → Prop} (hends : ∀ c s, inv s → bad c → sys.ends c s)
    (hanswer : ∀ c s o, inv s → ¬bad c → (∀ o' ∈ known c, o = o') →
      ∃ s', sys.answers c s o s' ∧ inv s')
    (hs : inv s) (h : p.Surely sys post s) : ¬(p.given known).Makes bad := by
  induction p generalizing s with
  | ret a => exact makes_ret a
  | call c next ih =>
    have hgood : ¬bad c := fun hbad => h.1 (hends c s hs hbad)
    rw [given_call, makes_call, not_or, not_exists]
    refine ⟨hgood, fun o => ?_⟩
    have hpossible : ∀ o' ∈ known c, (known c).getD o = o' := by
      intro o' ho'
      rw [Option.mem_def.1 ho', Option.getD_some]
    obtain ⟨s', hs', hinv⟩ := hanswer c s _ hs hgood hpossible
    exact ih _ hinv (h.2 _ s' hs')

/-- A program that surely returns does return, with what the answers have kept. -/
theorem Surely.exists_return {inv : σ → Prop}
    (hanswer : ∀ c s, inv s → ∃ o s', sys.answers c s o s' ∧ inv s') (hs : inv s)
    (h : p.Surely sys post s) : ∃ a s', post a s' ∧ inv s' := by
  induction p generalizing s with
  | ret a => exact ⟨a, s, h, hs⟩
  | call c next ih =>
    obtain ⟨o, s', hs', hinv⟩ := hanswer c s hs
    exact ih o hinv (h.2 o s' hs')

end Surely

end Prog

end Calls
