import Mathlib.Logic.Basic

/-! Computations that change a state and may fail, and the rules for what holds of them when they
come through and when they fail. -/
namespace Effects

/-- The state is kept when a computation fails. -/
abbrev Eff (σ ε α : Type) := ExceptT ε (StateM σ) α

variable {σ ε ε' α β : Type}

def outcome (x : Eff σ ε α) (s : σ) : Except ε α × σ := StateT.run (ExceptT.run x) s

/-- A result that is there already. -/
def answer : Except ε α → Eff σ ε α
  | .ok a => pure a
  | .error e => throw e

/-- `Result::map_err`. -/
def mapErr (f : ε → ε) (x : Eff σ ε α) : Eff σ ε α := tryCatch x fun e => throw (f e)

/-- `Result::is_ok`. -/
def succeeds (x : Eff σ ε α) : Eff σ ε Bool :=
  tryCatch (do let _ ← x; return true) fun _ => return false

/-- `Result::ok`, with the value thrown away. -/
def ignore (x : Eff σ ε α) : Eff σ ε Unit := do let _ ← succeeds x

/-- What is to hold of an outcome. -/
def Post (Q : α → σ → Prop) (E : ε → σ → Prop) : Except ε α × σ → Prop
  | (.ok a, t) => Q a t
  | (.error e, t) => E e t

/-- From a state that meets `P` the computation comes through with `Q` or fails with `E`. -/
def Triple (P : σ → Prop) (x : Eff σ ε α) (Q : α → σ → Prop) (E : ε → σ → Prop) : Prop :=
  ∀ s, P s → Post Q E (outcome x s)

variable {P P' : σ → Prop} {x : Eff σ ε α} {f : α → Eff σ ε β} {Q Q' : α → σ → Prop}
  {R : β → σ → Prop} {E E' : ε → σ → Prop} {s t : σ} {a : α}

theorem Triple.ok (h : Triple P x Q E) (hs : P s) (hx : outcome x s = (.ok a, t)) : Q a t := by
  have hpost := h s hs
  rwa [hx] at hpost

theorem Triple.error {e : ε} (h : Triple P x Q E) (hs : P s) (hx : outcome x s = (.error e, t)) :
    E e t := by
  have hpost := h s hs
  rwa [hx] at hpost

theorem triple_true (x : Eff σ ε α) : Triple P x (fun _ _ => True) fun _ _ => True := by
  intro s _
  cases hout : outcome x s with
  | mk r t => cases r <;> trivial

theorem triple_pure (h : ∀ s, P s → Q a s) : Triple P (pure a : Eff σ ε α) Q E := h

theorem triple_throw {e : ε} (h : ∀ s, P s → E e s) : Triple P (throw e : Eff σ ε α) Q E := h

theorem triple_get {Q : σ → σ → Prop} (h : ∀ s, P s → Q s s) :
    Triple P (get : Eff σ ε σ) Q E := h

theorem triple_modify {g : σ → σ} {Q : PUnit → σ → Prop} (h : ∀ s, P s → Q .unit (g s)) :
    Triple P (modify g : Eff σ ε PUnit) Q E := h

theorem triple_answer {r : Except ε α} (hok : ∀ a s, P s → r = .ok a → Q a s)
    (herr : ∀ e s, P s → r = .error e → E e s) : Triple P (answer r) Q E := by
  cases r with
  | ok a => exact triple_pure fun s hs => hok a s hs rfl
  | error e => exact triple_throw fun s hs => herr e s hs rfl

theorem triple_answer_ok {r : Except ε α} (h : r = .ok a) :
    Triple P (answer r) (fun _ => P) E := by
  rw [h]
  exact triple_pure fun s hs => hs

theorem Triple.mono (h : Triple P x Q E) (hP : ∀ s, P' s → P s) (hQ : ∀ a s, Q a s → Q' a s)
    (hE : ∀ e s, E e s → E' e s) : Triple P' x Q' E' := by
  intro s hs
  have hpost := h s (hP s hs)
  cases hout : outcome x s with
  | mk r t =>
    rw [hout] at hpost
    cases r with
    | ok a => exact hQ a t hpost
    | error e => exact hE e t hpost

theorem Triple.and (h : Triple P x Q E) (h' : Triple P' x Q' E') (hP : ∀ s, P s → P' s) :
    Triple P x (fun a s => Q a s ∧ Q' a s) fun e s => E e s ∧ E' e s := by
  intro s hs
  have hpost := h s hs
  have hpost' := h' s (hP s hs)
  cases hout : outcome x s with
  | mk r t =>
    rw [hout] at hpost hpost'
    cases r <;> exact ⟨hpost, hpost'⟩

theorem outcome_bind_ok (h : outcome x s = (.ok a, t)) :
    outcome (x >>= f) s = outcome (f a) t := by
  unfold outcome at h ⊢
  rw [ExceptT.run_bind, StateT.run_bind, h]
  rfl

theorem outcome_bind_error {e : ε} (h : outcome x s = (.error e, t)) :
    outcome (x >>= f) s = (.error e, t) := by
  unfold outcome at h ⊢
  rw [ExceptT.run_bind, StateT.run_bind, h]
  rfl

theorem outcome_tryCatch_ok {g : ε → Eff σ ε α} (h : outcome x s = (.ok a, t)) :
    outcome (tryCatch x g) s = (.ok a, t) := by
  unfold outcome at h ⊢
  rw [ExceptT.run_tryCatch, StateT.run_bind, h]
  rfl

theorem outcome_tryCatch_error {g : ε → Eff σ ε α} {e : ε} (h : outcome x s = (.error e, t)) :
    outcome (tryCatch x g) s = outcome (g e) t := by
  unfold outcome at h ⊢
  rw [ExceptT.run_tryCatch, StateT.run_bind, h]
  rfl

theorem triple_bind (hx : Triple P x Q E) (hf : ∀ a, Triple (Q a) (f a) R E) :
    Triple P (x >>= f) R E := by
  intro s hs
  have hpost := hx s hs
  cases hout : outcome x s with
  | mk r t =>
    rw [hout] at hpost
    cases r with
    | ok a =>
      rw [outcome_bind_ok hout]
      exact hf a t hpost
    | error e =>
      rw [outcome_bind_error hout]
      exact hpost

theorem triple_assume {p : Prop} (h : p → Triple P x Q E) : Triple (fun s => p ∧ P s) x Q E :=
  fun s hs => h hs.1 s hs.2

theorem triple_ite {c : Prop} [Decidable c] {y : Eff σ ε α} (hx : c → Triple P x Q E)
    (hy : ¬c → Triple P y Q E) : Triple P (if c then x else y) Q E := by
  by_cases hc : c
  · rw [if_pos hc]
    exact hx hc
  · rw [if_neg hc]
    exact hy hc

theorem triple_tryCatch {g : ε → Eff σ ε α} (hx : Triple P x Q E)
    (hg : ∀ e, Triple (E e) (g e) Q E') : Triple P (tryCatch x g) Q E' := by
  intro s hs
  have hpost := hx s hs
  cases hout : outcome x s with
  | mk r t =>
    rw [hout] at hpost
    cases r with
    | ok a =>
      rw [outcome_tryCatch_ok hout]
      exact hpost
    | error e =>
      rw [outcome_tryCatch_error hout]
      exact hg e t hpost

theorem triple_mapErr {g : ε → ε} (hx : Triple P x Q E) (hg : ∀ e s, E e s → E' (g e) s) :
    Triple P (mapErr g x) Q E' :=
  triple_tryCatch hx fun e => triple_throw fun s => hg e s

theorem triple_mapErr_never {g : ε → ε} (hx : Triple P x Q fun _ _ => False) :
    Triple P (mapErr g x) Q E' :=
  triple_mapErr hx fun _ _ hf => hf.elim

/-- What is to be known after a call whose result is looked at but not passed on. -/
theorem triple_succeeds {S : Bool → σ → Prop} (hx : Triple P x (fun _ => S true) fun _ => S false) :
    Triple P (succeeds x) S E' := by
  refine triple_tryCatch (triple_bind hx fun _ => triple_pure fun s hs => hs) fun _ => ?_
  exact triple_pure fun s hs => hs

theorem triple_ignore {P' : σ → Prop} (hx : Triple P x (fun _ => P') fun _ => P') :
    Triple P (ignore x) (fun _ => P') E' :=
  triple_bind (triple_succeeds (S := fun _ => P') hx) fun _ => triple_pure fun _ hs => hs

/-! Computations of which it is known beforehand whether they come through. -/

/-- From `P` the computation comes through just if `b` holds, and leaves `J` either way. -/
def Decided (P : σ → Prop) (x : Eff σ ε α) (b : Bool) (J : σ → Prop) : Prop :=
  Triple P x (fun _ s => b = true ∧ J s) fun _ s => b = false ∧ J s

section Decided
variable {b : Bool} {J J' : σ → Prop}

theorem decided_pure (h : ∀ s, P s → J s) : Decided P (pure a : Eff σ ε α) true J :=
  triple_pure fun s hs => ⟨rfl, h s hs⟩

theorem decided_throw {e : ε} (h : ∀ s, P s → J s) : Decided P (throw e : Eff σ ε α) false J :=
  triple_throw fun s hs => ⟨rfl, h s hs⟩

theorem decided_answer {r : Except ε α} (h : ∀ s, P s → J s) : Decided P (answer r) r.isOk J := by
  cases r with
  | ok a => exact decided_pure h
  | error e => exact decided_throw h

theorem Decided.mono (h : Decided P x b J) (hJ : ∀ s, J s → J' s) : Decided P x b J' :=
  Triple.mono h (fun _ hs => hs) (fun _ s hs => ⟨hs.1, hJ s hs.2⟩) fun _ s hs => ⟨hs.1, hJ s hs.2⟩

theorem Decided.mapErr {g : ε → ε} (h : Decided P x b J) : Decided P (mapErr g x) b J :=
  triple_mapErr h fun _ _ hs => hs

theorem Decided.ignore (h : Decided P x b J) : Triple P (ignore x) (fun _ => J) E' :=
  triple_ignore (Triple.mono h (fun _ hs => hs) (fun _ _ hs => hs.2) fun _ _ hs => hs.2)

theorem Decided.bind (h : Decided P x b J) (hok : b = true → ∀ a, Triple J (f a) R E)
    (herr : b = false → ∀ e s, J s → E e s) : Triple P (x >>= f) R E := by
  have hx : Triple P x (fun _ s => b = true ∧ J s) E :=
    Triple.mono h (fun _ hs => hs) (fun _ _ hs => hs) fun e s hs => herr hs.1 e s hs.2
  exact triple_bind hx fun a => triple_assume fun hb => hok hb a

theorem Decided.bind_decided {b' : Bool} (h : Decided P x b J)
    (hf : b = true → ∀ a, Decided J (f a) b' J') (hJ : b = false → ∀ s, J s → J' s) :
    Decided P (x >>= f) (b && b') J' := by
  refine h.bind (fun hb a => ?_) fun hb e s hs => ?_
  · rw [hb]
    exact hf hb a
  · rw [hb]
    exact ⟨rfl, hJ hb s hs⟩

end Decided

end Effects
