import Mathlib.Data.Nat.Notation
import Mathlib.Logic.Relation

/-! Runs of an executable step function in which every step taken meets a side condition. -/
namespace Runs

variable {σ ε : Type*}

/-- The states reached from `s` by events that `step` accepts and that meet `ok` when taken. -/
inductive Reach (step : σ → ε → Option σ) (ok : σ → ε → Prop) (s : σ) : σ → Prop
  | refl : Reach step ok s s
  | tail {t u : σ} {e : ε} : Reach step ok s t → ok t e → step t e = some u → Reach step ok s u

/-- Run a list of events; `none` if one of them is not enabled. -/
def exec (step : σ → ε → Option σ) : σ → List ε → Option σ
  | s, [] => some s
  | s, e :: es => (step s e).bind fun t => exec step t es

/-- The step function restricted to the events that meet `ok`. -/
def guarded (step : σ → ε → Option σ) (ok : σ → ε → Prop) [∀ s e, Decidable (ok s e)] (s : σ)
    (e : ε) : Option σ :=
  if ok s e then step s e else none

variable {step : σ → ε → Option σ} {ok : σ → ε → Prop}

theorem Reach.invariant {inv : σ → Prop}
    (hstep : ∀ {t u : σ} {e : ε}, inv t → ok t e → step t e = some u → inv u) {s t : σ}
    (h : Reach step ok s t) (hs : inv s) : inv t := by
  induction h with
  | refl => exact hs
  | tail _ hok hnext ih => exact hstep ih hok hnext

theorem Reach.mono {ok' : σ → ε → Prop} (hok : ∀ s e, ok s e → ok' s e) {s t : σ}
    (h : Reach step ok s t) : Reach step ok' s t := by
  induction h with
  | refl => exact .refl
  | tail _ hevent hnext ih => exact ih.tail (hok _ _ hevent) hnext

/-- A run of a step function that takes no other steps than `step`, and only such that meet `ok`. -/
theorem Reach.exec {step' : σ → ε → Option σ}
    (hsub : ∀ {s t : σ} {e : ε}, step' s e = some t → ok s e ∧ step s e = some t) {r s t : σ}
    {es : List ε} (hr : Reach step ok r s) (h : exec step' s es = some t) : Reach step ok r t := by
  induction es generalizing s with
  | nil =>
    cases h
    exact hr
  | cons e es ih =>
    obtain ⟨u, hu, hrest⟩ := Option.bind_eq_some_iff.1 h
    obtain ⟨hok, hnext⟩ := hsub hu
    exact ih (hr.tail hok hnext) hrest

/-- Evaluating a run shows its last state reachable. -/
theorem exists_reach_of_exec (step : σ → ε → Option σ) (ok : σ → ε → Prop)
    [∀ s e, Decidable (ok s e)] (s : σ) (es : List ε) (check : σ → Bool)
    (h : (exec (guarded step ok) s es).any check) : ∃ t, Reach step ok s t ∧ check t := by
  have hsub : ∀ {s t : σ} {e : ε}, guarded step ok s e = some t → ok s e ∧ step s e = some t := by
    intro s t e hguarded
    unfold guarded at hguarded
    split at hguarded
    · rename_i hok
      exact ⟨hok, hguarded⟩
    · cases hguarded
  cases hexec : exec (guarded step ok) s es with
  | none => simp [hexec] at h
  | some t =>
    rw [hexec] at h
    exact ⟨t, Reach.refl.exec hsub hexec, h⟩

theorem Reach.of_exec {s t : σ} {es : List ε} (h : Runs.exec step s es = some t) :
    Reach step (fun _ _ => True) s t :=
  Reach.refl.exec (fun hstep => ⟨trivial, hstep⟩) h

/-! Runs as lists of events: what holds in every state of a run, and at every step of it. -/

/-- `inv` holds in every state that the run from `s` goes through. -/
def Always (step : σ → ε → Option σ) (inv : σ → Prop) : σ → List ε → Prop
  | s, [] => inv s
  | s, e :: es => inv s ∧ ∀ t, step s e = some t → Always step inv t es

/-- Every step that the run from `s` takes meets `ok`. -/
def Meets (step : σ → ε → Option σ) (ok : σ → ε → Prop) : σ → List ε → Prop
  | _, [] => True
  | s, e :: es => ∀ t, step s e = some t → ok s e ∧ Meets step ok t es

theorem Always.first {inv : σ → Prop} {s : σ} {es : List ε} (h : Always step inv s es) : inv s := by
  cases es with
  | nil => exact h
  | cons e es => exact h.1

theorem Always.last {inv : σ → Prop} {s t : σ} {es : List ε} (h : Always step inv s es)
    (hexec : exec step s es = some t) : inv t := by
  induction es generalizing s with
  | nil =>
    cases hexec
    exact h
  | cons e es ih =>
    obtain ⟨u, hu, hrest⟩ := Option.bind_eq_some_iff.1 hexec
    exact ih (h.2 u hu) hrest

/-- What holds of every step between two states that meet the invariant. -/
theorem Always.meets_between {inv : σ → Prop}
    (hok : ∀ {s t : σ} {e : ε}, inv s → inv t → step s e = some t → ok s e) {s : σ} {es : List ε}
    (h : Always step inv s es) : Meets step ok s es := by
  induction es generalizing s with
  | nil => trivial
  | cons e es ih => exact fun t ht => ⟨hok h.1 (h.2 t ht).first ht, ih (h.2 t ht)⟩

theorem Always.meets {inv : σ → Prop}
    (hok : ∀ {s t : σ} {e : ε}, inv s → step s e = some t → ok s e) {s : σ} {es : List ε}
    (h : Always step inv s es) : Meets step ok s es := by
  refine meets_between (fun hs _ ht => ?_) h
  exact hok hs ht

theorem meets_cons {s t : σ} {e : ε} {es : List ε} (hstep : step s e = some t) (hok : ok s e)
    (hrest : Meets step ok t es) : Meets step ok s (e :: es) := by
  intro u hu
  rw [hstep] at hu
  cases hu
  exact ⟨hok, hrest⟩

/-- Evaluating a run shows that its steps meet the condition. -/
theorem meets_of_exec_guarded [∀ s e, Decidable (ok s e)] {s : σ} {es : List ε}
    (h : (exec (guarded step ok) s es).isSome) : Meets step ok s es := by
  induction es generalizing s with
  | nil => trivial
  | cons e es ih =>
    obtain ⟨t, ht⟩ := Option.isSome_iff_exists.1 h
    obtain ⟨u, hu, hrest⟩ := Option.bind_eq_some_iff.1 ht
    unfold guarded at hu
    split at hu
    · rename_i hok
      exact meets_cons hu hok (ih (Option.isSome_of_eq_some hrest))
    · cases hu

/-- A condition on the events alone, where every event can be taken. -/
theorem meets_forall_iff {p : ε → Prop} (htotal : ∀ s e, (step s e).isSome) {s : σ} {es : List ε} :
    Meets step (fun _ e => p e) s es ↔ ∀ e ∈ es, p e := by
  induction es generalizing s with
  | nil => exact iff_of_true trivial (by simp)
  | cons e es ih =>
    obtain ⟨t, ht⟩ := Option.isSome_iff_exists.1 (htotal s e)
    rw [List.forall_mem_cons]
    constructor
    · intro h
      exact ⟨(h t ht).1, ih.1 (h t ht).2⟩
    · intro h
      exact meets_cons ht h.1 (ih.2 h.2)

/-- A run whose steps all meet what `J` needs stays in the states that meet `J`. -/
theorem always_of_meets {J inv : σ → Prop}
    (hJ : ∀ {s t : σ} {e : ε}, J s → ok s e → step s e = some t → J t) (hinv : ∀ s, J s → inv s)
    {s : σ} (hs : J s) {es : List ε} (h : Meets step ok s es) : Always step inv s es := by
  induction es generalizing s with
  | nil => exact hinv s hs
  | cons e es ih =>
    refine ⟨hinv s hs, fun t ht => ?_⟩
    obtain ⟨hok, hrest⟩ := h t ht
    exact ih (hJ hs hok ht) hrest

/-- What an invariant of every step implies holds in every state of a run. -/
theorem always_of_invariant {J inv : σ → Prop}
    (hJ : ∀ {s t : σ} {e : ε}, J s → step s e = some t → J t) (hinv : ∀ s, J s → inv s) {s : σ}
    (hs : J s) (es : List ε) : Always step inv s es := by
  induction es generalizing s with
  | nil => exact hinv s hs
  | cons e es ih => exact ⟨hinv s hs, fun t ht => ih (hJ hs ht)⟩

/-- If in the states that meet `J`, which the steps that meet `ok` keep, `ok` is exactly what a step
needs to keep `inv`, the runs on which `inv` always holds are those whose steps all meet `ok`. -/
theorem always_iff_meets_of_invariant {J inv : σ → Prop}
    (hJ : ∀ {s t : σ} {e : ε}, J s → inv s → ok s e → step s e = some t → J t)
    (hstep : ∀ {s t : σ} {e : ε}, J s → inv s → step s e = some t → (inv t ↔ ok s e)) {s : σ}
    (hJs : J s) (hs : inv s) (es : List ε) : Always step inv s es ↔ Meets step ok s es := by
  induction es generalizing s with
  | nil => exact ⟨fun _ => trivial, fun _ => hs⟩
  | cons e es ih =>
    constructor
    · intro h t ht
      have hinv : inv t := (h.2 t ht).first
      have hok : ok s e := (hstep hJs hs ht).1 hinv
      exact ⟨hok, (ih (hJ hJs hs hok ht) hinv).1 (h.2 t ht)⟩
    · intro h
      refine ⟨hs, fun t ht => ?_⟩
      obtain ⟨hok, hrest⟩ := h t ht
      exact (ih (hJ hJs hs hok ht) ((hstep hJs hs ht).2 hok)).2 hrest

/-- If `ok` is exactly what a step needs to keep `inv`, the runs on which `inv` always holds are
those whose steps all meet `ok`. -/
theorem always_iff_meets {inv : σ → Prop}
    (hstep : ∀ {s t : σ} {e : ε}, inv s → step s e = some t → (inv t ↔ ok s e)) {s : σ}
    (hs : inv s) (es : List ε) : Always step inv s es ↔ Meets step ok s es := by
  have hkeep : ∀ {s t : σ} {e : ε}, True → inv s → ok s e → step s e = some t → True :=
    fun _ _ _ _ => trivial
  exact always_iff_meets_of_invariant hkeep (fun _ => hstep) trivial hs es

/-- Every transition that the run makes is one that `law` allows. -/
def Obeys (step : σ → ε → Option σ) (law : σ → ε → σ → Prop) : σ → List ε → Prop
  | _, [] => True
  | s, e :: es => ∀ t, step s e = some t → law s e t ∧ Obeys step law t es

/-- If in the states that meet `J`, which lawful steps keep, `ok` is exactly what makes a step
lawful, the runs that obey the law are those whose steps all meet `ok`. -/
theorem obeys_iff_meets {law : σ → ε → σ → Prop} {J : σ → Prop}
    (hJ : ∀ {s t : σ} {e : ε}, J s → step s e = some t → law s e t → J t)
    (hstep : ∀ {s t : σ} {e : ε}, J s → step s e = some t → (law s e t ↔ ok s e)) {s : σ}
    (hs : J s) (es : List ε) : Obeys step law s es ↔ Meets step ok s es := by
  induction es generalizing s with
  | nil => exact Iff.rfl
  | cons e es ih =>
    refine forall_congr' fun t => forall_congr' fun ht => ?_
    constructor
    · intro h
      exact ⟨(hstep hs ht).1 h.1, (ih (hJ hs ht h.1)).1 h.2⟩
    · intro h
      have hlaw := (hstep hs ht).2 h.1
      exact ⟨hlaw, (ih (hJ hs ht hlaw)).2 h.2⟩

/-- A run that can be taken, but not with every step meeting the condition. -/
theorem not_meets_of_exec [∀ s e, Decidable (ok s e)] {s : σ} {es : List ε}
    (h : (exec step s es).isSome) (hnone : exec (guarded step ok) s es = none) :
    ¬Meets step ok s es := by
  intro hmeets
  induction es generalizing s with
  | nil => cases hnone
  | cons e es ih =>
    obtain ⟨t, ht⟩ := Option.isSome_iff_exists.1 h
    obtain ⟨u, hu, hrest⟩ := Option.bind_eq_some_iff.1 ht
    obtain ⟨hok, hmeets⟩ := hmeets u hu
    have hguarded : guarded step ok s e = some u := (if_pos hok).trans hu
    rw [exec, hguarded] at hnone
    exact ih (Option.isSome_of_eq_some hrest) hnone hmeets

theorem not_obeys_of_exec [∀ s e, Decidable (ok s e)] {law : σ → ε → σ → Prop} {J : σ → Prop}
    (hJ : ∀ {s t : σ} {e : ε}, J s → step s e = some t → law s e t → J t)
    (hstep : ∀ {s t : σ} {e : ε}, J s → step s e = some t → (law s e t ↔ ok s e)) {s : σ}
    (hs : J s) {es : List ε} (h : (exec step s es).isSome)
    (hnone : exec (guarded step ok) s es = none) : ¬Obeys step law s es := by
  rw [obeys_iff_meets hJ hstep hs]
  exact not_meets_of_exec h hnone

theorem exec_invariant {inv : σ → Prop}
    (hstep : ∀ {s t : σ} {e : ε}, inv s → step s e = some t → inv t) {s t : σ} {es : List ε}
    (hs : inv s) (h : exec step s es = some t) : inv t := by
  induction es generalizing s with
  | nil =>
    cases h
    exact hs
  | cons e es ih =>
    obtain ⟨u, hu, hrest⟩ := Option.bind_eq_some_iff.1 h
    exact ih (hstep hs hu) hrest

/-! Infinite runs. -/

/-- A run without end; it may pause (`none`), so that a finite run is one that pauses for ever. -/
structure Trace (step : σ → ε → Option σ) (s : σ) where
  state : ℕ → σ
  event : ℕ → Option ε
  start : state 0 = s
  next : ∀ n, (event n).elim (some (state n)) (step (state n)) = some (state (n + 1))

theorem exec_append (s : σ) (es es' : List ε) :
    exec step s (es ++ es') = (exec step s es).bind fun t => exec step t es' := by
  induction es generalizing s with
  | nil => rfl
  | cons e es ih =>
    simp only [List.cons_append, exec, Option.bind_assoc]
    exact Option.bind_congr fun t _ => ih t

theorem exec_take {s : σ} {es : List ε} (h : (exec step s es).isSome) (n : ℕ) :
    ∃ t, exec step s (es.take n) = some t := by
  rw [← List.take_append_drop n es, exec_append] at h
  exact Option.isSome_iff_exists.1 (Option.isSome_of_isSome_bind h)

/-- The step that the `n`-th event of a run makes. -/
theorem exec_take_succ {s : σ} {es : List ε} (h : (exec step s es).isSome) {n : ℕ} {e : ε}
    (he : es[n]? = some e) :
    ∃ t u, exec step s (es.take n) = some t ∧ exec step s (es.take (n + 1)) = some u ∧
      step t e = some u := by
  obtain ⟨t, ht⟩ := exec_take h n
  obtain ⟨u, hu⟩ := exec_take h (n + 1)
  have hsucc : exec step s (es.take (n + 1)) = step t e := by
    rw [List.take_add_one, he, exec_append, ht]
    simp [exec]
  exact ⟨t, u, ht, hu, hsucc.symm.trans hu⟩

namespace Trace

/-- A run that can be executed is a trace. -/
def ofExec (s : σ) (es : List ε) (h : (exec step s es).isSome) : Trace step s where
  state n := (exec step s (es.take n)).getD s
  event n := es[n]?
  start := rfl
  next n := by
    cases he : es[n]? with
    | none =>
      have hlen : es.length ≤ n := List.getElem?_eq_none_iff.1 he
      rw [List.take_of_length_le hlen, List.take_of_length_le (Nat.le_succ_of_le hlen)]
      rfl
    | some e =>
      obtain ⟨t, u, ht, hu, hstep⟩ := exec_take_succ h he
      rw [ht, hu]
      exact hstep

/-- The events of a list, and then another run. -/
def after {s t : σ} (es : List ε) (h : exec step s es = some t) (run : Trace step t) :
    Trace step s where
  state n := if n < es.length then (exec step s (es.take n)).getD s else run.state (n - es.length)
  event n := if n < es.length then es[n]? else run.event (n - es.length)
  start := by
    cases es with
    | nil =>
      cases h
      exact run.start
    | cons e es => rfl
  next n := by
    have hsome : (exec step s es).isSome := by rw [h]; rfl
    by_cases hn : n < es.length
    · obtain ⟨u, v, hu, hv, hstep⟩ := exec_take_succ hsome (List.getElem?_eq_getElem hn)
      have hnext : (if n + 1 < es.length then (exec step s (es.take (n + 1))).getD s
          else run.state (n + 1 - es.length)) = v := by
        split
        · rw [hv]
          rfl
        · have hlen : es.length = n + 1 := by omega
          rw [← hlen, List.take_length, h] at hv
          cases hv
          rw [hlen, Nat.sub_self, run.start]
      rw [hnext, if_pos hn, if_pos hn, List.getElem?_eq_getElem hn, hu]
      exact hstep
    · have hsub : n + 1 - es.length = n - es.length + 1 := by omega
      have hn' : ¬n + 1 < es.length := by omega
      rw [if_neg hn, if_neg hn, if_neg hn', hsub]
      exact run.next (n - es.length)

/-- The same events over and over, from a state to which they lead back. -/
def cycle {s : σ} (es : List ε) (hne : es ≠ []) (h : exec step s es = some s) : Trace step s where
  state n := (exec step s (es.take (n % es.length))).getD s
  event n := es[n % es.length]?
  start := by
    rw [Nat.zero_mod]
    rfl
  next n := by
    have hsome : (exec step s es).isSome := by rw [h]; rfl
    have hlt : n % es.length < es.length := Nat.mod_lt n (List.length_pos_iff.2 hne)
    obtain ⟨t, u, ht, hu, hstep⟩ := exec_take_succ hsome (List.getElem?_eq_getElem hlt)
    have hnext : (exec step s (es.take ((n + 1) % es.length))).getD s = u := by
      rw [← Nat.mod_add_mod]
      by_cases hlast : n % es.length + 1 = es.length
      · rw [hlast, List.take_length, h] at hu
        cases hu
        rw [hlast, Nat.mod_self]
        rfl
      · have hlt' : n % es.length + 1 < es.length := by omega
        rw [Nat.mod_eq_of_lt hlt', hu]
        rfl
    rw [hnext, List.getElem?_eq_getElem hlt, ht]
    exact hstep

theorem event_after_of_lt {s t : σ} {es : List ε} (h : exec step s es = some t) (run : Trace step t)
    {n : ℕ} (hn : n < es.length) : (after es h run).event n = es[n]? :=
  if_pos hn

theorem state_after_of_lt {s t u : σ} {es : List ε} (h : exec step s es = some t)
    (run : Trace step t) {n : ℕ} (hn : n < es.length) (hu : exec step s (es.take n) = some u) :
    (after es h run).state n = u := by
  refine (if_pos hn).trans ?_
  rw [hu]
  rfl

theorem event_after_of_le {s t : σ} {es : List ε} (h : exec step s es = some t) (run : Trace step t)
    {n : ℕ} (hn : es.length ≤ n) : (after es h run).event n = run.event (n - es.length) :=
  if_neg (Nat.not_lt.2 hn)

theorem mem_of_event_cycle {s : σ} {es : List ε} {hne : es ≠ []} {h : exec step s es = some s}
    {n : ℕ} {e : ε} (he : (cycle es hne h).event n = some e) : e ∈ es :=
  List.mem_of_getElem? he

/-- What every event from step `n` on keeps holds from there on if it holds there. -/
theorem invariant_from {s : σ} (run : Trace step s) {P : σ → Prop} {n : ℕ} (hn : P (run.state n))
    (hstep : ∀ m e, n ≤ m → run.event m = some e →
      step (run.state m) e = some (run.state (m + 1)) → P (run.state m) → P (run.state (m + 1)))
    {m : ℕ} (hm : n ≤ m) : P (run.state m) := by
  induction hm with
  | refl => exact hn
  | @step m hm ih =>
    have hnext := run.next m
    cases he : run.event m with
    | none =>
      rw [he] at hnext
      rwa [← Option.some.inj hnext]
    | some e =>
      rw [he] at hnext
      exact hstep m e hm he hnext ih

section Fair
variable {α : Type*} (actor : ε → Option α)

/-- Weak fairness: whoever could always act from some point on acts again. -/
def Fair {s : σ} (run : Trace step s) : Prop :=
  ∀ a n, (∀ m, n ≤ m → ∃ e, actor e = some a ∧ (step (run.state m) e).isSome) →
    ∃ m e, n ≤ m ∧ run.event m = some e ∧ actor e = some a

variable {actor}

/-- What came before does not matter. -/
theorem Fair.after {s t : σ} {run : Trace step t} (hfair : run.Fair actor) {es : List ε}
    (h : exec step s es = some t) : (after es h run).Fair actor := by
  have hge : ∀ m, ¬m + es.length < es.length := fun m => by omega
  intro a n henabled
  have hrun : ∀ m, n ≤ m → ∃ e, actor e = some a ∧ (step (run.state m) e).isSome := by
    intro m hm
    have hstate : (Trace.after es h run).state (m + es.length) = run.state m := by
      unfold Trace.after
      dsimp only
      rw [if_neg (hge m), Nat.add_sub_cancel]
    rw [← hstate]
    exact henabled _ (Nat.le_add_right_of_le hm)
  obtain ⟨m, e, hm, hevent, hactor⟩ := hfair a n hrun
  refine ⟨m + es.length, e, Nat.le_add_right_of_le hm, ?_, hactor⟩
  unfold Trace.after
  dsimp only
  rw [if_neg (hge m), Nat.add_sub_cancel, hevent]

/-- A measure that no step lowers and every act of `a` raises passes `k`, if `a` can act as long as
it has not. -/
theorem Fair.exceeds {s : σ} {run : Trace step s} (hfair : run.Fair actor) {a : α} {f : σ → ℕ}
    (hmono : ∀ {t u : σ} {e : ε}, step t e = some u → f t ≤ f u)
    (hraise : ∀ {t u : σ} {e : ε}, actor e = some a → step t e = some u → f t < f u) {n k : ℕ}
    (henabled : ∀ m, n ≤ m → f (run.state m) ≤ k →
      ∃ e, actor e = some a ∧ (step (run.state m) e).isSome) :
    ∃ m, n ≤ m ∧ k < f (run.state m) := by
  by_cases hpassed : ∃ m, n ≤ m ∧ k < f (run.state m)
  · exact hpassed
  · have hbelow : ∀ m, n ≤ m → f (run.state m) ≤ k := by
      intro m hm
      exact Nat.le_of_not_lt fun hlt => hpassed ⟨m, hm, hlt⟩
    -- `a` can always act, so the measure grows without end
    have hgrows : ∀ j, ∃ m, n ≤ m ∧ j ≤ f (run.state m) := by
      intro j
      induction j with
      | zero => exact ⟨n, Nat.le_refl n, Nat.zero_le _⟩
      | succ j ih =>
        obtain ⟨m, hm, hj⟩ := ih
        obtain ⟨m', e, hm', hevent, hactor⟩ := hfair a m fun l hl =>
          henabled l (Nat.le_trans hm hl) (hbelow l (Nat.le_trans hm hl))
        have hj' : j ≤ f (run.state m') :=
          run.invariant_from (P := fun t => j ≤ f t) hj
            (fun _ _ _ _ hstep hle => Nat.le_trans hle (hmono hstep)) hm'
        have hnext := run.next m'
        rw [hevent] at hnext
        have hlt : f (run.state m') < f (run.state (m' + 1)) := hraise hactor hnext
        exact ⟨m' + 1, by omega, by omega⟩
    obtain ⟨m, hm, hlt⟩ := hgrows (k + 1)
    exact ⟨m, hm, hlt⟩

/-- A run that stops where nobody can act. -/
theorem fair_ofExec {s t : σ} {es : List ε} (h : (exec step s es).isSome)
    (ht : exec step s es = some t) (hidle : ∀ a e, actor e = some a → step t e = none) :
    (ofExec s es h).Fair actor := by
  intro a n henabled
  obtain ⟨e, hactor, hstep⟩ := henabled (n + es.length) (Nat.le_add_right n es.length)
  have hstate : (ofExec s es h).state (n + es.length) = t := by
    show (exec step s (es.take (n + es.length))).getD s = t
    rw [List.take_of_length_le (Nat.le_add_left es.length n), ht]
    rfl
  rw [hstate, hidle a e hactor] at hstep
  cases hstep

/-- A cycle is fair to those who act in it, and to those who cannot act at some point of it. -/
theorem fair_cycle {s : σ} {es : List ε} (hne : es ≠ []) (h : exec step s es = some s)
    (hfair : ∀ a, (∀ r t, r < es.length → exec step s (es.take r) = some t →
      ∃ e, actor e = some a ∧ (step t e).isSome) → ∃ e ∈ es, actor e = some a) :
    (cycle es hne h).Fair actor := by
  have hpos : 0 < es.length := List.length_pos_iff.2 hne
  have hmod : ∀ n r, r < es.length → (n * es.length + r) % es.length = r := by
    intro n r hr
    rw [Nat.mul_add_mod_self_right, Nat.mod_eq_of_lt hr]
  have hle : ∀ n r, n ≤ n * es.length + r := by
    intro n r
    exact Nat.le_add_right_of_le (Nat.le_mul_of_pos_right n hpos)
  intro a n henabled
  obtain ⟨e, hmem, hactor⟩ := hfair a fun r t hr ht => by
    have hstate : (cycle es hne h).state (n * es.length + r) = t := by
      unfold cycle
      dsimp only
      rw [hmod n r hr, ht]
      rfl
    rw [← hstate]
    exact henabled _ (hle n r)
  obtain ⟨r, hr, rfl⟩ := List.mem_iff_getElem.1 hmem
  refine ⟨n * es.length + r, es[r], hle n r, ?_, hactor⟩
  unfold cycle
  dsimp only
  rw [hmod n r hr, List.getElem?_eq_getElem hr]

end Fair

end Trace

end Runs
