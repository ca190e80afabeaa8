import Mathlib.Data.List.Induction
import Mathlib.Data.List.TakeWhile
import Mathlib.Data.Nat.Notation

/-! Events with the instants at which they happen, and a timer that is looked at by some of them: it
starts when the system is found quiet, and acts when it has run for long enough. -/
namespace Timeline

structure Stamped (α : Type*) where
  time : ℕ
  what : α

variable {σ α : Type*}

def Ordered (es : List (Stamped α)) : Prop := es.Pairwise fun a b => a.time ≤ b.time

instance (es : List (Stamped α)) : Decidable (Ordered es) :=
  inferInstanceAs (Decidable (es.Pairwise _))

section Run
variable {step : σ → Stamped α → σ} {s : σ} {es rest : List (Stamped α)} {u : ℕ}

def run (step : σ → Stamped α → σ) (s : σ) (es : List (Stamped α)) : σ := es.foldl step s

/-- The state in force at an instant, after all that has happened by then. -/
def stateAt (step : σ → Stamped α → σ) (s : σ) (es : List (Stamped α)) (u : ℕ) : σ :=
  run step s (es.takeWhile (·.time ≤ u))

theorem run_append : run step s (es ++ rest) = run step (run step s es) rest := List.foldl_append

theorem run_concat (e : Stamped α) : run step s (es ++ [e]) = step (run step s es) e := run_append

theorem stateAt_of_le (h : ∀ e ∈ es, e.time ≤ u) : stateAt step s es u = run step s es := by
  have htake : es.takeWhile (·.time ≤ u) = es := by
    rw [List.takeWhile_eq_self_iff]
    exact fun e he => decide_eq_true (h e he)
  rw [stateAt, htake]

/-- What happens later is of no concern. -/
theorem stateAt_append (h : ∀ e ∈ rest, u < e.time) :
    stateAt step s (es ++ rest) u = stateAt step s es u := by
  have hrest : rest.takeWhile (·.time ≤ u) = [] := by
    cases rest with
    | nil => rfl
    | cons e rest =>
      have hlt : u < e.time := h e (List.mem_cons_self ..)
      rw [List.takeWhile_cons, if_neg (by simp [hlt])]
  unfold stateAt
  rw [List.takeWhile_append]
  split
  · rename_i hall
    have htake : es.takeWhile (·.time ≤ u) = es :=
      (List.takeWhile_prefix _).eq_of_length hall
    rw [hrest, List.append_nil, htake]
  · rfl

end Run

/-- A system with a timer. Some events look at it: they start the timer, or let it run on, when they
find the system quiet, and stop it otherwise and when it has run for `span`. -/
structure Watched (σ α : Type*) where
  step : σ → Stamped α → σ
  looks : α → Bool
  quiet : σ → Prop
  since : σ → Option ℕ
  span : ℕ
  span_pos : 0 < span
  since_of_not_looks : ∀ s e, looks e.what = false → since (step s e) = since s
  since_of_looks : ∀ s e p, looks e.what = true → since (step s e) = some p →
    quiet s ∧ p = (since s).getD e.time ∧ e.time < p + span

namespace Watched
variable (w : Watched σ α)

/-- A look at `t` finds that the timer has run for long enough. -/
def Fires (s : σ) (t : ℕ) : Prop := w.quiet s ∧ (w.since s).getD t + w.span ≤ t

/-- The instant of the last look. -/
def lastLook (es : List (Stamped α)) : Option ℕ :=
  ((es.filter fun e => w.looks e.what).getLast?).map (·.time)

/-- The look `e` sees what it has to: if it finds the system quiet and the timer running, the system
has been quiet since the look before. What is older than `span` need not be seen. -/
def Sees (s : σ) (before : List (Stamped α)) (e : Stamped α) : Prop :=
  w.since (run w.step s before) ≠ none → w.quiet (run w.step s before) →
    ∀ q ∈ w.lastLook before, ∀ u, q ≤ u → e.time ≤ u + w.span → u < e.time →
      w.quiet (stateAt w.step s before u)

/-- `P` holds of each look, given what has happened before. -/
def AtLooks (es : List (Stamped α)) (P : List (Stamped α) → Stamped α → Prop) : Prop :=
  ∀ before e after, es = before ++ e :: after → w.looks e.what = true → P before e

def AllSeen (s : σ) (es : List (Stamped α)) : Prop := w.AtLooks es (w.Sees s)

/-- The timer fires after the system has been quiet for `span` only. -/
def Lawful (s : σ) (es : List (Stamped α)) : Prop :=
  w.AtLooks es fun before e => w.Fires (run w.step s before) e.time →
    ∀ u, e.time ≤ u + w.span → u < e.time → w.quiet (stateAt w.step s es u)

/-- Where the timer fires twice, `span` lies between. -/
def Spaced (s : σ) (es : List (Stamped α)) : Prop :=
  w.AtLooks es fun before b => w.Fires (run w.step s before) b.time →
    w.AtLooks before fun earlier a => w.Fires (run w.step s earlier) a.time →
      a.time + w.span ≤ b.time

variable {w} {s : σ} {es : List (Stamped α)} {e : Stamped α}

theorem atLooks_append {P : List (Stamped α) → Stamped α → Prop} {rest : List (Stamped α)}
    (h : w.AtLooks (es ++ rest) P) : w.AtLooks es P := by
  intro before e' after heq
  exact h before e' (after ++ rest) (by rw [heq, List.append_assoc, List.cons_append])

theorem atLooks_concat {P : List (Stamped α) → Stamped α → Prop} (h : w.AtLooks es P)
    (he : w.looks e.what = true → P es e) : w.AtLooks (es ++ [e]) P := by
  intro before e' after heq hlooks
  rcases List.eq_nil_or_concat after with rfl | ⟨after, a, rfl⟩
  · obtain ⟨rfl, hsingle⟩ := List.append_inj' heq rfl
    cases hsingle
    exact he hlooks
  · rw [List.concat_eq_append, ← List.cons_append, ← List.append_assoc] at heq
    exact h before e' after (List.append_inj' heq rfl).1 hlooks

theorem lastLook_concat :
    w.lastLook (es ++ [e]) = if w.looks e.what then some e.time else w.lastLook es := by
  cases hlooks : w.looks e.what <;> simp [lastLook, List.filter_append, hlooks]

theorem lastLook_le (hord : Ordered (es ++ [e])) {q : ℕ} (hq : w.lastLook es = some q) :
    q ≤ e.time := by
  obtain ⟨a, ha, rfl⟩ := Option.map_eq_some_iff.1 hq
  have hmem : a ∈ es := (List.mem_filter.1 (List.mem_of_getLast? ha)).1
  exact (List.pairwise_append.1 hord).2.2 a hmem e (List.mem_singleton_self e)

/-- While the timer runs, the system has been quiet since it was started, up to the last look. -/
theorem quiet_since (hs : w.since s = none) (hord : Ordered es) (hseen : w.AllSeen s es) {p : ℕ}
    (hp : w.since (run w.step s es) = some p) :
    ∃ q, w.lastLook es = some q ∧ ∀ u, p ≤ u → q ≤ u + w.span → u < q →
      w.quiet (stateAt w.step s es u) := by
  induction es using List.reverseRecOn generalizing p with
  | nil =>
    rw [show run w.step s [] = s from rfl, hs] at hp
    cases hp
  | append_singleton es e ih =>
    have hord' : Ordered es := (List.pairwise_append.1 hord).1
    have ih := @ih hord' (atLooks_append hseen)
    have hstate : ∀ u, u < e.time → stateAt w.step s (es ++ [e]) u = stateAt w.step s es u := by
      intro u hu
      apply stateAt_append
      simpa using hu
    rw [run_concat] at hp
    cases hlooks : w.looks e.what with
    | false =>
      rw [w.since_of_not_looks _ _ hlooks] at hp
      obtain ⟨q, hq, hquiet⟩ := ih hp
      have hle : q ≤ e.time := lastLook_le hord hq
      refine ⟨q, by simp [lastLook_concat, hlooks, hq], fun u hpu hspan hu => ?_⟩
      rw [hstate u (by omega)]
      exact hquiet u hpu hspan hu
    | true =>
      obtain ⟨hnow, hsince, -⟩ := w.since_of_looks _ _ p hlooks hp
      refine ⟨e.time, by simp [lastLook_concat, hlooks], fun u hpu hspan hu => ?_⟩
      rw [hstate u hu]
      cases hrun : w.since (run w.step s es) with
      | none =>
        rw [hrun, Option.getD_none] at hsince
        omega
      | some p' =>
        rw [hrun, Option.getD_some] at hsince
        subst hsince
        obtain ⟨q, hq, hquiet⟩ := ih hrun
        have hle : q ≤ e.time := lastLook_le hord hq
        by_cases hqu : q ≤ u
        · have hsees : w.Sees s es e := hseen es e [] rfl hlooks
          exact hsees (by rw [hrun]; exact Option.some_ne_none p) hnow q hq u hqu hspan hu
        · exact hquiet u hpu (by omega) (by omega)

/-- A look that fires does so because the timer has been running. -/
theorem Fires.since {t : ℕ} (h : w.Fires s t) : ∃ p, w.since s = some p ∧ p + w.span ≤ t := by
  have hspan := w.span_pos
  have hle : (w.since s).getD t + w.span ≤ t := h.2
  cases hsince : w.since s with
  | none =>
    rw [hsince, Option.getD_none] at hle
    omega
  | some p => exact ⟨p, rfl, by rwa [hsince] at hle⟩

theorem lawful_of_allSeen (hs : w.since s = none) (hord : Ordered es) (hseen : w.AllSeen s es) :
    w.Lawful s es := by
  rintro before e after rfl hlooks hfires u hspan hu
  obtain ⟨p, hp, hle⟩ := hfires.since
  have hbefore : Ordered (before ++ [e]) := by
    rw [List.append_cons] at hord
    exact (List.pairwise_append.1 hord).1
  have hlater : ∀ a ∈ e :: after, u < a.time := by
    intro a ha
    have htail : Ordered (e :: after) := (List.pairwise_append.1 hord).2.1
    rcases List.mem_cons.1 ha with rfl | ha
    · exact hu
    · exact hu.trans_le (List.rel_of_pairwise_cons htail ha)
  rw [stateAt_append hlater]
  obtain ⟨q, hq, hquiet⟩ :=
    quiet_since hs (List.pairwise_append.1 hbefore).1 (atLooks_append hseen) hp
  have hqe : q ≤ e.time := lastLook_le hbefore hq
  by_cases hqu : q ≤ u
  · have hsees : w.Sees s before e := hseen before e after rfl hlooks
    exact hsees (by rw [hp]; exact Option.some_ne_none p) hfires.1 q hq u hqu hspan hu
  · exact hquiet u (by omega) (by omega) (by omega)

/-- The timer was started after it last fired. -/
theorem fired_le_since (hs : w.since s = none) (hord : Ordered es) {p : ℕ}
    (hp : w.since (run w.step s es) = some p) :
    w.AtLooks es fun earlier a => w.Fires (run w.step s earlier) a.time → a.time ≤ p := by
  induction es using List.reverseRecOn generalizing p with
  | nil =>
    rw [show run w.step s [] = s from rfl, hs] at hp
    cases hp
  | append_singleton es e ih =>
    have ih := @ih (List.pairwise_append.1 hord).1
    rw [run_concat] at hp
    cases hlooks : w.looks e.what with
    | false =>
      rw [w.since_of_not_looks _ _ hlooks] at hp
      exact atLooks_concat (ih hp) fun htrue => absurd htrue (by simp [hlooks])
    | true =>
      obtain ⟨-, hsince, hshort⟩ := w.since_of_looks _ _ p hlooks hp
      refine atLooks_concat ?_ fun _ hfires => ?_
      · cases hrun : w.since (run w.step s es) with
        | none =>
          rw [hrun, Option.getD_none] at hsince
          rintro earlier a after rfl - -
          rw [hsince]
          exact (List.pairwise_append.1 hord).2.2 a (by simp) e (List.mem_singleton_self e)
        | some p' =>
          rw [hrun, Option.getD_some] at hsince
          exact hsince ▸ ih hrun
      · have hlong := hfires.2
        rw [← hsince] at hlong
        omega

theorem spaced (hs : w.since s = none) (hord : Ordered es) : w.Spaced s es := by
  rintro before b after rfl - hfires earlier a between heq hlooks hfired
  obtain ⟨p, hp, hle⟩ := hfires.since
  have hap : a.time ≤ p :=
    fired_le_since hs (List.pairwise_append.1 hord).1 hp earlier a between heq hlooks hfired
  omega

end Watched
end Timeline
