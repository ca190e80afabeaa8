import Quantra.Lib.Runs
import Mathlib.Algebra.Order.BigOperators.Group.List
import Mathlib.Algebra.Order.Ring.Nat
import Mathlib.Data.List.Nodup
import Mathlib.Logic.Function.Basic
import Mathlib.Tactic.Tauto

/-! Handles of one table that is shared by jobs: each job opens and closes handles in a fixed order,
and any number of jobs are interleaved. -/
namespace Handles

variable {η κ : Type} [DecidableEq η]

inductive Act (η : Type)
  | opens (h : η)
  | closes (h : η)
  deriving DecidableEq, Repr

/-- The handles that are left open by the acts, on top of `own`. -/
def heldFrom (own : List η) : List (Act η) → List η
  | [] => own
  | .opens h :: acts => heldFrom (h :: own) acts
  | .closes h :: acts => heldFrom (own.filter (· ≠ h)) acts

/-- Only what is held is closed. -/
def Careful (own : List η) : List (Act η) → Prop
  | [] => True
  | .opens h :: acts => Careful (h :: own) acts
  | .closes h :: acts => h ∈ own ∧ Careful (own.filter (· ≠ h)) acts

/-- The acts of one job. -/
structure Script (η : Type) [DecidableEq η] where
  acts : List (Act η)
  careful : Careful [] acts

def opened (acts : List (Act η)) : List η :=
  acts.filterMap fun
    | .opens h => some h
    | .closes _ => none

/-- The open handles, each with the job that opened it; the jobs in progress, each with the acts that
it has still to do; and the number of jobs that have begun. -/
structure Pool (κ η : Type) where
  table : List (η × ℕ)
  progress : ℕ → Option (κ × List (Act η))
  begun : ℕ

inductive Event (κ : Type)
  | begin (job : κ)
  | act (id : ℕ)
  | finish (id : ℕ)

namespace Pool

def init : Pool κ η where
  table := []
  progress _ := none
  begun := 0

def goto (s : Pool κ η) (id : ℕ) (p : Option (κ × List (Act η))) : Pool κ η :=
  { s with progress := Function.update s.progress id p }

/-- A handle is opened only if it is not open; closing goes by the handle, whoever opened it. -/
def step (script : κ → Script η) (s : Pool κ η) : Event κ → Option (Pool κ η)
  | .begin job => some { s.goto s.begun (some (job, (script job).acts)) with begun := s.begun + 1 }
  | .act id =>
    match s.progress id with
    | some (job, .opens h :: todo) =>
      if h ∈ s.table.map Prod.fst then none
      else some { s.goto id (some (job, todo)) with table := (h, id) :: s.table }
    | some (job, .closes h :: todo) =>
      some { s.goto id (some (job, todo)) with table := s.table.filter (·.1 ≠ h) }
    | _ => none
  | .finish id =>
    match s.progress id with
    | some (_, []) => some (s.goto id none)
    | _ => none

/-- The handles that a job has opened. -/
def own (s : Pool κ η) (id : ℕ) : List η := (s.table.filter (·.2 = id)).map Prod.fst

/-- Every open handle is one of a job in progress; so there are no more than these jobs open. -/
structure Bounded (script : κ → Script η) (s : Pool κ η) : Prop where
  owned : ∀ d ∈ s.table, (s.progress d.2).isSome
  count : s.table.length ≤ ((List.range s.begun).map fun id =>
    (s.progress id).elim 0 fun p => (opened (script p.1).acts).length).sum

/-- A job that finishes has closed what it opened. -/
def Balanced (script : κ → Script η) (s : Pool κ η) : Event κ → Prop
  | .finish id => ∀ job todo, s.progress id = some (job, todo) → heldFrom [] (script job).acts = []
  | _ => True

end Pool

section Acts
variable {own : List η} {acts acts' : List (Act η)}

theorem heldFrom_append : heldFrom own (acts ++ acts') = heldFrom (heldFrom own acts) acts' := by
  induction acts generalizing own with
  | nil => rfl
  | cons a acts ih => cases a <;> exact ih

theorem Careful.right (h : Careful own (acts ++ acts')) : Careful (heldFrom own acts) acts' := by
  induction acts generalizing own with
  | nil => exact h
  | cons a acts ih =>
    cases a with
    | opens k => exact ih h
    | closes k => exact ih h.2

theorem length_heldFrom : (heldFrom own acts).length ≤ own.length + (opened acts).length := by
  induction acts generalizing own with
  | nil => exact Nat.le_add_right _ _
  | cons a acts ih =>
    cases a with
    | opens h =>
      have hrest : (heldFrom (h :: own) acts).length ≤ (h :: own).length + (opened acts).length := ih
      simp only [heldFrom, opened, List.filterMap_cons, List.length_cons] at hrest ⊢
      omega
    | closes h =>
      have hrest : (heldFrom (own.filter (· ≠ h)) acts).length ≤
          (own.filter (· ≠ h)).length + (opened acts).length := ih
      have hfilter := List.length_filter_le (· ≠ h) own
      simp only [heldFrom, opened, List.filterMap_cons] at hrest ⊢
      omega

theorem mem_heldFrom_opens {hs : List η} {h : η} :
    h ∈ heldFrom own (hs.map .opens) ↔ h ∈ hs ∨ h ∈ own := by
  induction hs generalizing own with
  | nil => simp [heldFrom]
  | cons k hs ih =>
    rw [List.map_cons, heldFrom, ih]
    simp only [List.mem_cons]
    tauto

theorem mem_heldFrom_closes {hs : List η} {h : η} :
    h ∈ heldFrom own (hs.map .closes) ↔ h ∉ hs ∧ h ∈ own := by
  induction hs generalizing own with
  | nil => simp [heldFrom]
  | cons k hs ih =>
    rw [List.map_cons, heldFrom, ih]
    simp only [List.mem_filter, List.mem_cons, decide_eq_true_eq]
    tauto

theorem careful_closes {hs : List η} (hnodup : hs.Nodup) (hmem : ∀ h ∈ hs, h ∈ own) :
    Careful own (hs.map .closes) := by
  induction hs generalizing own with
  | nil => trivial
  | cons k hs ih =>
    obtain ⟨hk, hnodup⟩ := List.nodup_cons.1 hnodup
    refine ⟨hmem k (List.mem_cons_self ..), ih hnodup fun h hh => ?_⟩
    have hne : h ≠ k := fun heq => hk (heq ▸ hh)
    simp [hmem h (List.mem_cons_of_mem _ hh), hne]

theorem careful_opens_append {hs : List η} (h : Careful (heldFrom own (hs.map .opens)) acts) :
    Careful own (hs.map .opens ++ acts) := by
  induction hs generalizing own with
  | nil => exact h
  | cons k hs ih => exact ih h

/-- A job that opens some handles and then closes some of them. -/
def Script.ofLists (hs closed : List η) (hnodup : hs.Nodup) (hsub : closed.Sublist hs) :
    Script η where
  acts := hs.map .opens ++ closed.map .closes
  careful := careful_opens_append <| careful_closes (hnodup.sublist hsub) fun _ h =>
    mem_heldFrom_opens.2 (.inl (hsub.subset h))

theorem heldFrom_ofLists {hs closed : List η} {hnodup : hs.Nodup} {hsub : closed.Sublist hs} :
    heldFrom [] (Script.ofLists hs closed hnodup hsub).acts = [] ↔ ∀ h ∈ hs, h ∈ closed := by
  rw [Script.ofLists, heldFrom_append, List.eq_nil_iff_forall_not_mem]
  simp only [mem_heldFrom_closes, mem_heldFrom_opens, List.not_mem_nil, or_false, not_and',
    Classical.not_not]

end Acts

namespace Pool

variable {script : κ → Script η} {s s' : Pool κ η} {e : Event κ} {id : ℕ} {job : κ} {h : η}

/-- No handle is open twice, nothing is there of jobs to come, and each job in progress holds what
the acts that it has done leave open. -/
structure Tracked (script : κ → Script η) (s : Pool κ η) : Prop where
  nodup : (s.table.map Prod.fst).Nodup
  fresh : ∀ id, s.begun ≤ id → s.progress id = none
  begun : ∀ d ∈ s.table, d.2 < s.begun
  follows : ∀ id job todo, s.progress id = some (job, todo) →
    ∃ done, (script job).acts = done ++ todo ∧ s.own id = heldFrom [] done

omit [DecidableEq η] in
@[simp] theorem goto_self (p : Option (κ × List (Act η))) : (s.goto id p).progress id = p :=
  Function.update_self ..

omit [DecidableEq η] in
theorem goto_ne {k : ℕ} (hk : k ≠ id) (p : Option (κ × List (Act η))) :
    (s.goto id p).progress k = s.progress k :=
  Function.update_of_ne hk ..

omit [DecidableEq η] in
/-- While `id` has a job, it is enough to look at the others. -/
theorem isSome_goto {k : ℕ} {p : κ × List (Act η)} (h : k ≠ id → (s.progress k).isSome) :
    ((s.goto id (some p)).progress k).isSome := by
  by_cases hk : k = id
  · rw [hk, goto_self]
    rfl
  · rw [goto_ne hk]
    exact h hk

omit [DecidableEq η] in
theorem mem_own : h ∈ s.own id ↔ (h, id) ∈ s.table := by
  simp [own]

/-- What a step can be. -/
theorem step_cases (hstep : s.step script e = some s') :
    (∃ job, e = .begin job ∧
      s' = { s.goto s.begun (some (job, (script job).acts)) with begun := s.begun + 1 }) ∨
    (∃ id job h todo, e = .act id ∧ s.progress id = some (job, .opens h :: todo) ∧
      h ∉ s.table.map Prod.fst ∧
      s' = { s.goto id (some (job, todo)) with table := (h, id) :: s.table }) ∨
    (∃ id job h todo, e = .act id ∧ s.progress id = some (job, .closes h :: todo) ∧
      s' = { s.goto id (some (job, todo)) with table := s.table.filter (·.1 ≠ h) }) ∨
    (∃ id job, e = .finish id ∧ s.progress id = some (job, []) ∧ s' = s.goto id none) := by
  cases e with
  | begin job =>
    cases hstep
    exact .inl ⟨job, rfl, rfl⟩
  | act id =>
    unfold step at hstep
    dsimp only at hstep
    split at hstep
    · rename_i job h todo hprogress
      split at hstep
      · cases hstep
      · rename_i hnew
        cases hstep
        exact .inr (.inl ⟨id, job, h, todo, rfl, hprogress, hnew, rfl⟩)
    · rename_i job h todo hprogress
      cases hstep
      exact .inr (.inr (.inl ⟨id, job, h, todo, rfl, hprogress, rfl⟩))
    · cases hstep
  | finish id =>
    unfold step at hstep
    dsimp only at hstep
    split at hstep
    · rename_i job hprogress
      cases hstep
      exact .inr (.inr (.inr ⟨id, job, rfl, hprogress, rfl⟩))
    · cases hstep

/-- A handle that a job closes is its own, so that no other loses one. -/
theorem Tracked.own_close (hs : s.Tracked script) (hown : h ∈ s.own id) (k : ℕ) :
    ((s.table.filter (·.1 ≠ h)).filter (·.2 = k)).map Prod.fst =
      if k = id then (s.own k).filter (· ≠ h) else s.own k := by
  have hcomm : ((s.table.filter (·.1 ≠ h)).filter (·.2 = k)).map Prod.fst =
      (s.own k).filter (· ≠ h) := by
    rw [own, List.filter_map, List.filter_filter, List.filter_filter]
    exact congrArg _ (List.filter_congr fun d _ => by simp [Bool.and_comm])
  rw [hcomm]
  split
  · rfl
  · rename_i hne
    rw [List.filter_eq_self]
    intro h' hh'
    have hk : (h', k) ∈ s.table := mem_own.1 hh'
    have hid : (h, id) ∈ s.table := mem_own.1 hown
    have hdiff : h' ≠ h := by
      intro heq
      subst heq
      have heq := List.inj_on_of_nodup_map hs.nodup hk hid rfl
      exact hne (congrArg Prod.snd heq)
    simpa using hdiff

/-- After an act of job `id`, the other jobs hold what they did. -/
theorem Tracked.follows_act (hs : s.Tracked script) {a : Act η} {todo : List (Act η)}
    (hprogress : s.progress id = some (job, a :: todo))
    (hgoto : s'.progress = Function.update s.progress id (some (job, todo)))
    (hself : s'.own id = heldFrom (s.own id) [a])
    (hother : ∀ k, k ≠ id → s'.own k = s.own k) (k : ℕ) (job' : κ) (todo' : List (Act η))
    (hk : s'.progress k = some (job', todo')) :
    ∃ done, (script job').acts = done ++ todo' ∧ s'.own k = heldFrom [] done := by
  rw [hgoto] at hk
  by_cases hid : k = id
  · subst hid
    rw [Function.update_self] at hk
    cases hk
    obtain ⟨done, hacts, hown⟩ := hs.follows k job _ hprogress
    refine ⟨done ++ [a], by rw [hacts, List.append_assoc]; rfl, ?_⟩
    rw [hself, hown, heldFrom_append]
  · rw [Function.update_of_ne hid] at hk
    rw [hother k hid]
    exact hs.follows k job' todo' hk

theorem Tracked.lt_begun (hs : s.Tracked script) {p : κ × List (Act η)}
    (hprogress : s.progress id = some p) : id < s.begun := by
  by_contra hge
  rw [hs.fresh id (Nat.le_of_not_lt hge)] at hprogress
  cases hprogress

theorem Tracked.begins (hs : s.Tracked script) (job : κ) :
    Tracked script { s.goto s.begun (some (job, (script job).acts)) with begun := s.begun + 1 } := by
  have hne : ∀ id, s.begun + 1 ≤ id → id ≠ s.begun := fun id hid => by omega
  refine ⟨hs.nodup, fun id hid => ?_, fun d hd => Nat.lt_succ_of_lt (hs.begun d hd), ?_⟩
  · exact (goto_ne (hne id hid) _).trans (hs.fresh id (Nat.le_of_succ_le hid))
  · intro k job' todo hk
    by_cases hnew : k = s.begun
    · subst hnew
      have hjob : some (job, (script job).acts) = some (job', todo) := (goto_self _).symm.trans hk
      cases hjob
      refine ⟨[], rfl, ?_⟩
      -- no handle can be of the new job
      have hnil : s.table.filter (·.2 = s.begun) = [] := by
        rw [List.filter_eq_nil_iff]
        intro d hd
        have hlt := hs.begun d hd
        simp only [decide_eq_true_eq]
        omega
      exact congrArg (List.map Prod.fst) hnil
    · exact hs.follows k job' todo ((goto_ne hnew _).symm.trans hk)

theorem Tracked.step (hs : s.Tracked script) (hstep : s.step script e = some s') :
    s'.Tracked script := by
  obtain ⟨job, -, rfl⟩ | ⟨id, job, h, todo, -, hprogress, hnew, rfl⟩ |
    ⟨id, job, h, todo, -, hprogress, rfl⟩ | ⟨id, job, -, hprogress, rfl⟩ := step_cases hstep
  · exact hs.begins job
  · have hfresh : ∀ k, s.begun ≤ k → k ≠ id := fun k hk heq =>
      absurd (hs.lt_begun hprogress) (by omega)
    refine ⟨List.nodup_cons.2 ⟨hnew, hs.nodup⟩, fun k hk => ?_, fun d hd => ?_, ?_⟩
    · exact (goto_ne (hfresh k hk) _).trans (hs.fresh k hk)
    · rcases List.mem_cons.1 hd with rfl | hd
      · exact hs.lt_begun hprogress
      · exact hs.begun d hd
    · refine hs.follows_act hprogress rfl ?_ fun k hk => ?_
      · simp [own, heldFrom]
      · simp [own, Ne.symm hk]
  · have hfresh : ∀ k, s.begun ≤ k → k ≠ id := fun k hk heq =>
      absurd (hs.lt_begun hprogress) (by omega)
    obtain ⟨done, hacts, hown⟩ := hs.follows id job _ hprogress
    have hheld : h ∈ s.own id := by
      have hcareful := (script job).careful
      rw [hacts] at hcareful
      rw [hown]
      exact hcareful.right.1
    refine ⟨?_, fun k hk => ?_, fun d hd => hs.begun d (List.mem_of_mem_filter hd), ?_⟩
    · exact hs.nodup.sublist (List.Sublist.map _ (List.filter_sublist ..))
    · exact (goto_ne (hfresh k hk) _).trans (hs.fresh k hk)
    · refine hs.follows_act hprogress rfl ?_ fun k hk => ?_
      · exact (hs.own_close hheld id).trans (if_pos rfl)
      · exact (hs.own_close hheld k).trans (if_neg hk)
  · refine ⟨hs.nodup, fun k hk => ?_, hs.begun, fun k job' todo hk => ?_⟩
    · by_cases hid : k = id
      · exact hid ▸ goto_self _
      · exact (goto_ne hid _).trans (hs.fresh k hk)
    · by_cases hid : k = id
      · subst hid
        have hnone : none = some (job', todo) := (goto_self _).symm.trans hk
        cases hnone
      · exact hs.follows k job' todo ((goto_ne hid _).symm.trans hk)

/-- A list has no more elements than the parts of it by a function whose values are listed. -/
theorem length_le_sum_filter {α : Type} {l : List α} {f : α → ℕ} {ks : List ℕ}
    (hl : ∀ a ∈ l, f a ∈ ks) : l.length ≤ (ks.map fun k => (l.filter (f · = k)).length).sum := by
  induction ks generalizing l with
  | nil =>
    have hnil : l = [] := List.eq_nil_iff_forall_not_mem.2 fun a ha => List.not_mem_nil (hl a ha)
    rw [hnil]
    exact Nat.zero_le _
  | cons k ks ih =>
    have hrest : ∀ a ∈ l.filter (f · ≠ k), f a ∈ ks := by
      intro a ha
      rw [List.mem_filter, decide_eq_true_eq] at ha
      exact (List.mem_cons.1 (hl a ha.1)).resolve_left ha.2
    have hsplit : l.length = (l.filter (f · = k)).length + (l.filter (f · ≠ k)).length := by
      rw [List.length_eq_length_filter_add fun a => decide (f a = k)]
      simp
    have hsum : (ks.map fun k' => ((l.filter (f · ≠ k)).filter (f · = k')).length).sum ≤
        (ks.map fun k' => (l.filter (f · = k')).length).sum := by
      refine List.sum_le_sum fun k' _ => ?_
      exact ((List.filter_sublist ..).filter _).length_le
    have htail := ih hrest
    rw [List.map_cons, List.sum_cons]
    omega

/-- What is open is held by jobs in progress, so that these account for all of it. -/
theorem Tracked.bounded_iff (hs : s.Tracked script) :
    Bounded script s ↔ ∀ d ∈ s.table, (s.progress d.2).isSome := by
  refine ⟨Bounded.owned, fun howned => ⟨howned, ?_⟩⟩
  have hids : ∀ d ∈ s.table, d.2 ∈ List.range s.begun := fun d hd => List.mem_range.2 (hs.begun d hd)
  refine Nat.le_trans (length_le_sum_filter hids) (List.sum_le_sum fun id _ => ?_)
  rw [← List.length_map Prod.fst]
  cases hprogress : s.progress id with
  | none =>
    have hnil : s.own id = [] := by
      refine List.eq_nil_iff_forall_not_mem.2 fun h hh => ?_
      have hsome := howned _ (mem_own.1 hh)
      simp [hprogress] at hsome
    exact (congrArg List.length hnil).le
  | some p =>
    obtain ⟨done, hacts, hown⟩ := hs.follows id p.1 p.2 hprogress
    have hlength : (s.own id).length ≤ 0 + (opened done).length := hown ▸ length_heldFrom
    have happend : opened (done ++ p.2) = opened done ++ opened p.2 := List.filterMap_append
    rw [Option.elim_some, hacts, happend, List.length_append]
    exact hlength.trans (by omega)

/-- A step keeps the handles with jobs in progress exactly if it is balanced. -/
theorem Tracked.bounded_step_iff (hs : s.Tracked script) (hbounded : Bounded script s)
    (hstep : s.step script e = some s') : Bounded script s' ↔ Balanced script s e := by
  rw [(hs.step hstep).bounded_iff]
  have howned := hbounded.owned
  obtain ⟨job, rfl, rfl⟩ | ⟨id, job, h, todo, rfl, hprogress, -, rfl⟩ |
    ⟨id, job, h, todo, rfl, hprogress, rfl⟩ | ⟨id, job, rfl, hprogress, rfl⟩ := step_cases hstep
  · refine iff_of_true (fun d hd => ?_) trivial
    exact (congrArg Option.isSome (goto_ne (Nat.ne_of_lt (hs.begun d hd)) _)).trans (howned d hd)
  · refine iff_of_true (fun d hd => isSome_goto fun hid => howned d ?_) trivial
    exact (List.mem_cons.1 hd).resolve_left fun heq => hid (congrArg Prod.snd heq)
  · refine iff_of_true (fun d hd => isSome_goto fun _ => howned d ?_) trivial
    exact List.mem_of_mem_filter hd
  · obtain ⟨done, hacts, hown⟩ := hs.follows id job [] hprogress
    rw [List.append_nil] at hacts
    rw [← hacts] at hown
    have hbalanced : Balanced script s (.finish id) ↔ s.own id = [] := by
      rw [hown]
      constructor
      · exact fun h => h job [] hprogress
      · intro h job' todo hprogress'
        rw [hprogress] at hprogress'
        cases hprogress'
        exact h
    rw [hbalanced]
    constructor
    · intro h
      refine List.eq_nil_iff_forall_not_mem.2 fun k hk => ?_
      have hsome := h _ (mem_own.1 hk)
      simp at hsome
    · intro hnil d hd
      have hid : d.2 ≠ id := by
        intro hid
        have hmem : d.1 ∈ s.own id := mem_own.2 (hid ▸ hd)
        rw [hnil] at hmem
        cases hmem
      exact (congrArg Option.isSome (goto_ne hid _)).trans (howned d hd)

theorem tracked_init : Tracked script (init : Pool κ η) := by
  refine ⟨List.nodup_nil, fun _ _ => rfl, fun d hd => ?_, fun id job todo h => ?_⟩
  · cases hd
  · cases h

/-- The handles stay with jobs in progress exactly on the runs in which every job that finishes has
closed what it opened. -/
theorem bounded_iff_balanced (es : List (Event κ)) :
    Runs.Always (step script) (Bounded script) init es ↔
      Runs.Meets (step script) (Balanced script) init es := by
  have hinit : Bounded script (init : Pool κ η) := tracked_init.bounded_iff.2 fun d hd => by cases hd
  exact Runs.always_iff_meets_of_invariant (fun hs _ _ hstep => hs.step hstep)
    (fun hs hbounded hstep => hs.bounded_step_iff hbounded hstep) tracked_init hinit es

end Pool

end Handles
