import Quantra.Lib.Levels
import Mathlib.Data.List.Nodup
import Mathlib.Data.List.Perm.Subperm

/-! Kahn's algorithm on a finite multigraph, one breadth-first level at a time. Vectors indexed
by vertex are functions. The counter updates and the queue accesses are checked, so that a
successful run is also a run without a panic. -/
namespace Kahn
open Levels

inductive Fault
  | subtractOverflow
  | unwrapNone
  | outOfRounds
  deriving DecidableEq, Repr

structure State where
  queue : List ℕ
  degrees : ℕ → ℕ
  visited : ℕ

/-- The neighbour loop. The subtraction is checked: at zero the code would panic. -/
def relax : List ℕ → (ℕ → ℕ) → List ℕ → Except Fault ((ℕ → ℕ) × List ℕ)
  | [], degrees, queue => .ok (degrees, queue)
  | neighbor :: rest, degrees, queue =>
    if degrees neighbor = 0 then .error .subtractOverflow
    else
      let degrees' := Function.update degrees neighbor (degrees neighbor - 1)
      relax rest degrees' (if degrees' neighbor = 0 then queue ++ [neighbor] else queue)

/-- One wave: `wave_size` nodes leave the queue while their successors enter at its back. -/
def drain (adj : ℕ → List ℕ) : ℕ → State → Except Fault (List ℕ × State)
  | 0, st => .ok ([], st)
  | k + 1, st =>
    match st.queue with
    | [] => .error .unwrapNone
    | node :: rest => do
      let (degrees, queue) ← relax (adj node) st.degrees rest
      let (wave, st') ← drain adj k ⟨queue, degrees, st.visited + 1⟩
      .ok (node :: wave, st')

def waveLoop (adj : ℕ → List ℕ) : ℕ → State → Except Fault (List (List ℕ) × State)
  | fuel, st =>
    if st.queue.isEmpty then .ok ([], st)
    else match fuel with
      | 0 => .error .outOfRounds
      | fuel + 1 => do
        let (wave, st') ← drain adj st.queue.length st
        let (waves, st'') ← waveLoop adj fuel st'
        .ok (wave :: waves, st'')


/-- Both loops, from the vertices without incoming edges and with one round per vertex. -/
def run (adj : ℕ → List ℕ) (inDegree : ℕ → ℕ) (n : ℕ) : Except Fault (List (List ℕ) × State) :=
  waveLoop adj n ⟨(List.range n).filter (fun i => inDegree i = 0), inDegree, 0⟩

/-- A multigraph on the vertices below `n`: each vertex lists its predecessors with
multiplicity, and the successor lists hold the same edges. -/
structure Graph where
  n : ℕ
  preds : ℕ → List ℕ
  adj : ℕ → List ℕ
  preds_lt : ∀ v, ∀ u ∈ preds v, u < n
  preds_of_le : ∀ v, n ≤ v → preds v = []
  adj_count : ∀ u v, (adj u).count v = (preds v).count u

def Graph.Edge (G : Graph) (u v : ℕ) : Prop := u ∈ G.preds v

theorem Graph.Edge.lt {G : Graph} {u v : ℕ} (h : G.Edge u v) : u < G.n ∧ v < G.n := by
  refine ⟨G.preds_lt v u h, ?_⟩
  by_contra hge
  rw [Graph.Edge, G.preds_of_le v (by omega)] at h
  simp at h

/-- No counter underflows when each neighbour's counter covers its occurrences, and a vertex
enters the queue exactly when its last edge is removed. -/
theorem relax_spec (ns : List ℕ) (d : ℕ → ℕ) (q : List ℕ) (hd : ∀ v, ns.count v ≤ d v) :
    ∃ new, relax ns d q = .ok (fun v => d v - ns.count v, q ++ new) ∧ new.Nodup ∧
      ∀ v, v ∈ new ↔ v ∈ ns ∧ d v = ns.count v := by
  induction ns generalizing d q with
  | nil => exact ⟨[], by simp [relax], List.nodup_nil, by simp⟩
  | cons nb ns ih =>
    have hnb : ns.count nb + 1 ≤ d nb := by simpa using hd nb
    let d' := Function.update d nb (d nb - 1)
    have hd' : ∀ v, ns.count v ≤ d' v := by
      intro v
      by_cases hv : v = nb
      · subst hv
        simp only [d', Function.update_self]
        omega
      · have := hd v
        rw [List.count_cons_of_ne (Ne.symm hv)] at this
        simpa [d', hv] using this
    have hout : (fun v => d' v - ns.count v) = fun v => d v - (nb :: ns).count v := by
      funext v
      by_cases hv : v = nb
      · subst hv
        simp only [d', Function.update_self, List.count_cons_self]
        omega
      · simp [d', hv, List.count_cons_of_ne (Ne.symm hv)]
    have hrec : relax (nb :: ns) d q =
        relax ns d' (if d' nb = 0 then q ++ [nb] else q) := by
      simp [relax, d', show d nb ≠ 0 by omega]
    have hd'nb : d' nb = d nb - 1 := Function.update_self ..
    obtain ⟨new, hrelax, hnew, hmem⟩ := ih d' (if d' nb = 0 then q ++ [nb] else q) hd'
    by_cases hz : d' nb = 0
    · have hcount : ns.count nb = 0 := by omega
      have hnotin : nb ∉ ns := List.count_eq_zero.mp hcount
      refine ⟨nb :: new, ?_, ?_, ?_⟩
      · rw [hrec, hrelax, hout]
        simp [hz]
      · exact List.nodup_cons.mpr ⟨fun h => hnotin ((hmem nb).mp h).1, hnew⟩
      · intro v
        by_cases hv : v = nb
        · subst hv
          simp [hcount]
          omega
        · simp [hmem, hv, d', List.count_cons_of_ne (Ne.symm hv)]
    · refine ⟨new, ?_, hnew, ?_⟩
      · rw [hrec, hrelax, hout]
        simp [hz]
      · intro v
        rw [hmem]
        by_cases hv : v = nb
        · subst hv
          have : v ∉ ns → ns.count v = 0 := List.count_eq_zero.mpr
          simp only [hd'nb, List.mem_cons_self, List.count_cons_self, true_and]
          constructor
          · intro h; omega
          · intro h; exact ⟨by by_contra hn; have := this hn; omega, by omega⟩
        · simp [hv, d', List.count_cons_of_ne (Ne.symm hv)]

/-- The invariant of both loops. -/
structure Inv (G : Graph) (done : List ℕ) (st : State) : Prop where
  degrees : ∀ v, st.degrees v = (G.preds v).countP (· ∉ done)
  nodup : (done ++ st.queue).Nodup
  mem : ∀ v, v ∈ done ++ st.queue ↔ v < G.n ∧ ∀ u ∈ G.preds v, u ∈ done
  visited : st.visited = done.length

def initial (G : Graph) : State :=
  ⟨(List.range G.n).filter (fun i => (G.preds i).length = 0), fun v => (G.preds v).length, 0⟩

theorem initial_inv (G : Graph) : Inv G [] (initial G) where
  degrees v := by simp [initial]
  nodup := by simpa [initial] using List.nodup_range.filter _
  mem v := by simp [initial, List.eq_nil_iff_forall_not_mem]
  visited := rfl

/-- The edges counted before `node` is processed are those counted after it and those from it. -/
private theorem countP_not_mem_snoc (deps : List ℕ) {done : List ℕ} {node : ℕ} (h : node ∉ done) :
    deps.countP (· ∉ done) = deps.countP (· ∉ done ++ [node]) + deps.count node := by
  induction deps with
  | nil => rfl
  | cons u us ih =>
    rw [List.countP_cons, List.countP_cons, List.count_cons, ih]
    by_cases hu : u = node
    · subst hu
      simp only [h, not_false_iff, decide_true, if_true, List.mem_append, List.mem_singleton,
        or_true, not_true_eq_false, decide_false, Bool.false_eq_true, if_false, beq_self_eq_true]
      omega
    · by_cases hud : u ∈ done <;> simp [hu, hud]
      omega

/-- Processing the head of the queue keeps the invariant; new entries go to the back. -/
theorem Inv.step {G : Graph} {done : List ℕ} {st : State} {node : ℕ}
    {rest : List ℕ} (h : Inv G done st) (hq : st.queue = node :: rest) :
    ∃ degrees new, relax (G.adj node) st.degrees rest =
        .ok (degrees, rest ++ new) ∧
      Inv G (done ++ [node]) ⟨rest ++ new, degrees, st.visited + 1⟩ := by
  have hnodup : (done ++ node :: rest).Nodup := hq ▸ h.nodup
  have hnode : node ∉ done := by
    intro hin
    exact (List.nodup_append.mp hnodup).2.2 node hin node List.mem_cons_self rfl
  -- Edges out of `node` are among the edges that `degrees` still counts.
  have hsplit := fun v => countP_not_mem_snoc (G.preds v) hnode
  have hle : ∀ v, (G.adj node).count v ≤ st.degrees v := by
    intro v
    rw [G.adj_count, h.degrees, hsplit]
    omega
  obtain ⟨new, hrelax, hnew, hmem⟩ := relax_spec _ st.degrees rest hle
  have hdeg : ∀ v, st.degrees v - (G.adj node).count v =
      (G.preds v).countP (· ∉ done ++ [node]) := by
    intro v
    rw [G.adj_count, h.degrees, hsplit]
    omega
  have hzero : ∀ v, (G.preds v).countP (· ∉ done ++ [node]) = 0 ↔
      ∀ u ∈ G.preds v, u ∈ done ++ [node] := by
    intro v
    simp only [List.countP_eq_zero, decide_not, Bool.not_eq_true', decide_eq_false_iff_not,
      not_not]
  -- A newly queued vertex has `node` as predecessor, and all its predecessors are processed now.
  have hnewmem : ∀ v, v ∈ new ↔ node ∈ G.preds v ∧
      ∀ u ∈ G.preds v, u ∈ done ++ [node] := by
    intro v
    rw [hmem, ← List.count_pos_iff, G.adj_count, List.count_pos_iff, ← hzero, ← hdeg,
      G.adj_count]
    have := hle v
    rw [G.adj_count] at this
    constructor <;> rintro ⟨h1, h2⟩ <;> exact ⟨h1, by omega⟩
  refine ⟨_, new, hrelax, hdeg, ?_, ?_, by simp [h.visited]⟩
  · have hdisj : ∀ v ∈ done ++ node :: rest, v ∉ new := by
      intro v hv hvn
      have hall := ((h.mem v).mp (hq ▸ hv)).2
      exact hnode (hall node ((hnewmem v).mp hvn).1)
    have happ : ((done ++ node :: rest) ++ new).Nodup :=
      List.nodup_append.mpr ⟨hnodup, hnew, fun a ha b hb hab => hdisj a ha (hab ▸ hb)⟩
    simpa using happ
  · intro v
    have hold := h.mem v
    rw [hq] at hold
    have hlt : node ∈ G.preds v → v < G.n := fun hin => (show G.Edge node v from hin).lt.2
    have hsplit' : v ∈ (done ++ [node]) ++ (rest ++ new) ↔ v ∈ done ++ node :: rest ∨ v ∈ new := by
      simp [or_assoc]
    rw [hsplit', hold, hnewmem]
    constructor
    · rintro (⟨h1, h2⟩ | ⟨h1, h2⟩)
      · exact ⟨h1, fun u hu => List.mem_append_left _ (h2 u hu)⟩
      · exact ⟨hlt h1, h2⟩
    · rintro ⟨h1, h2⟩
      by_cases hin : node ∈ G.preds v
      · exact Or.inr ⟨hin, h2⟩
      · refine Or.inl ⟨h1, fun u hu => ?_⟩
        rcases List.mem_append.mp (h2 u hu) with hd | hd
        · exact hd
        · rw [List.mem_singleton.mp hd] at hu
          exact (hin hu).elim

/-- One wave processes exactly the queue it starts with. -/
theorem drain_spec {G : Graph} (wave : List ℕ) {done : List ℕ} {st : State}
    {rest : List ℕ} (h : Inv G done st) (hq : st.queue = wave ++ rest) :
    ∃ st' new, drain G.adj wave.length st = .ok (wave, st') ∧
      st'.queue = rest ++ new ∧ Inv G (done ++ wave) st' := by
  induction wave generalizing done st rest with
  | nil => exact ⟨st, [], rfl, by simpa using hq, by simpa using h⟩
  | cons node wave ih =>
    rw [List.cons_append] at hq
    obtain ⟨degrees, new, hrelax, hinv⟩ := h.step hq
    have hnext : wave ++ rest ++ new = wave ++ (rest ++ new) := List.append_assoc ..
    obtain ⟨st', new', hdrain, hqueue, hinv'⟩ := ih hinv hnext
    refine ⟨st', new ++ new', ?_, by simp [hqueue], by simpa using hinv'⟩
    rw [List.length_cons, drain, hq]
    simp only [bind, Except.bind, hrelax, hdrain]

/-- With the first `k` levels processed, the queue is level `k`. -/
theorem Inv.mem_queue {G : Graph} {done : List ℕ} {st : State} {k : ℕ}
    (h : Inv G done st)
    (hdone : ∀ v, v ∈ done ↔ v < G.n ∧ Peeled (G.Edge) k v) (v : ℕ) :
    v ∈ st.queue ↔ v < G.n ∧ AtLevel (G.Edge) k v := by
  have hready : (∀ u ∈ G.preds v, u ∈ done) ↔ Peeled (G.Edge) (k + 1) v := by
    constructor
    · exact fun hall u hu => ((hdone u).mp (hall u hu)).2
    · exact fun hp u hu => (hdone u).mpr ⟨G.preds_lt v u hu, hp u hu⟩
  have hmem := h.mem v
  rw [hready, List.mem_append] at hmem
  constructor
  · intro hv
    obtain ⟨hlt, hp⟩ := hmem.mp (Or.inr hv)
    refine ⟨hlt, hp, fun hk => ?_⟩
    exact (List.nodup_append.mp h.nodup).2.2 v ((hdone v).mpr ⟨hlt, hk⟩) v hv rfl
  · rintro ⟨hlt, hp, hk⟩
    rcases hmem.mpr ⟨hlt, hp⟩ with hd | hq
    · exact (hk ((hdone v).mp hd).2).elim
    · exact hq

theorem Inv.done_length_le {G : Graph} {done : List ℕ} {st : State}
    (h : Inv G done st) : done.length + st.queue.length ≤ G.n := by
  have hsub : done ++ st.queue ⊆ List.range G.n := fun v hv =>
    List.mem_range.mpr ((h.mem v).mp hv).1
  simpa using (h.nodup.subperm hsub).length_le

/-- With an empty queue every vertex that has a level is processed. -/
theorem Inv.mem_done_of_queue_nil {G : Graph} {done : List ℕ} {st : State}
    (h : Inv G done st) (hq : st.queue = []) {k v : ℕ} (hlt : v < G.n)
    (hk : Peeled (G.Edge) k v) : v ∈ done := by
  induction k generalizing v with
  | zero => exact hk.elim
  | succ k ih =>
    have hin := (h.mem v).mpr ⟨hlt, fun u hu => ih (G.preds_lt v u hu) (hk u hu)⟩
    simpa [hq] using hin

theorem Inv.not_atLevel_of_queue_nil {G : Graph} {done : List ℕ} {st : State}
    {k : ℕ} (h : Inv G done st) (hq : st.queue = [])
    (hdone : ∀ v, v ∈ done ↔ v < G.n ∧ Peeled (G.Edge) k v) (i v : ℕ) :
    v < G.n → ¬ AtLevel (G.Edge) (k + i) v := by
  rintro hlt ⟨hp, hn⟩
  have hin := h.mem_done_of_queue_nil hq hlt hp
  exact hn (peeled_mono (by omega) ((hdone v).mp hin).2)

/-- From the first `k` levels processed, the loop ends with one wave for each further level. -/
theorem waveLoop_spec {G : Graph} (fuel : ℕ) {done : List ℕ} {st : State} {k : ℕ}
    (h : Inv G done st)
    (hdone : ∀ v, v ∈ done ↔ v < G.n ∧ Peeled (G.Edge) k v)
    (hfuel : G.n ≤ done.length + fuel) :
    ∃ waves st', waveLoop G.adj fuel st = .ok (waves, st') ∧
      st'.queue = [] ∧ Inv G (done ++ waves.flatten) st' ∧
      ∀ i v, v ∈ waves.getD i [] ↔
        v < G.n ∧ AtLevel (G.Edge) (k + i) v := by
  induction fuel generalizing done st k with
  | zero =>
    have hlen := h.done_length_le
    have hq : st.queue = [] := List.eq_nil_of_length_eq_zero (by omega)
    refine ⟨[], st, by simp [waveLoop, hq], hq, by simpa using h, fun i v => ?_⟩
    simpa using h.not_atLevel_of_queue_nil hq hdone i v
  | succ fuel ih =>
    by_cases hq : st.queue = []
    · refine ⟨[], st, by simp [waveLoop, hq], hq, by simpa using h, fun i v => ?_⟩
      simpa using h.not_atLevel_of_queue_nil hq hdone i v
    · have hlevel := h.mem_queue hdone
      have hq0 : st.queue = st.queue ++ [] := (List.append_nil _).symm
      obtain ⟨st₁, new, hdrain, -, hinv⟩ := drain_spec st.queue h hq0
      have hdone' : ∀ v, v ∈ done ++ st.queue ↔
          v < G.n ∧ Peeled (G.Edge) (k + 1) v := by
        intro v
        rw [List.mem_append, hdone, hlevel]
        constructor
        · rintro (⟨hlt, hp⟩ | ⟨hlt, hp, -⟩)
          · exact ⟨hlt, peeled_succ hp⟩
          · exact ⟨hlt, hp⟩
        · rintro ⟨hlt, hp⟩
          by_cases hk : Peeled (G.Edge) k v
          · exact Or.inl ⟨hlt, hk⟩
          · exact Or.inr ⟨hlt, hp, hk⟩
      have hpos : 0 < st.queue.length := List.length_pos_of_ne_nil hq
      obtain ⟨waves, st', hloop, hqueue, hinv', hwaves⟩ :=
        ih hinv hdone' (by rw [List.length_append]; omega)
      refine ⟨st.queue :: waves, st', ?_, hqueue, by simpa using hinv', ?_⟩
      · rw [waveLoop]
        simp only [List.isEmpty_iff, hq, if_false, bind, Except.bind, hdrain, hloop]
      · intro i v
        cases i with
        | zero => simpa using hlevel v
        | succ i =>
          rw [List.getD_cons_succ, hwaves, show k + 1 + i = k + (i + 1) by omega]

/-- The whole run: no fault, and one wave per level. -/
theorem run_spec (G : Graph) :
    ∃ waves st, run G.adj (fun v => (G.preds v).length) G.n = .ok (waves, st) ∧
      st.queue = [] ∧ Inv G waves.flatten st ∧
      ∀ i v, v ∈ waves.getD i [] ↔ v < G.n ∧ AtLevel G.Edge i v := by
  have h := waveLoop_spec (k := 0) G.n (initial_inv G) (fun v => by simp [Peeled]) (by simp)
  simpa [run, initial] using h

/-- All vertices are processed exactly when the edges have no cycle. -/
theorem Inv.visited_eq_iff {G : Graph} {done : List ℕ} {st : State}
    (h : Inv G done st) (hq : st.queue = [])
    (hlevel : ∀ v ∈ done, ∃ k, Peeled (G.Edge) k v) :
    st.visited = G.n ↔ Acyclic (G.Edge) := by
  have hsub : done ⊆ List.range G.n := fun v hv =>
    List.mem_range.mpr ((h.mem v).mp (List.mem_append_left _ hv)).1
  have hnodup : done.Nodup := (List.nodup_append.mp h.nodup).1
  rw [h.visited]
  constructor
  · intro hlen
    have hperm : done.Perm (List.range G.n) :=
      (hnodup.subperm hsub).perm_of_length_le (by simp [hlen])
    refine acyclic_of_peeled fun v hv => hlevel v ?_
    obtain ⟨u, hu⟩ := hv
    exact hperm.mem_iff.mpr (List.mem_range.mpr hu.lt.2)
  · intro hacyc
    have hsup : List.range G.n ⊆ done := by
      intro v hv
      obtain ⟨k, hk⟩ := exists_peeled_of_acyclic (s := {u | u < G.n})
        (Set.finite_lt_nat _) (fun u v hu => G.preds_lt v u hu) hacyc v
      exact h.mem_done_of_queue_nil hq (List.mem_range.mp hv) hk
    have hle := (hnodup.subperm hsub).length_le
    have hge := (List.nodup_range.subperm hsup).length_le
    simp at hle hge
    omega

end Kahn
