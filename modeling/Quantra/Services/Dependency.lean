import Quantra.Lib.Kahn
import Quantra.Services.Types

/-! `services/dependency.rs`: dependency waves. The edges are built from the service list as in
the source; the two loops that follow are `Kahn.waveLoop` and `Kahn.drain`. -/
namespace Quantra.Services
open Levels

/-- What can end `wave_sort_services` other than `Ok`: the reported cycle, or a fault of the loops
(an arithmetic or `unwrap` panic). -/
inductive SortError
  | circular (unresolved : List String) (visited n : ℕ)
  | fault (f : Kahn.Fault)
  deriving DecidableEq, Repr

def SortError.message : SortError → String
  | .circular unresolved visited n =>
    "Circular dependency detected among services: [" ++ ", ".intercalate unresolved ++
      "]. These services have unresolved dependencies that form a cycle (" ++ toString visited ++
      " of " ++ toString n ++ " resolved)"
  | .fault .subtractOverflow => "attempt to subtract with overflow"
  | .fault .unwrapNone => "called `Option::unwrap()` on a `None` value"
  | .fault .outOfRounds => "more rounds than services"

/-- `name_to_idx`: collecting into a map keeps the last service of each name. -/
def nameToIdx (services : List Service) (name : String) : Option ℕ :=
  (services.zipIdx.reverse.find? (fun p => p.1.name = name)).map Prod.snd

structure DepGraph where
  adj : ℕ → List ℕ
  inDegree : ℕ → ℕ

def DepGraph.addEdge (g : DepGraph) (depIdx idx : ℕ) : DepGraph where
  adj := Function.update g.adj depIdx (g.adj depIdx ++ [idx])
  inDegree := Function.update g.inDegree idx (g.inDegree idx + 1)

/-- The inner edge loop; a name outside the list adds no edge. -/
def addEdges (services : List Service) (idx : ℕ) : DepGraph → List String → DepGraph
  | g, [] => g
  | g, dep :: deps =>
    match nameToIdx services dep with
    | some depIdx => addEdges services idx (g.addEdge depIdx idx) deps
    | none => addEdges services idx g deps

def buildGraph (services : List Service) : DepGraph :=
  services.zipIdx.foldl (fun g p => addEdges services p.2 g (p.1.after ++ p.1.dependencies))
    ⟨fun _ => [], fun _ => 0⟩

def waveSortServices (services : List Service) : Except SortError (List (List Service)) :=
  if services.isEmpty then .ok []
  else
    let g := buildGraph services
    match Kahn.run g.adj g.inDegree services.length with
    | .error f => .error (.fault f)
    | .ok (waves, st) =>
      if st.visited ≠ services.length then
        .error (.circular ((services.zipIdx.filter (fun p => 0 < st.degrees p.2)).map (·.1.name))
          st.visited services.length)
      else .ok (waves.map (·.filterMap (services[·]?)))

def sortServices (services : List Service) : Except SortError (List Service) := do
  let waves ← waveSortServices services
  .ok waves.flatten

/-- Positions named by the service at position `v`, with multiplicity and in source order. -/
def depsOf (services : List Service) (v : ℕ) : List ℕ :=
  match services[v]? with
  | some svc => (svc.after ++ svc.dependencies).filterMap (nameToIdx services)
  | none => []

/-- Edges between positions: `u` is a listed dependency of `v`. -/
def PosEdge (services : List Service) (u v : ℕ) : Prop := u ∈ depsOf services v

theorem nameToIdx_spec {services : List Service} {name : String} {i : ℕ}
    (h : nameToIdx services name = some i) : ∃ svc, services[i]? = some svc ∧ svc.name = name := by
  simp only [nameToIdx, Option.map_eq_some_iff] at h
  obtain ⟨⟨svc, j⟩, hfind, rfl⟩ := h
  have hmem := List.mem_of_find?_eq_some hfind
  rw [List.mem_reverse, List.mem_zipIdx_iff_getElem?] at hmem
  exact ⟨svc, hmem, by simpa using List.find?_some hfind⟩

theorem nameToIdx_lt {services : List Service} {name : String} {i : ℕ}
    (h : nameToIdx services name = some i) : i < services.length := by
  obtain ⟨svc, hsvc, -⟩ := nameToIdx_spec h
  exact (List.getElem?_eq_some_iff.mp hsvc).1

/-- A listed name borne by one service only is found at that service's position. -/
theorem nameToIdx_of_unique {services : List Service} {svc : Service} {i : ℕ}
    (hi : services[i]? = some svc)
    (huniq : ∀ j t, services[j]? = some t → t.name = svc.name → j = i) :
    nameToIdx services svc.name = some i := by
  cases h : nameToIdx services svc.name with
  | none =>
    simp only [nameToIdx, Option.map_eq_none_iff, List.find?_eq_none] at h
    have hmem : (svc, i) ∈ services.zipIdx.reverse := by
      rw [List.mem_reverse, List.mem_zipIdx_iff_getElem?]
      exact hi
    exact absurd (h (svc, i) hmem) (by simp)
  | some j =>
    obtain ⟨t, ht, hname⟩ := nameToIdx_spec h
    rw [huniq j t ht hname]

theorem mem_depsOf_lt {services : List Service} {u v : ℕ} (h : u ∈ depsOf services v) :
    u < services.length := by
  unfold depsOf at h
  split at h
  · obtain ⟨dep, -, hdep⟩ := List.mem_filterMap.mp h
    exact nameToIdx_lt hdep
  · simp at h

theorem depsOf_of_le {services : List Service} {v : ℕ} (h : services.length ≤ v) :
    depsOf services v = [] := by
  simp [depsOf, List.getElem?_eq_none h]

/-! Edge construction. -/

theorem addEdges_inDegree (services : List Service) (idx : ℕ) (g : DepGraph) (deps : List String)
    (v : ℕ) : (addEdges services idx g deps).inDegree v = g.inDegree v +
      if v = idx then (deps.filterMap (nameToIdx services)).length else 0 := by
  induction deps generalizing g with
  | nil => simp [addEdges]
  | cons dep deps ih =>
    unfold addEdges
    cases hdep : nameToIdx services dep with
    | none => simp [hdep, ih]
    | some depIdx =>
      rw [List.filterMap_cons_some hdep, ih]
      by_cases hv : v = idx
      · subst hv
        simp only [DepGraph.addEdge, Function.update_self, if_true, List.length_cons]
        omega
      · simp [DepGraph.addEdge, hv]

theorem addEdges_adj_count (services : List Service) (idx : ℕ) (g : DepGraph)
    (deps : List String) (u v : ℕ) :
    ((addEdges services idx g deps).adj u).count v = (g.adj u).count v +
      if v = idx then (deps.filterMap (nameToIdx services)).count u else 0 := by
  induction deps generalizing g with
  | nil => simp [addEdges]
  | cons dep deps ih =>
    unfold addEdges
    cases hdep : nameToIdx services dep with
    | none => simp [hdep, ih]
    | some depIdx =>
      rw [List.filterMap_cons_some hdep, List.count_cons, ih]
      by_cases hu : u = depIdx
      · subst hu
        by_cases hv : v = idx
        · subst hv
          simp [DepGraph.addEdge]
          omega
        · simp [DepGraph.addEdge, hv, Ne.symm hv]
      · simp [DepGraph.addEdge, hu, Ne.symm hu]

private theorem zipIdx_filter_snd {α : Type*} (l : List α) (k v : ℕ) (hkv : k ≤ v) :
    (l.zipIdx k).filter (fun p => p.2 = v) = (l[v - k]?.map (·, v)).toList := by
  induction l generalizing k with
  | nil => simp
  | cons a l ih =>
    rw [List.zipIdx_cons]
    by_cases hk : k = v
    · subst hk
      have hnone : (l.zipIdx (k + 1)).filter (fun p => p.2 = k) = [] := by
        rw [List.filter_eq_nil_iff]
        intro p hp
        have := List.le_snd_of_mem_zipIdx hp
        simp
        omega
      simp [hnone]
    · have hsub : v - k = (v - (k + 1)) + 1 := by omega
      rw [List.filter_cons, ih (k + 1) (by omega), hsub]
      simp [hk]

private theorem foldl_addEdges (services : List Service) (ps : List (Service × ℕ)) (g : DepGraph)
    (u v : ℕ) :
    let named := (ps.filter (fun p => p.2 = v)).flatMap
      fun p => (p.1.after ++ p.1.dependencies).filterMap (nameToIdx services)
    let g' := ps.foldl (fun g p => addEdges services p.2 g (p.1.after ++ p.1.dependencies)) g
    g'.inDegree v = g.inDegree v + named.length ∧
      (g'.adj u).count v = (g.adj u).count v + named.count u := by
  induction ps generalizing g with
  | nil => simp
  | cons p ps ih =>
    obtain ⟨hin, hadj⟩ := ih (addEdges services p.2 g (p.1.after ++ p.1.dependencies))
    dsimp only at hin hadj ⊢
    rw [List.foldl_cons, hin, hadj, addEdges_inDegree, addEdges_adj_count]
    by_cases hp : p.2 = v
    · subst hp
      simp
      omega
    · simp [hp, Ne.symm hp]

private theorem named_eq_depsOf (services : List Service) (v : ℕ) :
    ((services.zipIdx.filter (fun p => p.2 = v)).flatMap
      fun p => (p.1.after ++ p.1.dependencies).filterMap (nameToIdx services)) =
      depsOf services v := by
  rw [zipIdx_filter_snd services 0 v (Nat.zero_le v), Nat.sub_zero, depsOf]
  cases services[v]? <;> simp

/-- The in-degree counts every edge, duplicates included. -/
theorem buildGraph_inDegree (services : List Service) (v : ℕ) :
    (buildGraph services).inDegree v = (depsOf services v).length := by
  have h := (foldl_addEdges services services.zipIdx ⟨fun _ => [], fun _ => 0⟩ 0 v).1
  dsimp only at h
  rw [named_eq_depsOf] at h
  simpa [buildGraph] using h

theorem buildGraph_adj_count (services : List Service) (u v : ℕ) :
    ((buildGraph services).adj u).count v = (depsOf services v).count u := by
  have h := (foldl_addEdges services services.zipIdx ⟨fun _ => [], fun _ => 0⟩ u v).2
  dsimp only at h
  rw [named_eq_depsOf] at h
  simpa [buildGraph] using h

/-- The edges as a multigraph on positions. -/
def posGraph (services : List Service) : Kahn.Graph where
  n := services.length
  preds := depsOf services
  adj := (buildGraph services).adj
  preds_lt _ _ h := mem_depsOf_lt h
  preds_of_le _ h := depsOf_of_le h
  adj_count := buildGraph_adj_count services

theorem run_buildGraph (services : List Service) :
    ∃ waves st, Kahn.run (buildGraph services).adj (buildGraph services).inDegree services.length =
        .ok (waves, st) ∧ st.queue = [] ∧ Kahn.Inv (posGraph services) waves.flatten st ∧
      ∀ i v, v ∈ waves.getD i [] ↔ v < services.length ∧ AtLevel (PosEdge services) i v := by
  rw [show (buildGraph services).inDegree = fun v => (depsOf services v).length from
    funext (buildGraph_inDegree services)]
  exact Kahn.run_spec (posGraph services)

/-! The result, first on positions for any list, then on services with distinct names. -/

/-- The only error is the reported cycle: no panic, no missing round. -/
theorem waveSortServices_error {services : List Service} {e : SortError}
    (h : waveSortServices services = .error e) :
    ∃ unresolved visited, e = .circular unresolved visited services.length := by
  obtain ⟨waves, st, hrun, -⟩ := run_buildGraph services
  unfold waveSortServices at h
  simp only [hrun] at h
  split_ifs at h with hempty hvisited
  exact ⟨_, _, (Except.error.inj h).symm⟩

theorem waveSortServices_ok_iff (services : List Service) :
    (∃ waves, waveSortServices services = .ok waves) ↔ Acyclic (PosEdge services) := by
  obtain ⟨waves, st, hrun, hq, hinv, hlevel⟩ := run_buildGraph services
  have hpeeled : ∀ v ∈ waves.flatten, ∃ k, Peeled (PosEdge services) k v := by
    intro v hv
    obtain ⟨w, hw, hvw⟩ := List.mem_flatten.mp hv
    obtain ⟨i, hi, rfl⟩ := List.getElem_of_mem hw
    have hat := (hlevel i v).mp (by simpa [List.getD_eq_getElem?_getD, hi] using hvw)
    exact ⟨i + 1, hat.2.1⟩
  have hvis := hinv.visited_eq_iff hq hpeeled
  change st.visited = services.length ↔ Acyclic (PosEdge services) at hvis
  rw [← hvis]
  unfold waveSortServices
  simp only [hrun]
  by_cases hempty : services = []
  · have hle := hinv.done_length_le
    have hlen := hinv.visited
    subst hempty
    change _ + _ ≤ 0 at hle
    simp
    omega
  · by_cases hvisited : st.visited = services.length <;> simp [hempty, hvisited]

theorem waveSortServices_ok {services : List Service} {waves : List (List Service)}
    (h : waveSortServices services = .ok waves) :
    ∃ pos : List (List ℕ), waves = pos.map (·.filterMap (services[·]?)) ∧
      pos.flatten.Perm (List.range services.length) ∧
      ∀ i v, v ∈ pos.getD i [] ↔ v < services.length ∧ AtLevel (PosEdge services) i v := by
  by_cases hempty : services = []
  · subst hempty
    refine ⟨[], ?_, by simp, by simp⟩
    simpa [waveSortServices] using h.symm
  obtain ⟨pos, st, hrun, hq, hinv, hlevel⟩ := run_buildGraph services
  unfold waveSortServices at h
  simp only [hrun, List.isEmpty_iff, hempty, if_false] at h
  split_ifs at h with hvisited
  refine ⟨pos, (Except.ok.inj h).symm, ?_, hlevel⟩
  have hnodup : pos.flatten.Nodup := (List.nodup_append.mp hinv.nodup).1
  have hsub : pos.flatten ⊆ List.range services.length := fun v hv =>
    List.mem_range.mpr ((hinv.mem v).mp (List.mem_append_left _ hv)).1
  refine (hnodup.subperm hsub).perm_of_length_le ?_
  rw [List.length_range, ← hinv.visited]
  omega

/-- Dependencies between services: `a` is listed and `b` names it. -/
def DepEdge (services : List Service) (a b : Service) : Prop :=
  a ∈ services ∧ b ∈ services ∧ (a.name ∈ b.after ∨ a.name ∈ b.dependencies)

theorem depEdge_of_posEdge {services : List Service} {a b : Service} {u v : ℕ}
    (ha : services[u]? = some a) (hb : services[v]? = some b) (h : PosEdge services u v) :
    DepEdge services a b := by
  simp only [PosEdge, depsOf, hb, List.mem_filterMap, List.mem_append] at h
  obtain ⟨name, hname, hidx⟩ := h
  obtain ⟨t, ht, rfl⟩ := nameToIdx_spec hidx
  obtain rfl : t = a := Option.some.inj (ht.symm.trans ha)
  exact ⟨List.mem_of_getElem? ha, List.mem_of_getElem? hb, hname⟩

theorem posEdge_map {services : List Service} (u v : ℕ) (h : PosEdge services u v) :
    DepEdge services (services.getD u default) (services.getD v default) := by
  have hu : u < services.length := mem_depsOf_lt h
  have hv : v < services.length := by
    by_contra hge
    rw [PosEdge, depsOf_of_le (by omega)] at h
    simp at h
  exact depEdge_of_posEdge (by simp [List.getElem?_eq_getElem hu])
    (by simp [List.getElem?_eq_getElem hv]) h

section DistinctNames
variable {services : List Service} (hnames : (services.map (·.name)).Nodup)
include hnames

private theorem nameToIdx_of_nodup {a : Service} {u : ℕ} (ha : services[u]? = some a) :
    nameToIdx services a.name = some u := by
  refine nameToIdx_of_unique ha fun j t ht hname => ?_
  have hu : (services.map (·.name))[u]? = some a.name := by simp [ha]
  have hj : (services.map (·.name))[j]? = some a.name := by simp [ht, hname]
  exact (List.getElem?_inj (List.getElem?_eq_some_iff.mp hj).1 hnames).mp (hj.trans hu.symm)

private theorem depEdge_iff_posEdge {a b : Service} {u v : ℕ} (ha : services[u]? = some a)
    (hb : services[v]? = some b) : DepEdge services a b ↔ PosEdge services u v := by
  refine ⟨fun h => ?_, depEdge_of_posEdge ha hb⟩
  have hu := nameToIdx_of_nodup hnames ha
  simp only [PosEdge, depsOf, hb, List.mem_filterMap, List.mem_append]
  exact ⟨a.name, h.2.2, hu⟩

private theorem depEdge_map (a b : Service) (h : DepEdge services a b) :
    PosEdge services ((nameToIdx services a.name).getD 0) ((nameToIdx services b.name).getD 0) := by
  obtain ⟨u, hu⟩ := List.mem_iff_getElem?.mp h.1
  obtain ⟨v, hv⟩ := List.mem_iff_getElem?.mp h.2.1
  rw [nameToIdx_of_nodup hnames hu, nameToIdx_of_nodup hnames hv]
  exact (depEdge_iff_posEdge hnames hu hv).mp h

theorem acyclic_posEdge_iff : Acyclic (PosEdge services) ↔ Acyclic (DepEdge services) :=
  ⟨.of_map _ (depEdge_map hnames), .of_map _ posEdge_map⟩

private theorem chainTo_depEdge_iff {a : Service} {v k : ℕ} (ha : services[v]? = some a) :
    ChainTo (DepEdge services) k a ↔ ChainTo (PosEdge services) k v := by
  constructor
  · intro h
    have := h.map _ (depEdge_map hnames)
    rwa [nameToIdx_of_nodup hnames ha] at this
  · intro h
    have := h.map _ posEdge_map
    rwa [List.getD_eq_getElem?_getD, ha] at this

end DistinctNames

private theorem mem_wave {services : List Service} {pos : List (List ℕ)} {i : ℕ} {s : Service}
    (h : s ∈ (pos.map (·.filterMap (services[·]?))).getD i []) :
    ∃ v ∈ pos.getD i [], services[v]? = some s := by
  rw [List.getD_eq_getElem?_getD, List.getElem?_map] at h
  rw [List.getD_eq_getElem?_getD]
  cases hpos : pos[i]? with
  | none => simp [hpos] at h
  | some w => simpa [hpos] using h

private theorem range_filterMap_getElem? {α : Type*} (l : List α) :
    (List.range l.length).filterMap (l[·]?) = l := by
  induction l with
  | nil => rfl
  | cons a l ih =>
    rw [List.length_cons, List.range_succ_eq_map, List.filterMap_cons_some (by rfl),
      List.filterMap_map]
    exact congrArg (a :: ·) ih

/-- Kahn's algorithm by levels is correct: it succeeds exactly on acyclic graphs, the waves are
a rearrangement of the input ordered by dependencies, the wave of a service is the length of its
longest dependency chain, and a failure is always the reported cycle, never an underflow. -/
theorem waveSortServices_correct (services : List Service)
    (hnames : (services.map (·.name)).Nodup) :
    ((∃ waves, waveSortServices services = .ok waves) ↔ Acyclic (DepEdge services)) ∧
    (∀ waves, waveSortServices services = .ok waves →
      waves.flatten.Perm services ∧
      (∀ i j, ∀ a ∈ waves.getD i [], ∀ b ∈ waves.getD j [],
        (a.name ∈ b.after ∨ a.name ∈ b.dependencies) → i < j) ∧
      ∀ i, ∀ s ∈ waves.getD i [], IsGreatest {k | ChainTo (DepEdge services) k s} i) ∧
    ∀ e, waveSortServices services = .error e →
      ∃ unresolved visited, e = .circular unresolved visited services.length := by
  refine ⟨?_, ?_, fun e he => waveSortServices_error he⟩
  · rw [waveSortServices_ok_iff, acyclic_posEdge_iff hnames]
  intro waves hok
  obtain ⟨pos, rfl, hperm, hlevel⟩ := waveSortServices_ok hok
  refine ⟨?_, ?_, ?_⟩
  · rw [← List.filterMap_flatten]
    exact (hperm.filterMap _).trans (by rw [range_filterMap_getElem?])
  · intro i j a ha b hb hab
    obtain ⟨u, hu, hua⟩ := mem_wave ha
    obtain ⟨v, hv, hvb⟩ := mem_wave hb
    have hedge := (depEdge_iff_posEdge hnames hua hvb).mp
      ⟨List.mem_of_getElem? hua, List.mem_of_getElem? hvb, hab⟩
    exact ((hlevel i u).mp hu).2.lt_of_edge ((hlevel j v).mp hv).2 hedge
  · intro i s hs
    obtain ⟨v, hv, hvs⟩ := mem_wave hs
    have hgreatest := atLevel_iff_isGreatest.mp ((hlevel i v).mp hv).2
    simpa only [chainTo_depEdge_iff hnames hvs] using hgreatest

theorem waveSortServices_correct_pair :
    ∃ waves, waveSortServices [{ name := "a", command := "/bin/true" },
      { name := "b", command := "/bin/true", dependencies := ["a"] }] = .ok waves ∧
      waves.flatten.Perm [{ name := "a", command := "/bin/true" },
        { name := "b", command := "/bin/true", dependencies := ["a"] }] :=
  have h := (waveSortServices_correct [{ name := "a", command := "/bin/true" },
    { name := "b", command := "/bin/true", dependencies := ["a"] }] (by decide)).2.1
  ⟨_, rfl, (h _ rfl).1⟩

end Quantra.Services
