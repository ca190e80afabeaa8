import Quantra.Lib.Phases
import Quantra.Services.Catalog
import Quantra.Services.Dependency
import Mathlib.Data.List.GetD

/-! The order in which `ServiceManager::start_all` starts services: the bootstrap lane one by one,
then wave after wave, the services of a wave in parallel threads. -/
namespace Quantra.Services
open Levels

/-- The waves after the bootstrap lane. If the sort fails none are started. -/
def startupWaves (services : List Service) : List (List Service) :=
  match waveSortServices (remainingServices services) with
  | .ok waves => waves
  | .error _ => []

/-- The orders in which `start` may be called: threads of a wave run in any order, and some of them
may fail to spawn. -/
def StartOrder (boot : Boot) (strict : Bool) (services order : List Service) : Prop :=
  validateServiceCatalog services strict = .ok () ∧
    ∃ rest, Phases.IsOrder (startupWaves services) rest ∧
      order = bootstrapServices boot services ++ rest

/-- `a` orders itself after `b` by `dependencies` or `after`. -/
def NamesDep (a b : Service) : Prop := b.name ∈ a.dependencies ∨ b.name ∈ a.after

/-- `a` names `b` in any field that the documentation gives a start-up meaning. -/
def NamesAtBoot (boot : Boot) (a b : Service) : Prop :=
  NamesDep a b ∨ b.name ∈ a.milestone ∨
    ∃ condition, (b.name, condition) ∈ a.conditionalDependencies ∧ conditionHolds boot condition

instance (a b : Service) : Decidable (NamesDep a b) := inferInstanceAs (Decidable (_ ∨ _))

instance (boot : Boot) (a b : Service) : Decidable (NamesAtBoot boot a b) :=
  decidable_of_iff (NamesDep a b ∨ b.name ∈ a.milestone ∨
    ∃ p ∈ a.conditionalDependencies, p.1 = b.name ∧ conditionHolds boot p.2) <| by
      simp [NamesAtBoot, Prod.exists]

/-- The dependency graph of the parsed set, bootstrap services included. -/
def BootEdge (boot : Boot) (services : List Service) (a b : Service) : Prop :=
  a ∈ services ++ bootstrapServices boot services ∧
    b ∈ services ++ bootstrapServices boot services ∧ NamesAtBoot boot b a

/-- The plan respects `names` everywhere the wave sort does not see to it itself: in the fixed
lane, from the lane to the waves, and for names that are not resolved `after` or `dependencies`
edges. A level is the length of the longest chain of such edges. -/
structure PlanOrdered (boot : Boot) (names : Service → Service → Prop)
    (services : List Service) : Prop where
  lane : (bootstrapServices boot services).Pairwise fun a b => ¬ names a b
  laneFirst : ∀ a ∈ bootstrapServices boot services, ∀ b ∈ remainingServices services, ¬ names a b
  waves : ∀ u v a b i j, (remainingServices services)[u]? = some a →
    (remainingServices services)[v]? = some b → u ≠ v → names b a →
    ¬ PosEdge (remainingServices services) u v →
    AtLevel (PosEdge (remainingServices services)) i u →
    AtLevel (PosEdge (remainingServices services)) j v → i < j

/-! Waves seen from positions. -/

private theorem pairwise_wave_iff {services : List Service} {R : Service → Service → Prop}
    {wave : List ℕ} (hnodup : wave.Nodup) :
    (wave.filterMap (services[·]?)).Pairwise (fun a b => R a b ∧ R b a) ↔
      ∀ u ∈ wave, ∀ v ∈ wave, u ≠ v → ∀ a b, services[u]? = some a → services[v]? = some b →
        R a b := by
  rw [List.pairwise_filterMap]
  constructor
  · intro h u hu v hv hne a b ha hb
    have : Std.Symm fun x y : ℕ => ∀ b, services[x]? = some b → ∀ b', services[y]? = some b' →
        R b b' ∧ R b' b :=
      ⟨fun x y hxy b hb b' hb' => (hxy b' hb' b hb).symm⟩
    exact (h.forall hu hv hne a ha b hb).1
  · intro h
    refine hnodup.imp_of_mem fun hu hv hne a ha b hb => ?_
    exact ⟨h _ hu _ hv hne a b ha hb, h _ hv _ hu hne.symm b a hb ha⟩

/-- Every order of the waves respects `R` exactly when `R` holds from each level upwards. -/
theorem forall_isOrder_waves_iff {services : List Service} {waves : List (List Service)}
    {R : Service → Service → Prop} (h : waveSortServices services = .ok waves) :
    (∀ order, Phases.IsOrder waves order → order.Pairwise R) ↔
      ∀ u v a b i j, services[u]? = some a → services[v]? = some b → u ≠ v →
        AtLevel (PosEdge services) i u → AtLevel (PosEdge services) j v → i ≤ j → R a b := by
  obtain ⟨pos, rfl, hperm, hlevel⟩ := waveSortServices_ok h
  have hnodup : pos.flatten.Nodup := hperm.nodup_iff.2 List.nodup_range
  have hwave : ∀ i (hi : i < pos.length) v, v ∈ pos[i] ↔
      v < services.length ∧ AtLevel (PosEdge services) i v := by
    intro i hi v
    have hget := hlevel i v
    rwa [List.getD_eq_getElem _ _ hi] at hget
  have hindex : ∀ {i v a}, services[v]? = some a → AtLevel (PosEdge services) i v →
      ∃ hi : i < pos.length, v ∈ pos[i] := by
    intro i v a ha hv
    have hlt := (List.getElem?_eq_some_iff.1 ha).1
    have hmem := (hlevel i v).2 ⟨hlt, hv⟩
    have hi : i < pos.length := by
      by_contra hge
      rw [List.getD_eq_default _ _ (by omega)] at hmem
      cases hmem
    exact ⟨hi, (hwave i hi v).2 ⟨hlt, hv⟩⟩
  rw [Phases.forall_isOrder_pairwise_iff, List.pairwise_map]
  simp only [List.forall_mem_map]
  constructor
  · rintro ⟨hwithin, hcross⟩ u v a b i j ha hb hne hu hv hij
    obtain ⟨hi, hui⟩ := hindex ha hu
    obtain ⟨hj, hvj⟩ := hindex hb hv
    rcases Nat.eq_or_lt_of_le hij with rfl | hlt
    · have hpos := (List.nodup_flatten.1 hnodup).1 _ (List.getElem_mem hi)
      exact (pairwise_wave_iff hpos).1 (hwithin _ (List.getElem_mem hi)) u hui v hvj hne a b ha hb
    · exact List.pairwise_iff_getElem.1 hcross i j hi hj hlt a
        (List.mem_filterMap.2 ⟨u, hui, ha⟩) b (List.mem_filterMap.2 ⟨v, hvj, hb⟩)
  · intro hR
    constructor
    · intro wave hmem
      rw [pairwise_wave_iff ((List.nodup_flatten.1 hnodup).1 _ hmem)]
      obtain ⟨i, hi, rfl⟩ := List.mem_iff_getElem.1 hmem
      intro u hu v hv hne a b ha hb
      exact hR u v a b i i ha hb hne ((hwave i hi u).1 hu).2 ((hwave i hi v).1 hv).2 le_rfl
    · rw [List.pairwise_iff_getElem]
      intro i j hi hj hij a hmema b hmemb
      obtain ⟨u, hu, ha⟩ := List.mem_filterMap.1 hmema
      obtain ⟨v, hv, hb⟩ := List.mem_filterMap.1 hmemb
      have hui := ((hwave i hi u).1 hu).2
      have hvj := ((hwave j hj v).1 hv).2
      have hne : u ≠ v := by
        rintro rfl
        exact absurd (hui.unique hvj) (by omega)
      exact hR u v a b i j ha hb hne hui hvj (by omega)

theorem mem_waves_flatten {services : List Service} {waves : List (List Service)} {a : Service}
    (h : waveSortServices services = .ok waves) : a ∈ waves.flatten ↔ a ∈ services := by
  obtain ⟨pos, rfl, hperm, -⟩ := waveSortServices_ok h
  rw [← List.filterMap_flatten, List.mem_filterMap, List.mem_iff_getElem?]
  constructor
  · rintro ⟨v, -, ha⟩
    exact ⟨v, ha⟩
  · rintro ⟨v, ha⟩
    refine ⟨v, ?_, ha⟩
    rw [hperm.mem_iff, List.mem_range]
    exact (List.getElem?_eq_some_iff.1 ha).1

/-! The plan. -/

theorem startupWaves_ok {services : List Service} {waves : List (List Service)}
    (h : waveSortServices (remainingServices services) = .ok waves) :
    startupWaves services = waves := by
  simp [startupWaves, h]

/-- `PlanOrdered` is what every start order needs. -/
theorem forall_order_iff_planOrdered {boot : Boot} {names : Service → Service → Prop}
    {services : List Service} (hacyclic : Acyclic (PosEdge (remainingServices services))) :
    (∀ rest, Phases.IsOrder (startupWaves services) rest →
      (bootstrapServices boot services ++ rest).Pairwise fun a b => ¬ names a b) ↔
    PlanOrdered boot names services := by
  obtain ⟨waves, hwaves⟩ := (waveSortServices_ok_iff _).2 hacyclic
  rw [startupWaves_ok hwaves]
  constructor
  · intro h
    have hflat := List.pairwise_append.1 (h _ (Phases.isOrder_flatten waves))
    refine ⟨hflat.1, fun a ha b hb => ?_, fun u v a b i j ha hb hne hnames _ hu hv => ?_⟩
    · exact hflat.2.2 a ha b ((mem_waves_flatten hwaves).2 hb)
    · have hrest : ∀ order, Phases.IsOrder waves order → order.Pairwise fun a b => ¬ names a b :=
        fun order horder => (List.pairwise_append.1 (h order horder)).2.1
      by_contra hle
      exact (forall_isOrder_waves_iff hwaves).1 hrest v u b a j i hb ha hne.symm hv hu
        (by omega) hnames
  · intro hplan rest hrest
    have hwavesOrdered := (forall_isOrder_waves_iff (R := fun a b => ¬ names a b) hwaves).2 <| by
      intro u v a b i j ha hb hne hu hv hij hnames
      by_cases hedge : PosEdge (remainingServices services) v u
      · have hlt := hv.lt_of_edge hu hedge
        omega
      · have hlt := hplan.waves v u b a j i hb ha hne.symm hnames hedge hv hu
        omega
    refine List.pairwise_append.2 ⟨hplan.lane, hwavesOrdered rest hrest, fun a ha b hb => ?_⟩
    exact hplan.laneFirst a ha b ((mem_waves_flatten hwaves).1 (hrest.mem_flatten hb))

/-- An acyclic service set has acyclic remaining services, so its waves are never given up. -/
theorem acyclic_posEdge_of_bootEdge {boot : Boot} {services : List Service}
    (h : Acyclic (BootEdge boot services)) :
    Acyclic (PosEdge (remainingServices services)) := by
  refine .of_map (fun u => (remainingServices services).getD u default) (fun u v huv => ?_) h
  obtain ⟨hu, hv, hname⟩ := posEdge_map u v huv
  have hmem : ∀ {svc}, svc ∈ remainingServices services →
      svc ∈ services ++ bootstrapServices boot services :=
    fun hsvc => List.mem_append_left _ (mem_remainingServices.1 hsvc).1
  exact ⟨hmem hu, hmem hv, .inl hname.symm⟩

/-- `start_all` keeps every start order within the dependencies of an acyclic service set exactly
when its plan is ordered (or validation refuses the set). -/
theorem startOrder_respects_iff (boot : Boot) (strict : Bool) (services : List Service)
    (hacyclic : Acyclic (BootEdge boot services)) :
    (∀ order, StartOrder boot strict services order →
      order.Pairwise fun a b => ¬ NamesAtBoot boot a b) ↔
    (validateServiceCatalog services strict = .ok () →
      PlanOrdered boot (NamesAtBoot boot) services) := by
  rw [← forall_order_iff_planOrdered (acyclic_posEdge_of_bootEdge hacyclic)]
  constructor
  · intro h hvalid rest hrest
    exact h _ ⟨hvalid, rest, hrest, rfl⟩
  · rintro h order ⟨hvalid, rest, hrest, rfl⟩
    exact h hvalid rest hrest

/-- A machine with no files and an empty environment. -/
def bareBoot : Boot where
  pathExists _ := false
  envVar _ := none
  baseMap := []

/-- A numbering of names that grows along every reference shows the set acyclic. -/
theorem acyclic_bootEdge_of_rank {boot : Boot} {services : List Service} (rank : String → ℕ)
    (h : ∀ svc ∈ services ++ bootstrapServices boot services,
      ∀ name ∈ svc.dependencies ++ svc.after ++ svc.milestone ++
        svc.conditionalDependencies.map Prod.fst, rank name < rank svc.name) :
    Acyclic (BootEdge boot services) := by
  refine acyclic_of_rank (fun svc => rank svc.name) fun a b hab => ?_
  obtain ⟨-, hb, hnames⟩ := hab
  refine h b hb a.name ?_
  simp only [List.mem_append, List.mem_map]
  rcases hnames with (hdep | hafter) | hmilestone | ⟨condition, hcond, -⟩
  · exact .inl (.inl (.inl hdep))
  · exact .inl (.inl (.inr hafter))
  · exact .inl (.inr hmilestone)
  · exact .inr ⟨_, hcond, rfl⟩

private def rankOf (name : String) : ℕ :=
  ["quantra-netd", "quantra-net", "console-shell", "db", "app"].findIdx (· = name)

theorem startOrder_respects_pair :
    let app : Service := { name := "app", command := "/bin/app", after := ["db"] }
    let db : Service := { name := "db", command := "/bin/db" }
    ∀ order, StartOrder bareBoot true [app, db] order →
      order.Pairwise fun a b => ¬ NamesAtBoot bareBoot a b := by
  intro app db
  have hacyclic : Acyclic (BootEdge bareBoot [app, db]) :=
    acyclic_bootEdge_of_rank rankOf (by decide +kernel)
  refine (startOrder_respects_iff bareBoot true [app, db] hacyclic).2 fun _ => ?_
  refine ⟨by decide +kernel, by decide +kernel, ?_⟩
  intro u v a b i j ha hb hne hnames hedge hu hv
  have hu2 : u < 2 := (List.getElem?_eq_some_iff.1 ha).1
  have hv2 : v < 2 := (List.getElem?_eq_some_iff.1 hb).1
  -- the only name is the resolved `after` edge
  obtain rfl | rfl : u = 0 ∨ u = 1 := by omega
  · cases ha
    obtain rfl | rfl : v = 0 ∨ v = 1 := by omega
    · exact absurd rfl hne
    · cases hb
      exact absurd hnames (by decide)
  · cases ha
    obtain rfl | rfl : v = 0 ∨ v = 1 := by omega
    · have hresolved : 1 ∈ depsOf (remainingServices [app, db]) 0 := by decide +kernel
      exact absurd hresolved hedge
    · exact absurd rfl hne

/-- A milestone in the same wave may be started after the service that waits for it, although
the set is acyclic and passes strict validation. -/
theorem startOrder_ignores_milestone :
    let app : Service := { name := "app", command := "/bin/app", milestone := ["db"] }
    let db : Service := { name := "db", command := "/bin/db" }
    Acyclic (BootEdge bareBoot [app, db]) ∧
      ∃ order, StartOrder bareBoot true [app, db] order ∧
        ¬ order.Pairwise fun a b => ¬ NamesAtBoot bareBoot a b := by
  intro app db
  refine ⟨acyclic_bootEdge_of_rank rankOf (by decide +kernel),
    bootstrapServices bareBoot [app, db] ++ [app, db], ⟨by decide +kernel, [app, db], ?_, rfl⟩, ?_⟩
  · have hwaves : startupWaves [app, db] = [[app, db]] := rfl
    rw [hwaves]
    exact Phases.isOrder_flatten _
  · decide +kernel

end Quantra.Services
