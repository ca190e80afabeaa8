import Quantra.Lib.Runs
import Quantra.Services.BootPlan
import Quantra.Services.Launch

/-! `ServiceManager`: the vector of supervisors from boot through on-demand starts and stops to
the shutdown that walks it backwards. A call of `ServiceSupervisor::start` is seen from here by
its result only. -/
namespace Quantra.Manager
open Quantra.Services

/-- What the manager sees of a supervisor. -/
structure Supervisor where
  service : Service
  running : Bool

/-- How a call of `start` ended and what it left in `running`: `Ok` with unmet conditions leaves
`false`, a monitor that cannot be spawned gives `Err` and leaves `true`. -/
structure StartResult where
  outcome : Except String Unit
  running : Bool

structure ServiceManager where
  supervisors : List Supervisor
  catalog : Catalog
  startedCount : ℕ
  failedCount : ℕ
  globalEnv : EnvMap

/-- Build the manager. `lane` are the results of the bootstrap services and `thread` those of the
services in the waves, `none` for a thread that could not be spawned or panicked. -/
def startAll (boot : Boot) (strict : Bool) (services : List Service) (lane : ℕ → StartResult)
    (thread : ℕ → Option StartResult) : Except String ServiceManager := do
  validateServiceCatalog services strict
  let launched := (bootstrapServices boot services).zipIdx.map fun p => (p.1, lane p.2)
  let wave := (startupWaves services).flatten.zipIdx
  let joined := wave.filterMap fun p => (thread p.2).map fun result => (p.1, result)
  let results := launched ++ joined
  .ok {
    supervisors := results.map fun p => ⟨p.1, p.2.running⟩
    catalog := buildCatalog boot services
    startedCount := results.countP fun p => p.2.outcome.isOk
    failedCount := results.countP (fun p => !p.2.outcome.isOk) + (wave.length - joined.length)
    globalEnv := ∅ }

namespace ServiceManager

/-- The first supervisor of that name. -/
def find (m : ServiceManager) (name : String) : Option ℕ :=
  m.supervisors.findIdx? (·.service.name = name)

def setRunning (m : ServiceManager) (index : ℕ) (running : Bool) : ServiceManager :=
  { m with supervisors := m.supervisors.modify index fun sup => { sup with running } }

def push (m : ServiceManager) (service : Service) (running : Bool) : ServiceManager :=
  { m with supervisors := m.supervisors ++ [⟨service, running⟩] }

/-- The supervisor is kept only if its first start succeeds. -/
def activate (m : ServiceManager) (service : Service) (result : StartResult) :
    ServiceManager × Except String Unit :=
  match result.outcome with
  | .ok () => (m.push service result.running, .ok ())
  | .error e => (m, .error e)

def startNamedService (m : ServiceManager) (name : String) (result : StartResult) :
    ServiceManager × Except String Unit :=
  match m.find name with
  | some index =>
    if (m.supervisors[index]?).any (·.running) then (m, .ok ())
    else (m.setRunning index result.running, result.outcome)
  | none =>
    match m.catalog name with
    | none => (m, .error ("Unknown service '" ++ name ++ "' requested"))
    | some service => m.activate service result

def addAndStartTransient (m : ServiceManager) (service : Service) (result : StartResult) :
    ServiceManager × Except String Unit :=
  m.activate service result

def stopNamedService (m : ServiceManager) (name : String) : ServiceManager × Except String Unit :=
  match m.find name with
  | some index => (m.setRunning index false, .ok ())
  | none => (m, .error ("Unknown service '" ++ name ++ "' requested"))

def setEnv (m : ServiceManager) (key : String) : Option String → ServiceManager
  | some value => { m with globalEnv := m.globalEnv.insert key value }
  | none => { m with globalEnv := m.globalEnv.erase key }

def insertName (names : List String) (name : String) : List String :=
  if name ∈ names then names else names ++ [name]

/-- Runtime edges change the catalog only. -/
def addDep (m : ServiceManager) (src dst depType : String) : ServiceManager :=
  match m.catalog src with
  | none => m
  | some svc =>
    let svc := if depType = "need" ∨ depType = "regular" then
        { svc with dependencies := insertName svc.dependencies dst }
      else if depType = "milestone" then { svc with milestone := insertName svc.milestone dst }
      else { svc with after := insertName svc.after dst }
    { m with catalog := Function.update m.catalog src (some svc) }

def rmDep (m : ServiceManager) (src dst : String) : ServiceManager :=
  match m.catalog src with
  | none => m
  | some svc =>
    let svc := { svc with
      dependencies := svc.dependencies.filter (· ≠ dst)
      wants := svc.wants.filter (· ≠ dst)
      milestone := svc.milestone.filter (· ≠ dst)
      after := svc.after.filter (· ≠ dst) }
    { m with catalog := Function.update m.catalog src (some svc) }

/-- The supervisors in the order in which `stop_all` stops them. -/
def stopAllOrder (m : ServiceManager) : List Supervisor := m.supervisors.reverse

end ServiceManager

/-- What happens to a manager. `running` is a write to the shared flag by a monitor, watchdog or
healthcheck thread. -/
inductive Event
  | startNamed (name : String) (result : StartResult)
  | stopNamed (name : String)
  | transient (service : Service) (result : StartResult)
  | setEnv (key : String) (value : Option String)
  | addDep (src dst depType : String)
  | rmDep (src dst : String)
  | running (index : ℕ) (value : Bool)

def step (m : ServiceManager) : Event → Option ServiceManager
  | .startNamed name result => some (m.startNamedService name result).1
  | .stopNamed name => some (m.stopNamedService name).1
  | .transient service result => some (m.addAndStartTransient service result).1
  | .setEnv key value => some (m.setEnv key value)
  | .addDep src dst depType => some (m.addDep src dst depType)
  | .rmDep src dst => some (m.rmDep src dst)
  | .running index value => some (m.setRunning index value)

/-! Shutdown order. -/

/-- `stop_all` stops every running service before the running services it depends on. -/
def StopsInOrder (m : ServiceManager) : Prop :=
  m.stopAllOrder.Pairwise fun first later =>
    first.running → later.running → ¬ NamesDep later.service first.service

def ServiceManager.services (m : ServiceManager) : List Service := m.supervisors.map (·.service)

/-- The vector is in forward dependency order. -/
def Forward (m : ServiceManager) : Prop := m.services.Pairwise fun a b => ¬ NamesDep a b

/-- The service that an event would append to the vector. -/
def appended (m : ServiceManager) : Event → Option Service
  | .startNamed name _ => if m.find name = none then m.catalog name else none
  | .transient service _ => some service
  | _ => none

/-- A new supervisor is not named by one that is already there. -/
def OrderlyStep (m : ServiceManager) (e : Event) : Prop :=
  ∀ svc, appended m e = some svc → ∀ sup ∈ m.supervisors, ¬ NamesDep sup.service svc

theorem stopsInOrder_of_forward {m : ServiceManager} (h : Forward m) : StopsInOrder m := by
  unfold StopsInOrder ServiceManager.stopAllOrder
  rw [List.pairwise_reverse]
  unfold Forward ServiceManager.services at h
  rw [List.pairwise_map] at h
  exact h.imp fun hnot _ _ => hnot

@[simp] theorem services_setRunning (m : ServiceManager) (index : ℕ) (running : Bool) :
    (m.setRunning index running).services = m.services := by
  unfold ServiceManager.services ServiceManager.setRunning
  refine List.ext_getElem? fun i => ?_
  simp only [List.getElem?_map, List.getElem?_modify]
  by_cases hi : index = i
  · subst hi
    cases m.supervisors[index]? <;> simp
  · simp [hi]

@[simp] theorem services_push (m : ServiceManager) (service : Service) (running : Bool) :
    (m.push service running).services = m.services ++ [service] := by
  simp [ServiceManager.services, ServiceManager.push]

/-- An activation keeps the vector or appends the activated service. -/
theorem services_activate (m : ServiceManager) (service : Service) (result : StartResult) :
    (m.activate service result).1.services = m.services ∨
      (m.activate service result).1.services = m.services ++ [service] := by
  unfold ServiceManager.activate
  cases result.outcome with
  | error e => exact .inl rfl
  | ok _ => exact .inr (services_push m service result.running)

@[simp] theorem services_stopNamedService (m : ServiceManager) (name : String) :
    (m.stopNamedService name).1.services = m.services := by
  unfold ServiceManager.stopNamedService
  cases m.find name with
  | none => rfl
  | some index => exact services_setRunning m index false

@[simp] theorem supervisors_setEnv (m : ServiceManager) (key : String) (value : Option String) :
    (m.setEnv key value).supervisors = m.supervisors := by
  cases value <;> rfl

@[simp] theorem supervisors_addDep (m : ServiceManager) (src dst depType : String) :
    (m.addDep src dst depType).supervisors = m.supervisors := by
  unfold ServiceManager.addDep
  cases m.catalog src <;> rfl

@[simp] theorem supervisors_rmDep (m : ServiceManager) (src dst : String) :
    (m.rmDep src dst).supervisors = m.supervisors := by
  unfold ServiceManager.rmDep
  cases m.catalog src <;> rfl

/-- All a step can do to the vector. -/
theorem services_step {m m' : ServiceManager} {e : Event} (h : step m e = some m') :
    m'.services = m.services ∨
      ∃ svc, appended m e = some svc ∧ m'.services = m.services ++ [svc] := by
  cases e with
  | startNamed name result =>
    cases h
    unfold ServiceManager.startNamedService
    cases hfind : m.find name with
    | some index =>
      left
      dsimp only
      split
      · rfl
      · exact services_setRunning m index result.running
    | none =>
      cases hcat : m.catalog name with
      | none => exact .inl rfl
      | some svc =>
        rcases services_activate m svc result with hsame | happ
        · exact .inl hsame
        · exact .inr ⟨svc, by simp [appended, hfind, hcat], happ⟩
  | stopNamed name =>
    cases h
    exact .inl (services_stopNamedService m name)
  | transient service result =>
    cases h
    rcases services_activate m service result with hsame | happ
    · exact .inl hsame
    · exact .inr ⟨service, rfl, happ⟩
  | setEnv key value =>
    cases h
    exact .inl (by simp [ServiceManager.services])
  | addDep src dst depType =>
    cases h
    exact .inl (by simp [ServiceManager.services])
  | rmDep src dst =>
    cases h
    exact .inl (by simp [ServiceManager.services])
  | running index value =>
    cases h
    exact .inl (services_setRunning m index value)

theorem catalog_activate (m : ServiceManager) (service : Service) (result : StartResult) :
    (m.activate service result).1.catalog = m.catalog := by
  unfold ServiceManager.activate
  cases result.outcome <;> rfl

theorem catalog_startNamedService (m : ServiceManager) (name : String) (result : StartResult) :
    (m.startNamedService name result).1.catalog = m.catalog := by
  unfold ServiceManager.startNamedService
  cases m.find name with
  | some index =>
    dsimp only
    split <;> rfl
  | none =>
    cases m.catalog name with
    | none => rfl
    | some service => exact catalog_activate m service result

@[simp] theorem catalog_stopNamedService (m : ServiceManager) (name : String) :
    (m.stopNamedService name).1.catalog = m.catalog := by
  unfold ServiceManager.stopNamedService
  cases m.find name <;> rfl

@[simp] theorem catalog_setEnv (m : ServiceManager) (key : String) (value : Option String) :
    (m.setEnv key value).catalog = m.catalog := by
  cases value <;> rfl

/-- The catalog is kept, or one of its services is replaced by one of the same name. -/
inductive Edited (c : Catalog) : Catalog → Prop
  | kept : Edited c c
  | replaced {src : String} {svc svc' : Service} (hsrc : c src = some svc)
      (hname : svc'.name = svc.name) : Edited c (Function.update c src (some svc'))

theorem edited_addDep (m : ServiceManager) (src dst depType : String) :
    Edited m.catalog (m.addDep src dst depType).catalog := by
  unfold ServiceManager.addDep
  cases hsrc : m.catalog src with
  | none => exact .kept
  | some svc =>
    refine .replaced hsrc ?_
    split
    · rfl
    · split <;> rfl

theorem edited_rmDep (m : ServiceManager) (src dst : String) :
    Edited m.catalog (m.rmDep src dst).catalog := by
  unfold ServiceManager.rmDep
  cases hsrc : m.catalog src with
  | none => exact .kept
  | some svc => exact .replaced hsrc rfl

/-- All a step can do to the catalog. -/
theorem edited_step {m m' : ServiceManager} {e : Event} (h : step m e = some m') :
    Edited m.catalog m'.catalog := by
  cases e with
  | startNamed name result =>
    cases h
    rw [catalog_startNamedService]
    exact .kept
  | stopNamed name =>
    cases h
    rw [catalog_stopNamedService]
    exact .kept
  | transient service result =>
    cases h
    unfold ServiceManager.addAndStartTransient
    rw [catalog_activate]
    exact .kept
  | setEnv key value =>
    cases h
    rw [catalog_setEnv]
    exact .kept
  | addDep src dst depType =>
    cases h
    exact edited_addDep m src dst depType
  | rmDep src dst =>
    cases h
    exact edited_rmDep m src dst
  | running index value =>
    cases h
    exact .kept

theorem Edited.isSome {c c' : Catalog} (h : Edited c c') (name : String) :
    (c' name).isSome = (c name).isSome := by
  cases h with
  | kept => rfl
  | @replaced src svc svc' hsrc _ =>
    by_cases hname : name = src
    · rw [hname, Function.update_self, hsrc]
      rfl
    · rw [Function.update_of_ne hname]

/-- No event takes a service out of the catalog. -/
theorem catalog_isSome_step {m m' : ServiceManager} {e : Event}
    (h : step m e = some m') {name : String} (hname : (m.catalog name).isSome) :
    (m'.catalog name).isSome := by
  rwa [(edited_step h).isSome]

theorem forward_step {m m' : ServiceManager} {e : Event} (hm : Forward m) (hok : OrderlyStep m e)
    (h : step m e = some m') : Forward m' := by
  unfold Forward
  rcases services_step h with hsame | ⟨svc, happ, hsvcs⟩
  · rw [hsame]
    exact hm
  · rw [hsvcs, List.pairwise_append]
    refine ⟨hm, List.pairwise_singleton _ _, fun a ha b hb => ?_⟩
    obtain ⟨sup, hsup, rfl⟩ := List.mem_map.1 ha
    rw [List.mem_singleton] at hb
    subst hb
    exact hok b happ sup hsup

/-- The joined threads of the waves, in wave order. -/
private theorem joined_sublist (thread : ℕ → Option StartResult) (l : List Service) (k : ℕ) :
    (((l.zipIdx k).filterMap fun p => (thread p.2).map fun result => (p.1, result)).map
      Prod.fst).Sublist l := by
  induction l generalizing k with
  | nil => exact List.Sublist.refl _
  | cons svc l ih =>
    rw [List.zipIdx_cons, List.filterMap_cons]
    cases thread k with
    | none => exact (ih (k + 1)).cons svc
    | some result => exact (ih (k + 1)).cons_cons svc

/-- Boot goes on only with a valid catalog of services, and keeps it. -/
theorem startAll_eq_ok {boot : Boot} {strict : Bool} {services : List Service}
    {lane : ℕ → StartResult} {thread : ℕ → Option StartResult} {m : ServiceManager}
    (h : startAll boot strict services lane thread = .ok m) :
    validateServiceCatalog services strict = .ok () ∧ m.catalog = buildCatalog boot services ∧
      m.services = bootstrapServices boot services ++
        ((startupWaves services).flatten.zipIdx.filterMap fun p =>
          (thread p.2).map fun result => (p.1, result)).map Prod.fst := by
  unfold startAll at h
  cases hvalid : validateServiceCatalog services strict with
  | error e =>
    rw [hvalid] at h
    cases h
  | ok _ =>
    rw [hvalid] at h
    cases h
    refine ⟨rfl, rfl, ?_⟩
    simp only [ServiceManager.services, List.map_append, List.map_map, Function.comp_def]
    rw [show (fun x : Service × ℕ => x.1) = Prod.fst from rfl, List.zipIdx_map_fst]

/-- The vector after boot is one of the start orders. -/
theorem startAll_services {boot : Boot} {strict : Bool} {services : List Service}
    {lane : ℕ → StartResult} {thread : ℕ → Option StartResult} {m : ServiceManager}
    (h : startAll boot strict services lane thread = .ok m) :
    StartOrder boot strict services m.services := by
  obtain ⟨hvalid, -, hservices⟩ := startAll_eq_ok h
  have hsub := joined_sublist thread (startupWaves services).flatten 0
  exact ⟨hvalid, _, Phases.isOrder_of_sublist hsub, hservices⟩

theorem forward_startAll {boot : Boot} {strict : Bool} {services : List Service}
    {lane : ℕ → StartResult} {thread : ℕ → Option StartResult} {m : ServiceManager}
    (h : startAll boot strict services lane thread = .ok m)
    (hplan : PlanOrdered boot NamesDep services) : Forward m := by
  obtain ⟨-, rest, hrest, hservices⟩ := startAll_services h
  unfold Forward
  rw [hservices]
  by_cases hacyclic : Levels.Acyclic (PosEdge (remainingServices services))
  · exact (forall_order_iff_planOrdered hacyclic).2 hplan rest hrest
  · -- the sort reported a cycle: only the lane was started
    have hnone : startupWaves services = [] := by
      unfold startupWaves
      cases hsort : waveSortServices (remainingServices services) with
      | error e => rfl
      | ok waves => exact absurd ((waveSortServices_ok_iff _).1 ⟨waves, hsort⟩) hacyclic
    rw [hnone] at hrest
    have hempty : rest = [] :=
      List.eq_nil_iff_forall_not_mem.2 fun a ha => List.not_mem_nil (hrest.mem_flatten ha)
    rw [hempty, List.append_nil]
    exact hplan.lane

/-- Shutdown order along every run in which the plan is ordered and each new supervisor is not
named by an older one. -/
theorem stopsInOrder_of_reach (boot : Boot) (strict : Bool) (services : List Service)
    (lane : ℕ → StartResult) (thread : ℕ → Option StartResult) (m m' : ServiceManager)
    (hplan : PlanOrdered boot NamesDep services)
    (hstart : startAll boot strict services lane thread = .ok m)
    (hreach : Runs.Reach step OrderlyStep m m') : StopsInOrder m' := by
  have hforward : Forward m' := hreach.invariant forward_step (forward_startAll hstart hplan)
  exact stopsInOrder_of_forward hforward

instance (m : ServiceManager) : Decidable (StopsInOrder m) :=
  inferInstanceAs (Decidable (List.Pairwise _ _))

instance (m : ServiceManager) (e : Event) : Decidable (OrderlyStep m e) :=
  decidable_of_iff (∀ svc ∈ appended m e, ∀ sup ∈ m.supervisors, ¬ NamesDep sup.service svc)
    Iff.rfl

/-- A start that succeeds. -/
def up : StartResult := ⟨.ok (), true⟩

theorem stopsInOrder_of_reach_portal :
    let portal : Service := { name := "portal", command := "/bin/portal", launcher := true }
    ∃ m m', startAll bareBoot true [portal] (fun _ => up) (fun _ => some up) = .ok m ∧
      Runs.Reach step OrderlyStep m m' ∧ m'.services.length = 4 ∧ StopsInOrder m' := by
  intro portal
  have hplan : PlanOrdered bareBoot NamesDep [portal] := by
    refine ⟨by decide +kernel, by decide +kernel, ?_⟩
    intro u v a b i j ha
    cases ha
  have hrun : ((startAll bareBoot true [portal] (fun _ => up) (fun _ => some up)).toOption.map
      fun m => decide (OrderlyStep m (.startNamed "portal" up) ∧
        (m.startNamedService "portal" up).1.services.length = 4)) = some true := by
    decide +kernel
  cases hm : startAll bareBoot true [portal] (fun _ => up) (fun _ => some up) with
  | error e =>
    rw [hm] at hrun
    cases hrun
  | ok m =>
    rw [hm] at hrun
    have hboth := of_decide_eq_true (Option.some.inj hrun)
    have hreach : Runs.Reach step OrderlyStep m (m.startNamedService "portal" up).1 :=
      .tail .refl hboth.1 rfl
    exact ⟨m, _, rfl, hreach, hboth.2,
      stopsInOrder_of_reach bareBoot true [portal] _ _ m _ hplan hm hreach⟩

/-- Starting a launcher on demand after a service that depends on it: the launcher is appended
at the end, and shutdown stops it first. -/
theorem stopAll_stops_launcher_first :
    let app : Service := { name := "app", command := "/bin/app", after := ["portal"] }
    let portal : Service := { name := "portal", command := "/bin/portal", launcher := true }
    ∃ m m', startAll bareBoot true [app, portal] (fun _ => up) (fun _ => some up) = .ok m ∧
      Runs.Reach step (fun _ _ => True) m m' ∧ ¬ StopsInOrder m' := by
  intro app portal
  have hrun : ((startAll bareBoot true [app, portal] (fun _ => up) (fun _ => some up)).toOption.map
      fun m => decide (StopsInOrder (m.startNamedService "portal" up).1)) = some false := by
    decide +kernel
  cases hm : startAll bareBoot true [app, portal] (fun _ => up) (fun _ => some up) with
  | error e =>
    rw [hm] at hrun
    cases hrun
  | ok m =>
    rw [hm] at hrun
    have hreach : Runs.Reach step (fun _ _ => True) m (m.startNamedService "portal" up).1 :=
      .tail (e := .startNamed "portal" up) .refl trivial rfl
    exact ⟨m, _, rfl, hreach, of_decide_eq_false (Option.some.inj hrun)⟩

end Quantra.Manager
