import Quantra.Services.Manager

/-! `ServiceManager::start_named_service` and the dependencies in the catalog, which `add_dep` and
`rm_dep` edit at run time. -/
namespace Quantra.Manager
open Quantra.Services

/-- The calls on a manager after boot. `launched` tells whether a call of `start` comes to start a
process: unmet conditions, a failed hook and a failed launch leave it without one. -/
inductive Request
  | startNamed (name : String) (result : StartResult) (launched : Bool)
  | stopNamed (name : String)
  | transient (service : Service) (result : StartResult)
  | setEnv (key : String) (value : Option String)
  | addDep (src dst depType : String)
  | rmDep (src dst : String)
  | running (index : ℕ) (value : Bool)

def Request.event : Request → Event
  | .startNamed name result _ => .startNamed name result
  | .stopNamed name => .stopNamed name
  | .transient service result => .transient service result
  | .setEnv key value => .setEnv key value
  | .addDep src dst depType => .addDep src dst depType
  | .rmDep src dst => .rmDep src dst
  | .running index value => .running index value

namespace ServiceManager

/-- What `get_service_status` says of `running`. -/
def isRunning (m : ServiceManager) (name : String) : Bool :=
  ((m.find name).bind fun index => m.supervisors[index]?).any (·.running)

/-- The service that `start_named_service` calls `start` for: the copy of the first supervisor of
that name unless it is running, else the entry of the catalog. -/
def toStart (m : ServiceManager) (name : String) : Option Service :=
  match m.find name with
  | some index => (m.supervisors[index]?).bind fun sup => if sup.running then none else sup.service
  | none => m.catalog name

/-- The hard dependencies in the catalog. -/
def requires (m : ServiceManager) (name : String) : List String :=
  ((m.catalog name).map (·.dependencies)).getD []

end ServiceManager

/-- A launch by `start_named_service`, with the dependencies that were not running then. -/
structure Launch where
  name : String
  missing : List String
  deriving DecidableEq, Repr

/-- The manager, and the launches since boot. -/
structure Logged where
  manager : ServiceManager
  launches : List Launch

/-- The launch that a request makes. -/
def launchOf (m : ServiceManager) : Request → Option Launch
  | .startNamed name _ true =>
    (m.toStart name).map fun _ => ⟨name, (m.requires name).filter fun dep => !m.isRunning dep⟩
  | _ => none

def Logged.step (s : Logged) (r : Request) : Option Logged :=
  (Manager.step s.manager r.event).map fun manager =>
    { manager, launches := s.launches ++ (launchOf s.manager r).toList }

/-- Every service was launched with its dependencies running. -/
def DependenciesFirst (s : Logged) : Prop := ∀ l ∈ s.launches, l.missing = []

/-- The services that boot started, as they stand in the vector. -/
def bootResults (boot : Boot) (services : List Service) (lane : ℕ → StartResult)
    (thread : ℕ → Option StartResult) : List (Service × StartResult) :=
  ((bootstrapServices boot services).zipIdx.map fun p => (p.1, lane p.2)) ++
    (startupWaves services).flatten.zipIdx.filterMap fun p =>
      (thread p.2).map fun result => (p.1, result)

/-! What the calls since boot, the last one first, say of a service. -/

section History
variable (booted : List (Service × StartResult)) (catalog : Catalog)

/-- The names of the supervisors: one is added by a call that starts an unknown one, or a transient
one, without an error. -/
def seats : List Request → List String
  | [] => booted.map fun p => p.1.name
  | .startNamed name result _ :: past =>
    if name ∉ seats past ∧ (catalog name).isSome ∧ result.outcome.isOk then seats past ++ [name]
    else seats past
  | .transient service result :: past =>
    if result.outcome.isOk then seats past ++ [service.name] else seats past
  | _ :: past => seats past

/-- The call, or the thread, brings the service up. -/
def BringsUp (dep : String) (past : List Request) : Request → Prop
  | .startNamed name result _ => name = dep ∧ result.running ∧
      (dep ∈ seats booted catalog past ∨ (catalog dep).isSome ∧ result.outcome.isOk)
  | .transient service result => service.name = dep ∧ result.running ∧ result.outcome.isOk ∧
      dep ∉ seats booted catalog past
  | .running index value => value ∧ (seats booted catalog past).idxOf? dep = some index
  | _ => False

/-- The call stops the service, or a thread finds that it is gone. -/
def TakesDown (dep : String) (past : List Request) : Request → Prop
  | .stopNamed name => name = dep
  | .running index value => value = false ∧ (seats booted catalog past).idxOf? dep = some index
  | _ => False

/-- The service was brought up by boot or a call, and has not been taken down since. -/
inductive Up (dep : String) : List Request → Prop
  | boot {service : Service} {result : StartResult}
      (hfirst : booted.find? (fun p => p.1.name = dep) = some (service, result))
      (hrunning : result.running) : Up dep []
  | brought {past : List Request} {r : Request} (hup : BringsUp booted catalog dep past r) :
      Up dep (r :: past)
  | stayed {past : List Request} {r : Request} (hup : Up dep past)
      (hstays : ¬TakesDown booted catalog dep past r) : Up dep (r :: past)

/-- The catalog has the dependency from boot, or from a call of `add_dep`, and it has not been
removed since. -/
inductive Edge (name dep : String) : List Request → Prop
  | boot {service : Service} (hname : catalog name = some service)
      (hdep : dep ∈ service.dependencies) : Edge name dep []
  | added {past : List Request} {depType : String} (hname : (catalog name).isSome)
      (htype : depType = "need" ∨ depType = "regular") :
      Edge name dep (.addDep name dep depType :: past)
  | kept {past : List Request} {r : Request} (hedge : Edge name dep past)
      (hstays : r ≠ .rmDep name dep) : Edge name dep (r :: past)

/-- A service that is not up is started only when all it depends on is. -/
def Ready (past : List Request) : Request → Prop
  | .startNamed name _ _ => ¬Up booted catalog name past →
      ∀ dep, Edge catalog name dep past → Up booted catalog dep past
  | _ => True

/-- All calls to come are ready. -/
def AllReady : List Request → List Request → Prop
  | _, [] => True
  | past, r :: rs => Ready booted catalog past r ∧ AllReady (r :: past) rs

end History

/-- Every entry of the catalog is that of a service of the name. -/
def Named (catalog : Catalog) : Prop := ∀ name service, catalog name = some service → service.name = name

/-- What the calls so far say is what the manager has. -/
structure Tracks (booted : List (Service × StartResult)) (catalog : Catalog) (past : List Request)
    (m : ServiceManager) : Prop where
  seats : m.services.map (·.name) = seats booted catalog past
  up : ∀ dep, m.isRunning dep ↔ Up booted catalog dep past
  edges : ∀ name dep, dep ∈ m.requires name ↔ Edge catalog name dep past
  known : ∀ name, (m.catalog name).isSome = (catalog name).isSome
  named : Named m.catalog

section Manager
variable {m m' : ServiceManager} {name dep : String} {index : ℕ} {value : Bool} {service : Service}

theorem not_isRunning_of_find (h : m.find name = none) : ¬m.isRunning name := by
  simp [ServiceManager.isRunning, h]

/-- Only the supervisors tell what is running. -/
theorem isRunning_congr (h : m'.supervisors = m.supervisors) : m'.isRunning dep = m.isRunning dep := by
  unfold ServiceManager.isRunning ServiceManager.find
  rw [h]

theorem find_eq_idxOf? : m.find name = (m.services.map (·.name)).idxOf? name := by
  rw [ServiceManager.services, List.map_map, List.idxOf?, List.findIdx?_map]
  rfl

/-- The supervisor that is found is there, with the name. -/
theorem exists_of_find (h : m.find name = some index) :
    ∃ sup, m.supervisors[index]? = some sup ∧ sup.service.name = name := by
  obtain ⟨hlt, hname, -⟩ := List.findIdx?_eq_some_iff_getElem.1 h
  exact ⟨_, List.getElem?_eq_getElem hlt, by simpa using hname⟩

theorem find_ne_of_ne (h : m.find name = some index) (hne : dep ≠ name) :
    m.find dep ≠ some index := by
  intro hdep
  obtain ⟨sup, hsup, rfl⟩ := exists_of_find h
  obtain ⟨sup', hsup', rfl⟩ := exists_of_find hdep
  rw [hsup] at hsup'
  cases hsup'
  exact hne rfl

@[simp] theorem find_setRunning : (m.setRunning index value).find dep = m.find dep := by
  rw [find_eq_idxOf?, find_eq_idxOf?, services_setRunning]

/-- A flag that is set is seen by the name of which it is the first. -/
theorem isRunning_setRunning : (m.setRunning index value).isRunning dep =
    if m.find dep = some index then value else m.isRunning dep := by
  unfold ServiceManager.isRunning
  rw [find_setRunning]
  cases hfind : m.find dep with
  | none => rfl
  | some k =>
    obtain ⟨sup, hsup, -⟩ := exists_of_find hfind
    rw [Option.bind_some, Option.bind_some, ServiceManager.setRunning, List.getElem?_modify, hsup]
    by_cases hk : k = index
    · simp [hk]
    · simp [hk, Ne.symm hk]

/-- A supervisor that is added is seen only if it is the first of its name. -/
theorem isRunning_push : (m.push service value).isRunning dep =
    if m.find dep = none ∧ service.name = dep then value else m.isRunning dep := by
  have hfind : (m.push service value).find dep =
      (m.find dep).or (if service.name = dep then some m.supervisors.length else none) := by
    unfold ServiceManager.find ServiceManager.push
    rw [List.findIdx?_append]
    by_cases hname : service.name = dep <;> simp [List.findIdx?_cons, hname]
  unfold ServiceManager.isRunning
  rw [hfind]
  cases hdep : m.find dep with
  | none =>
    by_cases hname : service.name = dep <;> simp [ServiceManager.push, hname]
  | some k =>
    obtain ⟨sup, hsup, -⟩ := exists_of_find hdep
    have hlt := (List.getElem?_eq_some_iff.1 hsup).1
    simp [ServiceManager.push, List.getElem?_append_left hlt]

/-- What `start_named_service` can do to the manager. -/
inductive Starts (m : ServiceManager) (name : String) (result : StartResult) : ServiceManager → Prop
  | running {index : ℕ} (hfind : m.find name = some index) (hrunning : m.isRunning name) :
    Starts m name result m
  | again {index : ℕ} (hfind : m.find name = some index) (hdown : ¬m.isRunning name) :
    Starts m name result (m.setRunning index result.running)
  | first {service : Service} (hfind : m.find name = none)
      (hknown : m.catalog name = some service) (hok : result.outcome.isOk) :
    Starts m name result (m.push service result.running)
  | failed (hfind : m.find name = none)
      (hnot : m.catalog name = none ∨ ¬result.outcome.isOk) : Starts m name result m

theorem starts_startNamedService (m : ServiceManager) (name : String) (result : StartResult) :
    Starts m name result (m.startNamedService name result).1 := by
  have hrunning : m.isRunning name = ((m.find name).bind fun index =>
      m.supervisors[index]?).any (·.running) := rfl
  unfold ServiceManager.startNamedService
  cases hfind : m.find name with
  | some index =>
    rw [hfind, Option.bind_some] at hrunning
    dsimp only
    split
    · rename_i h
      exact .running hfind (hrunning.trans h)
    · rename_i h
      exact .again hfind fun hup => h (hrunning.symm.trans hup)
  | none =>
    cases hknown : m.catalog name with
    | none => exact .failed hfind (.inl hknown)
    | some service =>
      unfold ServiceManager.activate
      cases hout : result.outcome with
      | error e => exact .failed hfind (.inr (by simp [hout, Except.isOk, Except.toBool]))
      | ok _ => exact .first hfind hknown (by simp [hout, Except.isOk, Except.toBool])

/-- What `add_and_start_transient` does. -/
theorem addAndStartTransient_eq (m : ServiceManager) (service : Service) (result : StartResult) :
    (m.addAndStartTransient service result).1 =
      if result.outcome.isOk then m.push service result.running else m := by
  unfold ServiceManager.addAndStartTransient ServiceManager.activate
  cases result.outcome <;> rfl

theorem mem_insertName {names : List String} {other : String} :
    other ∈ ServiceManager.insertName names name ↔ other ∈ names ∨ other = name := by
  unfold ServiceManager.insertName
  split
  · rename_i hmem
    refine ⟨.inl, ?_⟩
    rintro (hother | rfl)
    · exact hother
    · exact hmem
  · simp

theorem requires_addDep {src dst depType : String} : dep ∈ (m.addDep src dst depType).requires name ↔
    (src = name ∧ dst = dep ∧ (m.catalog name).isSome ∧ (depType = "need" ∨ depType = "regular")) ∨
      dep ∈ m.requires name := by
  unfold ServiceManager.requires ServiceManager.addDep
  cases hsrc : m.catalog src with
  | none =>
    refine ⟨.inr, ?_⟩
    rintro (⟨rfl, -, hsome, -⟩ | hdep)
    · rw [hsrc] at hsome
      cases hsome
    · exact hdep
  | some service =>
    dsimp only
    by_cases hname : src = name
    · subst hname
      rw [Function.update_self, hsrc]
      by_cases htype : depType = "need" ∨ depType = "regular"
      · rw [if_pos htype, Option.map_some, Option.getD_some, mem_insertName, Option.map_some,
          Option.getD_some]
        refine ⟨fun hdep => hdep.symm.imp_left fun hdst => ⟨rfl, hdst.symm, rfl, htype⟩, ?_⟩
        rintro (⟨-, hdst, -⟩ | hdep)
        · exact .inr hdst.symm
        · exact .inl hdep
      · rw [if_neg htype, or_iff_right fun hadded => htype hadded.2.2.2]
        split <;> exact .rfl
    · rw [Function.update_of_ne (Ne.symm hname)]
      simp [hname]

theorem requires_rmDep {src dst : String} : dep ∈ (m.rmDep src dst).requires name ↔
    dep ∈ m.requires name ∧ ¬(src = name ∧ dst = dep) := by
  unfold ServiceManager.requires ServiceManager.rmDep
  cases hsrc : m.catalog src with
  | none =>
    refine ⟨fun hdep => ⟨hdep, ?_⟩, And.left⟩
    rintro ⟨rfl, -⟩
    rw [hsrc] at hdep
    cases hdep
  | some service =>
    dsimp only
    by_cases hname : src = name
    · subst hname
      rw [Function.update_self, hsrc, Option.map_some, Option.getD_some, List.mem_filter,
        decide_eq_true_iff, Option.map_some, Option.getD_some]
      exact and_congr_right fun _ => ⟨fun hne h => hne h.2.symm, fun hnot heq => hnot ⟨rfl, heq.symm⟩⟩
    · rw [Function.update_of_ne (Ne.symm hname)]
      simp [hname]

theorem Named.update {c : Catalog} (h : Named c) (service : Service) :
    Named (Function.update c service.name (some service)) := by
  intro name service' hs
  by_cases hname : name = service.name
  · rw [hname, Function.update_self] at hs
    rw [← Option.some.inj hs, hname]
  · rw [Function.update_of_ne hname] at hs
    exact h name service' hs

theorem Edited.named {c c' : Catalog} (h : Edited c c') (hnamed : Named c) : Named c' := by
  cases h with
  | kept => exact hnamed
  | @replaced src svc svc' hsrc hname =>
    have hupdate := hnamed.update svc'
    rwa [hname, hnamed src svc hsrc] at hupdate

end Manager

section Tracks
variable {booted : List (Service × StartResult)} {catalog : Catalog} {past : List Request}
  {m m' : ServiceManager} {name dep : String} {r : Request}

theorem up_cons_iff : Up booted catalog dep (r :: past) ↔
    BringsUp booted catalog dep past r ∨
      Up booted catalog dep past ∧ ¬TakesDown booted catalog dep past r := by
  constructor
  · rintro (_ | hup | ⟨hup, hstays⟩)
    · exact .inl hup
    · exact .inr ⟨hup, hstays⟩
  · rintro (hup | ⟨hup, hstays⟩)
    · exact .brought hup
    · exact .stayed hup hstays

theorem Tracks.find_eq (h : Tracks booted catalog past m) (name : String) :
    m.find name = (Manager.seats booted catalog past).idxOf? name := by
  rw [find_eq_idxOf?, h.seats]

theorem Tracks.find_eq_none_iff (h : Tracks booted catalog past m) :
    m.find name = none ↔ name ∉ Manager.seats booted catalog past := by
  rw [h.find_eq, List.idxOf?_eq_none_iff]

theorem Tracks.seats_start (h : Tracks booted catalog past m) {result : StartResult}
    {launched : Bool} (hstarts : Starts m name result m') :
    m'.services.map (·.name) =
      Manager.seats booted catalog (.startNamed name result launched :: past) := by
  rw [Manager.seats]
  cases hstarts with
  | running hfind =>
    rw [if_neg, h.seats]
    exact fun hnew => by simp [h.find_eq_none_iff.2 hnew.1] at hfind
  | again hfind =>
    rw [if_neg, services_setRunning, h.seats]
    exact fun hnew => by simp [h.find_eq_none_iff.2 hnew.1] at hfind
  | @first service hfind hknown hok =>
    have hsome : (catalog name).isSome := by rw [← h.known, hknown]; rfl
    rw [if_pos ⟨h.find_eq_none_iff.1 hfind, hsome, hok⟩, services_push, List.map_append, h.seats,
      List.map_singleton, h.named name service hknown]
  | failed hfind hnot =>
    rw [if_neg, h.seats]
    rintro ⟨-, hsome, hok⟩
    rcases hnot with hnone | herror
    · rw [← h.known, hnone] at hsome
      cases hsome
    · exact herror hok

/-- Which supervisors there are after a step. -/
theorem Tracks.seats_step (h : Tracks booted catalog past m) (hstep : step m r.event = some m') :
    m'.services.map (·.name) = Manager.seats booted catalog (r :: past) := by
  have hsame : m'.services = m.services →
      m'.services.map (·.name) = Manager.seats booted catalog past := by
    intro hsame
    rw [hsame, h.seats]
  cases r with
  | startNamed name result launched =>
    cases hstep
    exact h.seats_start (starts_startNamedService m name result)
  | stopNamed name =>
    cases hstep
    exact hsame (services_stopNamedService m name)
  | transient service result =>
    cases hstep
    rw [addAndStartTransient_eq, Manager.seats]
    split
    · rw [services_push, List.map_append, h.seats, List.map_singleton]
    · exact h.seats
  | setEnv key value =>
    cases hstep
    exact hsame (by simp [ServiceManager.services])
  | addDep src dst depType =>
    cases hstep
    exact hsame (by simp [ServiceManager.services])
  | rmDep src dst =>
    cases hstep
    exact hsame (by simp [ServiceManager.services])
  | running index value =>
    cases hstep
    exact hsame (services_setRunning m index value)

/-- Nothing has happened to the flags. -/
theorem Tracks.up_same (h : Tracks booted catalog past m) (hsame : m'.isRunning dep = m.isRunning dep)
    (hbrings : BringsUp booted catalog dep past r → m.isRunning dep)
    (hstays : ¬TakesDown booted catalog dep past r) :
    m'.isRunning dep ↔ Up booted catalog dep (r :: past) := by
  rw [hsame, up_cons_iff, ← h.up, and_iff_left hstays]
  exact ⟨.inr, fun hup => hup.elim hbrings id⟩

theorem Tracks.up_start (h : Tracks booted catalog past m) {result : StartResult}
    {launched : Bool} (hstarts : Starts m name result m') :
    m'.isRunning dep ↔ Up booted catalog dep (.startNamed name result launched :: past) := by
  cases hstarts with
  | running hfind hrunning => exact h.up_same rfl (fun hup => hup.1 ▸ hrunning) id
  | @again index hfind hdown =>
    by_cases hname : dep = name
    · subst hname
      have hseat : dep ∈ Manager.seats booted catalog past := by
        by_contra hnot
        simp [h.find_eq_none_iff.2 hnot] at hfind
      rw [isRunning_setRunning, if_pos hfind, up_cons_iff, ← h.up]
      simp [BringsUp, TakesDown, hdown, hseat]
    · refine h.up_same ?_ (fun hup => absurd hup.1.symm hname) id
      rw [isRunning_setRunning, if_neg (find_ne_of_ne hfind hname)]
  | @first service hfind hknown hok =>
    by_cases hname : dep = name
    · subst hname
      have hsome : (catalog dep).isSome := by rw [← h.known, hknown]; rfl
      rw [isRunning_push, if_pos ⟨hfind, h.named _ _ hknown⟩, up_cons_iff, ← h.up]
      simp [BringsUp, TakesDown, not_isRunning_of_find hfind, hsome, hok]
    · refine h.up_same ?_ (fun hup => absurd hup.1.symm hname) id
      rw [isRunning_push, if_neg]
      exact fun hfirst => hname (hfirst.2.symm.trans (h.named _ _ hknown))
  | failed hfind hnot =>
    refine h.up_same rfl ?_ id
    rintro ⟨rfl, -, hseat | ⟨hsome, hok⟩⟩
    · exact absurd hseat (h.find_eq_none_iff.1 hfind)
    · rcases hnot with hnone | herror
      · rw [← h.known, hnone] at hsome
        cases hsome
      · exact absurd hok herror

theorem Tracks.up_stop (h : Tracks booted catalog past m) :
    (m.stopNamedService name).1.isRunning dep ↔ Up booted catalog dep (.stopNamed name :: past) := by
  unfold ServiceManager.stopNamedService
  rw [up_cons_iff, ← h.up]
  cases hfind : m.find name with
  | none =>
    -- a service without a supervisor is not up, so that nothing is taken down
    have hdown := not_isRunning_of_find hfind
    refine ⟨fun hup => .inr ⟨hup, fun hname => hdown (hname ▸ hup)⟩, fun hup => ?_⟩
    exact hup.elim False.elim And.left
  | some index =>
    rw [isRunning_setRunning]
    by_cases hname : dep = name
    · subst hname
      simp [hfind, BringsUp, TakesDown]
    · simp [find_ne_of_ne hfind hname, BringsUp, TakesDown, Ne.symm hname]

theorem Tracks.up_transient (h : Tracks booted catalog past m) {service : Service}
    {result : StartResult} : (m.addAndStartTransient service result).1.isRunning dep ↔
      Up booted catalog dep (.transient service result :: past) := by
  rw [addAndStartTransient_eq, up_cons_iff, ← h.up]
  by_cases hok : result.outcome.isOk
  · rw [if_pos hok, isRunning_push]
    by_cases hfirst : m.find dep = none ∧ service.name = dep
    · have hdown := not_isRunning_of_find hfirst.1
      have hnew := h.find_eq_none_iff.1 hfirst.1
      simp [hfirst, BringsUp, TakesDown, hok, hdown, hnew]
    · rw [if_neg hfirst]
      refine ⟨fun hup => .inr ⟨hup, id⟩, ?_⟩
      rintro (⟨hname, -, -, hnew⟩ | ⟨hup, -⟩)
      · exact absurd ⟨h.find_eq_none_iff.2 hnew, hname⟩ hfirst
      · exact hup
  · rw [if_neg hok]
    refine ⟨fun hup => .inr ⟨hup, id⟩, ?_⟩
    rintro (⟨-, -, hok', -⟩ | ⟨hup, -⟩)
    · exact absurd hok' hok
    · exact hup

theorem Tracks.up_step (h : Tracks booted catalog past m) (hstep : step m r.event = some m')
    (dep : String) : m'.isRunning dep ↔ Up booted catalog dep (r :: past) := by
  cases r with
  | startNamed name result launched =>
    cases hstep
    exact h.up_start (starts_startNamedService m name result)
  | stopNamed name =>
    cases hstep
    exact h.up_stop
  | transient service result =>
    cases hstep
    exact h.up_transient
  | setEnv key value =>
    cases hstep
    exact h.up_same (isRunning_congr (supervisors_setEnv m key value)) False.elim id
  | addDep src dst depType =>
    cases hstep
    exact h.up_same (isRunning_congr (supervisors_addDep m src dst depType)) False.elim id
  | rmDep src dst =>
    cases hstep
    exact h.up_same (isRunning_congr (supervisors_rmDep m src dst)) False.elim id
  | running index value =>
    cases hstep
    rw [isRunning_setRunning, up_cons_iff, ← h.up, h.find_eq]
    by_cases hfirst : (Manager.seats booted catalog past).idxOf? dep = some index
    · cases value <;> simp [hfirst, BringsUp, TakesDown]
    · simp [hfirst, BringsUp, TakesDown]

theorem edge_cons_iff : Edge catalog name dep (r :: past) ↔
    ((catalog name).isSome ∧ ∃ depType, r = .addDep name dep depType ∧
      (depType = "need" ∨ depType = "regular")) ∨
      Edge catalog name dep past ∧ r ≠ .rmDep name dep := by
  constructor
  · intro h
    cases h with
    | added hname htype => exact .inl ⟨hname, _, rfl, htype⟩
    | kept hedge hstays => exact .inr ⟨hedge, hstays⟩
  · rintro (⟨hname, depType, rfl, htype⟩ | ⟨hedge, hstays⟩)
    · exact .added hname htype
    · exact .kept hedge hstays

theorem edge_nil_iff : Edge catalog name dep [] ↔
    ∃ service, catalog name = some service ∧ dep ∈ service.dependencies := by
  constructor
  · rintro ⟨hname, hdep⟩
    exact ⟨_, hname, hdep⟩
  · rintro ⟨service, hname, hdep⟩
    exact .boot hname hdep

/-- The catalog has not changed. -/
theorem Tracks.edges_same (h : Tracks booted catalog past m) (hsame : m'.catalog = m.catalog)
    (hadd : ∀ src dst depType, r ≠ .addDep src dst depType) (hrm : ∀ src dst, r ≠ .rmDep src dst) :
    dep ∈ m'.requires name ↔ Edge catalog name dep (r :: past) := by
  unfold ServiceManager.requires
  rw [hsame, edge_cons_iff, ← h.edges]
  refine ⟨fun hdep => .inr ⟨hdep, hrm _ _⟩, ?_⟩
  rintro (⟨-, depType, hr, -⟩ | ⟨hdep, -⟩)
  · exact absurd hr (hadd _ _ _)
  · exact hdep

theorem Tracks.edges_step (h : Tracks booted catalog past m) (hstep : step m r.event = some m')
    (name dep : String) : dep ∈ m'.requires name ↔ Edge catalog name dep (r :: past) := by
  cases r with
  | startNamed unit result launched =>
    cases hstep
    exact h.edges_same (catalog_startNamedService m unit result) (by simp) (by simp)
  | stopNamed unit =>
    cases hstep
    exact h.edges_same (catalog_stopNamedService m unit) (by simp) (by simp)
  | transient service result =>
    cases hstep
    exact h.edges_same (catalog_activate m service result) (by simp) (by simp)
  | setEnv key value =>
    cases hstep
    exact h.edges_same (catalog_setEnv m key value) (by simp) (by simp)
  | running index value =>
    cases hstep
    exact h.edges_same rfl (by simp) (by simp)
  | addDep src dst depType =>
    cases hstep
    rw [edge_cons_iff, ← h.edges, ← h.known, requires_addDep]
    simp only [Request.addDep.injEq, ne_eq, reduceCtorEq, not_false_eq_true, and_true]
    constructor
    · rintro (⟨rfl, rfl, hname, htype⟩ | hdep)
      · exact .inl ⟨hname, depType, ⟨rfl, rfl, rfl⟩, htype⟩
      · exact .inr hdep
    · rintro (⟨hname, depType', ⟨rfl, rfl, rfl⟩, htype⟩ | hdep)
      · exact .inl ⟨rfl, rfl, hname, htype⟩
      · exact .inr hdep
  | rmDep src dst =>
    cases hstep
    rw [edge_cons_iff, ← h.edges, requires_rmDep]
    constructor
    · rintro ⟨hdep, hother⟩
      refine .inr ⟨hdep, fun hr => ?_⟩
      cases hr
      exact hother ⟨rfl, rfl⟩
    · rintro (⟨-, depType, hr, -⟩ | ⟨hdep, hother⟩)
      · cases hr
      · refine ⟨hdep, ?_⟩
        rintro ⟨rfl, rfl⟩
        exact hother rfl

theorem Tracks.step (h : Tracks booted catalog past m) (hstep : Manager.step m r.event = some m') :
    Tracks booted catalog (r :: past) m' where
  seats := h.seats_step hstep
  up := h.up_step hstep
  edges := h.edges_step hstep
  known name := by rw [(edited_step hstep).isSome, h.known]
  named := (edited_step hstep).named h.named

end Tracks

theorem named_buildCatalog (boot : Boot) (services : List Service) :
    Named (buildCatalog boot services) := by
  have hlisted : ∀ (l : List Service) (c : Catalog), Named c →
      Named (l.foldl (fun c svc => Function.update c svc.name (some svc)) c) := by
    intro l
    induction l with
    | nil => exact fun c hc => hc
    | cons svc l ih => exact fun c hc => ih _ (hc.update svc)
  have hfull : ∀ (l : List Builtin) (c : Catalog), Named c →
      Named (l.foldl (fun c b => if (c b.name).isSome then c
        else Function.update c b.name (some (builtinService boot b))) c) := by
    intro l
    induction l with
    | nil => exact fun c hc => hc
    | cons b l ih =>
      intro c hc
      rw [List.foldl_cons]
      refine ih _ ?_
      split
      · exact hc
      · have hb : (builtinService boot b).name = b.name := by cases b <;> rfl
        have hupdate := hc.update (builtinService boot b)
        rwa [hb] at hupdate
  intro name service h
  obtain ⟨svc, hsvc, rfl⟩ := Option.map_eq_some_iff.1 h
  exact hfull _ _ (hlisted services _ fun _ _ hs => by cases hs) name svc hsvc

/-- After boot the calls have said nothing yet. -/
theorem tracks_startAll {boot : Boot} {strict : Bool} {services : List Service}
    {lane : ℕ → StartResult} {thread : ℕ → Option StartResult} {m : ServiceManager}
    (h : startAll boot strict services lane thread = .ok m) :
    Tracks (bootResults boot services lane thread) (buildCatalog boot services) [] m := by
  have hcatalog := (startAll_eq_ok h).2.1
  have hsupervisors : m.supervisors =
      (bootResults boot services lane thread).map fun p => ⟨p.1, p.2.running⟩ := by
    unfold startAll at h
    cases hvalid : validateServiceCatalog services strict with
    | error e =>
      rw [hvalid] at h
      cases h
    | ok _ =>
      rw [hvalid] at h
      cases h
      rfl
  refine ⟨?_, fun dep => ?_, fun name dep => ?_, fun name => by rw [hcatalog], fun name service hs => ?_⟩
  · rw [ServiceManager.services, hsupervisors, List.map_map, List.map_map]
    rfl
  · have hfind : m.isRunning dep = (m.supervisors.find? (·.service.name = dep)).any (·.running) := by
      rw [List.find?_eq_bind_findIdx?_getElem?]
      rfl
    rw [hfind, hsupervisors, List.find?_map, Option.any_map]
    constructor
    · intro hrunning
      obtain ⟨⟨service, result⟩, hfirst, hup⟩ := Option.any_eq_true _ _ |>.1 hrunning
      exact .boot hfirst hup
    · rintro ⟨hfirst, hrunning⟩
      exact Option.any_eq_true _ _ |>.2 ⟨_, hfirst, hrunning⟩
  · unfold ServiceManager.requires
    rw [hcatalog]
    constructor
    · intro hdep
      cases hname : buildCatalog boot services name with
      | none => simp [hname] at hdep
      | some service => exact .boot hname (by simpa [hname] using hdep)
    · rintro ⟨hname, hdep⟩
      rw [hname]
      exact hdep
  · rw [hcatalog] at hs
    exact named_buildCatalog boot services name service hs

section Run
variable {booted : List (Service × StartResult)} {catalog : Catalog} {past : List Request}
  {s s' : Logged} {r : Request}

/-- What a launch finds missing, said by the calls. -/
theorem missing_eq_nil_iff (h : Tracks booted catalog past s.manager) {name : String} :
    ((s.manager.requires name).filter fun dep => !s.manager.isRunning dep) = [] ↔
      ∀ dep, Edge catalog name dep past → Up booted catalog dep past := by
  simp only [List.filter_eq_nil_iff, Bool.not_eq_true', Bool.not_eq_false, h.edges, h.up]

/-- The service is launched only while it is not up, and then unless nothing is known of it. -/
theorem toStart_isSome_iff {m : ServiceManager} {name : String} : (m.toStart name).isSome ↔
    ¬m.isRunning name ∧ ((m.find name).isSome ∨ (m.catalog name).isSome) := by
  unfold ServiceManager.toStart ServiceManager.isRunning
  cases hfind : m.find name with
  | none => simp
  | some index =>
    obtain ⟨sup, hsup, -⟩ := exists_of_find hfind
    cases hrunning : sup.running <;> simp [hsup, hrunning]

theorem dependenciesFirst_step (h : Tracks booted catalog past s.manager)
    (hs : DependenciesFirst s) (hready : Ready booted catalog past r) (hstep : s.step r = some s') :
    DependenciesFirst s' := by
  obtain ⟨m, -, rfl⟩ := Option.map_eq_some_iff.1 hstep
  intro l hl
  rcases List.mem_append.1 hl with hold | hnew
  · exact hs l hold
  · cases r with
    | startNamed name result launched =>
      cases launched with
      | false => simp [launchOf] at hnew
      | true =>
        obtain ⟨service, hservice, rfl⟩ := Option.map_eq_some_iff.1 (Option.mem_toList.1 hnew)
        have hdown : ¬s.manager.isRunning name := (toStart_isSome_iff.1 (by rw [hservice]; rfl)).1
        rw [h.up] at hdown
        exact (missing_eq_nil_iff h).2 (hready hdown)
    | stopNamed | transient | setEnv | addDep | rmDep | running => simp [launchOf] at hnew

/-- A start that comes to a process, and found all it needs, was ready. -/
theorem ready_of_dependenciesFirst (h : Tracks booted catalog past s.manager)
    (hlaunches : ∀ name result, r ≠ .startNamed name result false) (hstep : s.step r = some s')
    (hs : DependenciesFirst s') : Ready booted catalog past r := by
  obtain ⟨m, -, rfl⟩ := Option.map_eq_some_iff.1 hstep
  cases r with
  | startNamed name result launched =>
    cases launched with
    | false => exact absurd rfl (hlaunches name result)
    | true =>
      intro hdown dep hedge
      rw [← h.up] at hdown
      have hknown : (s.manager.catalog name).isSome := by
        have hdep := (h.edges name dep).2 hedge
        unfold ServiceManager.requires at hdep
        cases hcat : s.manager.catalog name with
        | none => simp [hcat] at hdep
        | some service => rfl
      obtain ⟨service, hservice⟩ := Option.isSome_iff_exists.1
        (toStart_isSome_iff.2 ⟨hdown, .inr hknown⟩)
      have hmissing := hs ⟨name, (s.manager.requires name).filter fun dep => !s.manager.isRunning dep⟩
        (by simp [launchOf, hservice])
      exact (missing_eq_nil_iff h).1 hmissing dep hedge
  | stopNamed | transient | setEnv | addDep | rmDep | running => trivial

theorem always_of_allReady (h : Tracks booted catalog past s.manager) (hs : DependenciesFirst s)
    {rs : List Request} (hready : AllReady booted catalog past rs) :
    Runs.Always Logged.step DependenciesFirst s rs := by
  induction rs generalizing past s with
  | nil => exact hs
  | cons r rs ih =>
    refine ⟨hs, fun s' hstep => ?_⟩
    obtain ⟨m, hm, rfl⟩ := Option.map_eq_some_iff.1 hstep
    exact ih (h.step hm) (dependenciesFirst_step h hs hready.1 hstep) hready.2

theorem allReady_of_always (h : Tracks booted catalog past s.manager) {rs : List Request}
    (hlaunches : ∀ name result, .startNamed name result false ∉ rs)
    (hall : Runs.Always Logged.step DependenciesFirst s rs) : AllReady booted catalog past rs := by
  induction rs generalizing past s with
  | nil => trivial
  | cons r rs ih =>
    obtain ⟨m, hm⟩ : ∃ m, Manager.step s.manager r.event = some m := by
      cases r <;> exact ⟨_, rfl⟩
    have hstep : s.step r = some ⟨m, s.launches ++ (launchOf s.manager r).toList⟩ := by
      rw [Logged.step, hm]
      rfl
    have hrest := hall.2 _ hstep
    refine ⟨ready_of_dependenciesFirst h (fun name result hr => ?_) hstep hrest.first,
      ih (h.step hm) (fun name result hmem => ?_) hrest⟩
    · exact hlaunches name result (hr ▸ List.mem_cons_self)
    · exact hlaunches name result (List.mem_cons_of_mem r hmem)

end Run

/-- On every run of calls after boot, services are launched on demand with all they depend on running
if each is asked for only then, as far as boot and the calls so far tell; and if every such call
comes to a process, only if. -/
theorem dependenciesFirst_of_ready (boot : Boot) (strict : Bool) (services : List Service)
    (lane : ℕ → StartResult) (thread : ℕ → Option StartResult) (m : ServiceManager)
    (hstart : startAll boot strict services lane thread = .ok m) (rs : List Request) :
    (AllReady (bootResults boot services lane thread) (buildCatalog boot services) [] rs →
      Runs.Always Logged.step DependenciesFirst ⟨m, []⟩ rs) ∧
    ((∀ name result, .startNamed name result false ∉ rs) →
      Runs.Always Logged.step DependenciesFirst ⟨m, []⟩ rs →
        AllReady (bootResults boot services lane thread) (buildCatalog boot services) [] rs) := by
  have htracks := tracks_startAll hstart
  have hfirst : DependenciesFirst ⟨m, []⟩ := fun l hl => by cases hl
  exact ⟨always_of_allReady htracks hfirst, allReady_of_always htracks⟩

/-- A dependency is added, both services are stopped, and started again, the dependency first. -/
theorem dependenciesFirst_of_ready_added :
    let app : Service := { name := "app", command := "/bin/app" }
    let db : Service := { name := "db", command := "/bin/db" }
    ∃ m, startAll bareBoot true [app, db] (fun _ => up) (fun _ => some up) = .ok m ∧
      Runs.Always Logged.step DependenciesFirst ⟨m, []⟩
        [.addDep "app" "db" "need", .stopNamed "app", .stopNamed "db", .startNamed "db" up true,
          .startNamed "app" up true] := by
  intro app db
  have hok : (startAll bareBoot true [app, db] (fun _ => up) (fun _ => some up)).isOk = true := by
    decide +kernel
  have hdeps : ∀ name ∈ ["app", "db"],
      (buildCatalog bareBoot [app, db] name).map (·.dependencies) = some [] := by decide +kernel
  have hboot : ∀ name ∈ ["app", "db"], ∀ dep,
      ¬Edge (buildCatalog bareBoot [app, db]) name dep [] := by
    intro name hname dep hedge
    obtain ⟨service, hservice, hdep⟩ := edge_nil_iff.1 hedge
    have hnone := hdeps name hname
    rw [hservice, Option.map_some, Option.some_inj] at hnone
    rw [hnone] at hdep
    cases hdep
  have hready : AllReady (bootResults bareBoot [app, db] (fun _ => up) fun _ => some up)
      (buildCatalog bareBoot [app, db]) []
      [.addDep "app" "db" "need", .stopNamed "app", .stopNamed "db", .startNamed "db" up true,
        .startNamed "app" up true] := by
    refine ⟨trivial, trivial, trivial, fun _ dep hedge => ?_, fun _ dep hedge => ?_, trivial⟩
    · simp [edge_cons_iff, hboot] at hedge
    · simp only [edge_cons_iff, hboot "app" (by simp), Request.addDep.injEq, true_and] at hedge
      have hdb : "db" = dep := by
        by_contra hother
        simp [hother] at hedge
      rw [← hdb]
      exact .brought ⟨rfl, rfl, .inr ⟨by decide +kernel, rfl⟩⟩
  cases hm : startAll bareBoot true [app, db] (fun _ => up) (fun _ => some up) with
  | error e =>
    rw [hm] at hok
    cases hok
  | ok m =>
    exact ⟨m, rfl, (dependenciesFirst_of_ready bareBoot true [app, db] _ _ m hm _).1 hready⟩

instance (s : Logged) : Decidable (DependenciesFirst s) :=
  inferInstanceAs (Decidable (∀ l ∈ s.launches, l.missing = []))

/-- Both services are stopped, and `app` is started without `db`. -/
theorem startNamed_before_dependency :
    let app : Service := { name := "app", command := "/bin/app", dependencies := ["db"] }
    let db : Service := { name := "db", command := "/bin/db" }
    ∃ m, startAll bareBoot true [app, db] (fun _ => up) (fun _ => some up) = .ok m ∧
      ¬ Runs.Always Logged.step DependenciesFirst ⟨m, []⟩
        [.stopNamed "app", .stopNamed "db", .startNamed "app" up true] := by
  intro app db
  have hrun : ((startAll bareBoot true [app, db] (fun _ => up) (fun _ => some up)).toOption.any
      fun m => (Runs.exec Logged.step ⟨m, []⟩
        [.stopNamed "app", .stopNamed "db", .startNamed "app" up true]).any
          fun s => !decide (DependenciesFirst s)) = true := by
    decide +kernel
  cases hm : startAll bareBoot true [app, db] (fun _ => up) (fun _ => some up) with
  | error e =>
    rw [hm] at hrun
    cases hrun
  | ok m =>
    rw [hm] at hrun
    refine ⟨m, rfl, fun hall => ?_⟩
    rw [Except.toOption, Option.any_some, Option.any_eq_true] at hrun
    obtain ⟨s, hs, hnot⟩ := hrun
    have hfirst := hall.last hs
    simp [hfirst] at hnot

end Quantra.Manager
