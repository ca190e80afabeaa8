import Quantra.Services.BootPlan
import Quantra.Services.Launch

/-! What a set of services that passes strict validation can count on at boot. -/
namespace Quantra.Services
open Quantra.Process Levels

/-- What `start` resolves before it launches the service can be resolved. -/
structure Resolves (svc : Service) : Prop where
  argv : (resolveCommandArgv svc.command svc.args).isOk
  capabilities : (resolveCapabilityNumbers svc.dropCapabilities).isOk
  denylist : (resolveSeccompProfileForService svc).isOk

/-- The names tell the services apart, the waves can be sorted so that everything but the launchers
is started, and no start fails in a resolution. -/
structure Bootable (boot : Boot) (services : List Service) : Prop where
  names : (services.map (·.name)).Nodup
  sorted : ∃ waves, waveSortServices (remainingServices services) = .ok waves
  attempted : ∀ svc ∈ services, svc.launcher = false →
    svc ∈ bootstrapServices boot services ++ (startupWaves services).flatten
  resolves : ∀ svc ∈ services, Resolves svc
  started : ∀ svc ∈ services, ∀ host logger e, startLaunch host logger svc = .error e →
    startCredentials host svc = .error e

section Validation
variable {boot : Boot} {services seen : List Service} {svc : Service}

theorem validateServiceCatalog_strict_iff :
    validateServiceCatalog services true = .ok () ↔ validationIssues services = [] := by
  unfold validateServiceCatalog
  by_cases hissues : validationIssues services = []
  · simp [hissues]
  · simp [hissues]

/-- The first loop finds nothing only if no name comes twice and every service passes its checks. -/
theorem catalogIssues_eq_nil {names : List String} (h : catalogIssues names services = []) :
    (services.map (·.name)).Nodup ∧ (∀ svc ∈ services, svc.name ∉ names) ∧
      ∀ svc ∈ services, serviceIssues svc = [] := by
  induction services generalizing names with
  | nil => exact ⟨List.nodup_nil, by simp, by simp⟩
  | cons svc services ih =>
    unfold catalogIssues at h
    obtain ⟨hhead, hrest⟩ := List.append_eq_nil_iff.1 h
    obtain ⟨hduplicate, hissues⟩ := List.append_eq_nil_iff.1 hhead
    obtain ⟨hnodup, hnames, hchecks⟩ := ih hrest
    have hsvc : svc.name ∉ names := by
      intro hmem
      rw [if_pos hmem] at hduplicate
      cases hduplicate
    have hnew : svc.name ∉ services.map (·.name) := by
      intro hmem
      obtain ⟨other, hother, hname⟩ := List.mem_map.1 hmem
      refine hnames other hother ?_
      rw [hname]
      exact List.mem_cons_self
    refine ⟨List.nodup_cons.2 ⟨hnew, hnodup⟩, ?_, ?_⟩
    · refine List.forall_mem_cons.2 ⟨hsvc, fun other hother hmem => ?_⟩
      exact hnames other hother (List.mem_cons_of_mem _ hmem)
    · exact List.forall_mem_cons.2 ⟨hissues, hchecks⟩

section Capabilities

-- the table of names would be searched for a name that is not known
attribute [local irreducible] capabilityNameToNumber

theorem resolveCapabilityNumbers_isOk {caps : List String}
    (h : ∀ cap ∈ caps, (capabilityNameToNumber cap).isSome) :
    (resolveCapabilityNumbers caps).isOk := by
  induction caps with
  | nil => rfl
  | cons cap caps ih =>
    obtain ⟨hcap, hcaps⟩ := List.forall_mem_cons.1 h
    obtain ⟨number, hnumber⟩ := Option.isSome_iff_exists.1 hcap
    obtain ⟨numbers, hnumbers⟩ := exists_ok_of_isOk (ih hcaps)
    rw [resolveCapabilityNumbers_cons, hnumber, hnumbers]
    rfl

end Capabilities

theorem resolveSeccompProfileForService_isOk (h : seccompIssues svc = []) :
    (resolveSeccompProfileForService svc).isOk := by
  unfold seccompIssues at h
  unfold resolveSeccompProfileForService
  cases hmode : svc.seccomp with
  | off => rfl
  | strict => rfl
  | profile =>
    rw [hmode] at h
    cases hprofile : trimmedProfile svc with
    | none =>
      rw [hprofile] at h
      cases h
    | some profile =>
      rw [hprofile] at h
      dsimp only at h ⊢
      cases hresolve : resolveSeccompProfileDenylist profile with
      | ok denylist => rfl
      | error e =>
        rw [hresolve] at h
        cases h

/-- The checks of one service cover what its start resolves. -/
theorem resolves_of_serviceIssues (h : serviceIssues svc = []) : Resolves svc := by
  unfold serviceIssues at h
  split at h
  · cases h
  · obtain ⟨hfront, -⟩ := List.append_eq_nil_iff.1 h
    obtain ⟨hfront, hseccomp⟩ := List.append_eq_nil_iff.1 hfront
    obtain ⟨hcommand, hcaps⟩ := List.append_eq_nil_iff.1 hfront
    refine ⟨?_, ?_, resolveSeccompProfileForService_isOk hseccomp⟩
    · unfold commandIssues at hcommand
      cases hargv : resolveCommandArgv svc.command svc.args with
      | ok argv => rfl
      | error e =>
        rw [hargv] at hcommand
        cases hcommand
    · refine resolveCapabilityNumbers_isOk fun cap hcap => ?_
      have hknown := List.filter_eq_nil_iff.1 (List.map_eq_nil_iff.1 hcaps) cap hcap
      rwa [Bool.not_eq_true, Option.isNone_eq_false_iff] at hknown

/-- A service whose data can be resolved fails to start on its credentials only. -/
theorem Resolves.startLaunch_error (h : Resolves svc) {host : Host} {logger : Option ℤ}
    {e : String} (hlaunch : startLaunch host logger svc = .error e) :
    startCredentials host svc = .error e := by
  obtain ⟨numbers, hnumbers⟩ := exists_ok_of_isOk h.capabilities
  obtain ⟨denylist, hdenylist⟩ := exists_ok_of_isOk h.denylist
  obtain ⟨argv, hargv⟩ := exists_ok_of_isOk h.argv
  unfold startLaunch at hlaunch
  rw [hnumbers, hdenylist, hargv] at hlaunch
  cases hcreds : startCredentials host svc with
  | error e' =>
    rw [hcreds] at hlaunch
    exact congrArg Except.error (Except.error.inj hlaunch)
  | ok creds =>
    rw [hcreds] at hlaunch
    cases hlaunch

/-- Of the listed services that bear a bootstrap name, the lane takes the first. -/
theorem mem_bootstrapServices (hnames : (services.map (·.name)).Nodup) (hsvc : svc ∈ services)
    (hboot : svc.name ∈ builtinBootstrapOrder.map Builtin.name) :
    svc ∈ bootstrapServices boot services := by
  obtain ⟨b, hb, hname⟩ := List.mem_map.1 hboot
  refine List.mem_map.2 ⟨b, hb, ?_⟩
  have hfind : (services.find? (·.name = b.name)).isSome :=
    List.find?_isSome.2 ⟨svc, hsvc, by simp [hname]⟩
  obtain ⟨found, hfound⟩ := Option.isSome_iff_exists.1 hfind
  have hfoundName : found.name = svc.name := by
    have := List.find?_some hfound
    simpa [hname] using this
  have hsame := List.inj_on_of_nodup_map hnames (List.mem_of_find?_eq_some hfound) hsvc hfoundName
  unfold serviceOrBuiltin
  rw [hfound, hsame]
  rfl

/-- Strict validation is enough for the boot of a set but for one thing: it sees a service that
depends on itself, and no longer cycle. -/
theorem strict_sufficient_iff (boot : Boot) (services : List Service) :
    (validateServiceCatalog services true = .ok () → Bootable boot services) ↔
      (validateServiceCatalog services true = .ok () →
        Acyclic (DepEdge (remainingServices services))) := by
  refine forall_congr' fun hvalid => ?_
  rw [validateServiceCatalog_strict_iff, validationIssues] at hvalid
  obtain ⟨hnames, -, hissues⟩ := catalogIssues_eq_nil (List.append_eq_nil_iff.1 hvalid).1
  have hremaining : ((remainingServices services).map (·.name)).Nodup :=
    hnames.sublist (List.filter_sublist.map _)
  have hsort := (waveSortServices_ok_iff (remainingServices services)).trans
    (acyclic_posEdge_iff hremaining)
  rw [← hsort]
  constructor
  · exact Bootable.sorted
  · rintro ⟨waves, hwaves⟩
    have hresolves : ∀ svc ∈ services, Resolves svc := fun svc hsvc =>
      resolves_of_serviceIssues (hissues svc hsvc)
    refine ⟨hnames, ⟨waves, hwaves⟩, fun svc hsvc hlauncher => ?_, hresolves,
      fun svc hsvc host logger e => (hresolves svc hsvc).startLaunch_error⟩
    rw [List.mem_append]
    by_cases hboot : svc.name ∈ builtinBootstrapOrder.map Builtin.name
    · exact .inl (mem_bootstrapServices hnames hsvc hboot)
    · right
      unfold startupWaves
      rw [hwaves]
      exact (mem_waves_flatten hwaves).2 (mem_remainingServices.2 ⟨hsvc, hboot, hlauncher⟩)

end Validation

/-- Two services that wait for each other pass strict validation, and neither is started. -/
theorem strict_accepts_cycle :
    let app : Service := { name := "app", command := "/bin/app", after := ["db"] }
    let db : Service := { name := "db", command := "/bin/db", after := ["app"] }
    validateServiceCatalog [app, db] true = .ok () ∧ ¬Bootable bareBoot [app, db] := by
  intro app db
  refine ⟨by decide +kernel, fun h => ?_⟩
  have hattempted := h.attempted app List.mem_cons_self rfl
  have hnone : "app" ∉ ((bootstrapServices bareBoot [app, db] ++
      (startupWaves [app, db]).flatten).map (·.name)) := by decide +kernel
  exact hnone (List.mem_map.2 ⟨app, hattempted, rfl⟩)

end Quantra.Services
