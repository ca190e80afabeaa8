import Quantra.Services.Manager
import Quantra.Services.Parser
import Mathlib.Tactic.Tauto

/-! The services that boot starts: the loader of the waves, the one of the post-boot launchers, and
the markers by which services are enabled. -/
namespace Quantra.Manager
open Quantra.Services Levels

structure InitConfig where
  servicesDir : String := "/overlayer/syshub/etc/quantra-system/services"
  enabledDir : String := "/overlayer/syshub/etc/quantra-system/enabled"
  strictServiceValidation : Bool := false

section Loaders
variable (disk : Disk) (cfg : InitConfig)

/-- The loader that `start_all` uses: the directory of the markers is not the configured one, and
what the parser has refused is not looked at. -/
def loadServicesOrDefaultFiltered : Except String (List Service) :=
  if disk.pathExists cfg.servicesDir then
    (disk.parseServicesWithEnabledFilter cfg.servicesDir markerDir).map (·.services)
  else .ok []

/-- The loader that only the shutdown plan uses. -/
def loadServicesOrDefault : Except String (List Service) :=
  match disk.parseServicesWithEnabledFilter cfg.servicesDir cfg.enabledDir with
  | .ok report =>
    if report.errors ≠ [] ∧ cfg.strictServiceValidation then
      .error ("Loaded " ++ toString report.services.length ++ " service(s) from '" ++
        cfg.servicesDir ++ "' with " ++ toString report.errors.length ++ " parse error(s)")
    else .ok report.services
  | .error _ => .ok []

/-- The markers are not looked at. -/
def loadLaunchers (servicesDir : String) : List Service :=
  match disk.parseServices servicesDir with
  | .ok report => report.services.filter (·.launcher)
  | .error _ => []

/-- The launchers in the order in which `start_post_boot_launchers` starts them. -/
def postBootLaunchers (servicesDir : String) : List Service :=
  match waveSortServices (loadLaunchers disk servicesDir) with
  | .ok waves => waves.flatten
  | .error _ => loadLaunchers disk servicesDir

end Loaders

/-- The manager after boot, and the services that boot has set out to start after the bootstrap
lane. -/
structure Booted where
  manager : ServiceManager
  started : List Service

/-- `run` from the services on; `control` tells whether the control socket came up. -/
def boot (disk : Disk) (cfg : InitConfig) (lane : ℕ → StartResult)
    (thread : ℕ → Option StartResult) (control : Except String Unit) : Except String Booted := do
  let services ← loadServicesOrDefaultFiltered disk cfg
  let manager ← startAll disk.toBoot cfg.strictServiceValidation services lane thread
  control
  .ok ⟨manager, (startupWaves services).flatten ++ postBootLaunchers disk cfg.servicesDir⟩

section Law
variable (disk : Disk) (cfg : InitConfig)

/-- The services whose files were parsed. -/
def parsed : List Service :=
  ((disk.parseServices cfg.servicesDir).map (·.services)).toOption.getD []

/-- The files that the parser refused. -/
def rejected : List ServiceParseError :=
  ((disk.parseServices cfg.servicesDir).map (·.errors)).toOption.getD []

/-- What is enabled is started, what has no marker can be started on demand, and a strict boot has
not refused a file. -/
structure EnableLaw (b : Booted) : Prop where
  started : ∀ svc : Service, svc.name ∉ bootstrapNames →
    (svc ∈ b.started ↔ svc ∈ parsed disk cfg ∧ disk.enabled cfg.enabledDir svc)
  onDemand : ∀ svc ∈ parsed disk cfg, ¬disk.marked cfg.enabledDir svc →
    (b.manager.startNamedService svc.name up).2 = .ok ()
  strict : cfg.strictServiceValidation → rejected disk cfg = []

/-- What `start_all` loads, if it loads anything. -/
def loaded : List Service := disk.applyEnabledFilter (parsed disk cfg) markerDir

/-- The directory can be read, the set is valid and the control socket comes up. -/
structure Accepted (control : Except String Unit) : Prop where
  readable : disk.pathExists cfg.servicesDir → (disk.parseServices cfg.servicesDir).isOk
  valid : validateServiceCatalog (loaded disk cfg) cfg.strictServiceValidation = .ok ()
  control : control = .ok ()

/-- The two directories of markers say the same of what the waves start, every launcher is enabled,
and what the configured directory leaves out is in the other one. -/
structure MarkersAgree : Prop where
  launchers : ∀ svc ∈ parsed disk cfg, svc.name ∉ bootstrapNames → svc.launcher →
    disk.enabled cfg.enabledDir svc
  others : ∀ svc ∈ parsed disk cfg, svc.name ∉ bootstrapNames → svc.launcher = false →
    (Acyclic (PosEdge (remainingServices (loaded disk cfg))) ∧ disk.enabled markerDir svc ↔
      disk.enabled cfg.enabledDir svc)
  unmarked : ∀ svc ∈ parsed disk cfg, svc.name ∉ bootstrapNames →
    ¬disk.marked cfg.enabledDir svc → disk.enabled markerDir svc
  strict : cfg.strictServiceValidation → rejected disk cfg = []

end Law

section Loaded
variable {disk : Disk} {cfg : InitConfig} {svc : Service}

theorem mem_loaded : svc ∈ loaded disk cfg ↔
    svc ∈ parsed disk cfg ∧ (svc.name ∈ bootstrapNames ∨ disk.enabled markerDir svc) :=
  Disk.mem_applyEnabledFilter

theorem loadServicesOrDefaultFiltered_eq
    (h : disk.pathExists cfg.servicesDir → (disk.parseServices cfg.servicesDir).isOk) :
    loadServicesOrDefaultFiltered disk cfg = .ok (loaded disk cfg) := by
  unfold loadServicesOrDefaultFiltered loaded parsed
  split
  · rename_i hdir
    obtain ⟨report, hreport⟩ := exists_ok_of_isOk (h hdir)
    rw [Disk.parseServicesWithEnabledFilter_eq, hreport]
    rfl
  · rename_i hdir
    cases hparse : disk.parseServices cfg.servicesDir with
    | error e =>
      have hnil : disk.applyEnabledFilter [] markerDir = [] := by
        unfold Disk.applyEnabledFilter
        split <;> rfl
      exact congrArg Except.ok hnil.symm
    | ok report =>
      have hok : (disk.parseServices cfg.servicesDir).isOk := by
        rw [hparse]
        rfl
      exact absurd (Disk.parseServices_isOk hok) hdir

/-- The loader that boot does not use keeps to the configuration. -/
theorem loadServicesOrDefault_ok {services : List Service}
    (h : loadServicesOrDefault disk cfg = .ok services) :
    services = disk.applyEnabledFilter (parsed disk cfg) cfg.enabledDir ∧
      (cfg.strictServiceValidation → rejected disk cfg = []) := by
  unfold loadServicesOrDefault at h
  rw [Disk.parseServicesWithEnabledFilter_eq] at h
  unfold parsed rejected
  cases hparse : disk.parseServices cfg.servicesDir with
  | error e =>
    rw [hparse] at h
    cases h
    refine ⟨?_, fun _ => rfl⟩
    unfold Disk.applyEnabledFilter
    split <;> rfl
  | ok report =>
    rw [hparse] at h
    simp only [Except.map] at h
    split at h
    · cases h
    · rename_i hnot
      cases h
      refine ⟨rfl, fun hstrict => ?_⟩
      by_contra herrors
      exact hnot ⟨herrors, hstrict⟩

theorem mem_loadLaunchers :
    svc ∈ loadLaunchers disk cfg.servicesDir ↔ svc ∈ parsed disk cfg ∧ svc.launcher := by
  unfold loadLaunchers parsed
  cases disk.parseServices cfg.servicesDir with
  | error e => simp [Except.map, Except.toOption]
  | ok report => simp [Except.map, Except.toOption]

/-- The sort decides the order only. -/
theorem mem_postBootLaunchers :
    svc ∈ postBootLaunchers disk cfg.servicesDir ↔ svc ∈ parsed disk cfg ∧ svc.launcher := by
  rw [← mem_loadLaunchers]
  unfold postBootLaunchers
  split
  · rename_i waves hsort
    exact mem_waves_flatten hsort
  · exact Iff.rfl

theorem mem_startupWaves {services : List Service} : svc ∈ (startupWaves services).flatten ↔
    Acyclic (PosEdge (remainingServices services)) ∧ svc ∈ remainingServices services := by
  rw [← waveSortServices_ok_iff]
  unfold startupWaves
  cases hsort : waveSortServices (remainingServices services) with
  | error e => simp
  | ok waves => simp [mem_waves_flatten hsort]

end Loaded

section Catalog
variable {boot : Boot} {services : List Service} {name : String}

theorem bootstrapNames_eq : bootstrapNames = builtinBootstrapOrder.map Builtin.name := rfl

theorem isSome_listed (c : Catalog) :
    ((services.foldl (fun (c : Catalog) svc => Function.update c svc.name (some svc)) c)
      name).isSome ↔
      (c name).isSome ∨ ∃ svc ∈ services, svc.name = name := by
  induction services generalizing c with
  | nil => simp
  | cons svc services ih =>
    rw [List.foldl_cons, ih]
    by_cases hname : svc.name = name
    · subst hname
      simp
    · simp [Function.update_of_ne (Ne.symm hname), hname]

theorem isSome_completed (c : Catalog) (order : List Builtin) :
    ((order.foldl (fun (c : Catalog) b => if (c b.name).isSome then c
      else Function.update c b.name (some (builtinService boot b))) c) name).isSome ↔
      (c name).isSome ∨ ∃ b ∈ order, b.name = name := by
  induction order generalizing c with
  | nil => simp
  | cons b order ih =>
    rw [List.foldl_cons, ih]
    by_cases hname : b.name = name
    · subst hname
      by_cases hsome : (c b.name).isSome
      · simp [hsome]
      · simp [hsome]
    · split
      · simp [hname]
      · simp [Function.update_of_ne (Ne.symm hname), hname]

/-- The names that the catalog knows. -/
theorem isSome_buildCatalog : (buildCatalog boot services name).isSome ↔
    (∃ svc ∈ services, svc.name = name) ∨ name ∈ bootstrapNames := by
  unfold buildCatalog
  rw [Option.isSome_map, isSome_completed, isSome_listed]
  simp [bootstrapNames_eq]

/-- A name can be started on demand if the vector or the catalog has it. -/
theorem startNamedService_up (m : ServiceManager) :
    (m.startNamedService name up).2 = .ok () ↔ (m.find name).isSome ∨ (m.catalog name).isSome := by
  unfold ServiceManager.startNamedService
  cases m.find name with
  | some index =>
    dsimp only
    split <;> simp [up]
  | none =>
    cases m.catalog name with
    | none => simp
    | some svc => simp [ServiceManager.activate, up]

/-- After boot the catalog has every name of the vector. -/
theorem startNamedService_startAll {strict : Bool} {lane : ℕ → StartResult}
    {thread : ℕ → Option StartResult} {m : ServiceManager}
    (h : startAll boot strict services lane thread = .ok m) :
    (m.startNamedService name up).2 = .ok () ↔
      (∃ svc ∈ services, svc.name = name) ∨ name ∈ bootstrapNames := by
  have hcatalog : m.catalog = buildCatalog boot services := (startAll_eq_ok h).2.1
  obtain ⟨-, rest, hrest, hservices⟩ := startAll_services h
  rw [startNamedService_up, hcatalog, isSome_buildCatalog, or_iff_right_iff_imp]
  intro hfind
  rw [ServiceManager.find, List.findIdx?_isSome, List.any_eq_true] at hfind
  obtain ⟨sup, hsup, hname⟩ := hfind
  have hmem : sup.service ∈ m.services := List.mem_map_of_mem hsup
  have hname : sup.service.name = name := by simpa using hname
  rw [hservices, List.mem_append] at hmem
  rcases hmem with hlane | hwave
  · right
    rw [bootstrapNames_eq, ← bootstrapServices_names boot services, ← hname]
    exact List.mem_map_of_mem hlane
  · left
    have hremaining := (mem_startupWaves.1 (hrest.mem_flatten hwave)).2
    exact ⟨sup.service, (mem_remainingServices.1 hremaining).1, hname⟩

end Catalog

section Boot
variable {disk : Disk} {cfg : InitConfig} {lane : ℕ → StartResult}
  {thread : ℕ → Option StartResult} {control : Except String Unit} {b : Booted}

/-- Boot comes through exactly with what it accepts. -/
theorem boot_eq_ok_iff : boot disk cfg lane thread control = .ok b ↔ Accepted disk cfg control ∧
    startAll disk.toBoot cfg.strictServiceValidation (loaded disk cfg) lane thread =
      .ok b.manager ∧
    b.started = (startupWaves (loaded disk cfg)).flatten ++
      postBootLaunchers disk cfg.servicesDir := by
  by_cases hreadable : disk.pathExists cfg.servicesDir → (disk.parseServices cfg.servicesDir).isOk
  · unfold boot
    rw [loadServicesOrDefaultFiltered_eq hreadable]
    simp only [bind, Except.bind]
    cases hm : startAll disk.toBoot cfg.strictServiceValidation (loaded disk cfg) lane thread with
    | error e => simp
    | ok m =>
      cases control with
      | error e =>
        simp only [reduceCtorEq, false_iff]
        intro h
        cases h.1.control
      | ok _ =>
        constructor
        · intro h
          cases h
          exact ⟨⟨hreadable, (startAll_services hm).1, rfl⟩, rfl, rfl⟩
        · rintro ⟨-, hmanager, hstarted⟩
          obtain ⟨manager, started⟩ := b
          cases hmanager
          dsimp only at hstarted ⊢
          rw [hstarted]
  · refine iff_of_false ?_ fun h => hreadable h.1.readable
    rw [Classical.not_imp] at hreadable
    have hload : ∃ e, loadServicesOrDefaultFiltered disk cfg = .error e := by
      unfold loadServicesOrDefaultFiltered
      rw [if_pos hreadable.1, Disk.parseServicesWithEnabledFilter_eq]
      cases hparse : disk.parseServices cfg.servicesDir with
      | error e => exact ⟨e, rfl⟩
      | ok report => exact absurd (by rw [hparse]; rfl) hreadable.2
    obtain ⟨e, he⟩ := hload
    intro h
    rw [boot, he] at h
    cases h

theorem startAll_of_accepted (h : Accepted disk cfg control) (lane : ℕ → StartResult)
    (thread : ℕ → Option StartResult) :
    ∃ m, startAll disk.toBoot cfg.strictServiceValidation (loaded disk cfg) lane thread = .ok m := by
  unfold startAll
  rw [h.valid]
  exact ⟨_, rfl⟩

/-- What is started of the parsed services. -/
theorem mem_started {svc : Service} (hname : svc.name ∉ bootstrapNames) :
    svc ∈ (startupWaves (loaded disk cfg)).flatten ++ postBootLaunchers disk cfg.servicesDir ↔
      svc ∈ parsed disk cfg ∧ (svc.launcher ∨
        (Acyclic (PosEdge (remainingServices (loaded disk cfg))) ∧ disk.enabled markerDir svc)) := by
  rw [List.mem_append, mem_startupWaves, mem_postBootLaunchers, mem_remainingServices, mem_loaded,
    ← bootstrapNames_eq]
  cases hlauncher : svc.launcher with
  | true => simp
  | false =>
    simp only [hname, false_or, not_false_eq_true, and_true, Bool.false_eq_true, and_false, or_false]
    tauto

/-- The law on what is started. -/
theorem started_iff : (∀ svc : Service, svc.name ∉ bootstrapNames →
      (svc ∈ (startupWaves (loaded disk cfg)).flatten ++ postBootLaunchers disk cfg.servicesDir ↔
        svc ∈ parsed disk cfg ∧ disk.enabled cfg.enabledDir svc)) ↔
    (∀ svc ∈ parsed disk cfg, svc.name ∉ bootstrapNames → svc.launcher →
      disk.enabled cfg.enabledDir svc) ∧
    ∀ svc ∈ parsed disk cfg, svc.name ∉ bootstrapNames → svc.launcher = false →
      (Acyclic (PosEdge (remainingServices (loaded disk cfg))) ∧ disk.enabled markerDir svc ↔
        disk.enabled cfg.enabledDir svc) := by
  constructor
  · intro h
    constructor
    · intro svc hparsed hname hlauncher
      exact ((h svc hname).1 ((mem_started hname).2 ⟨hparsed, .inl hlauncher⟩)).2
    · intro svc hparsed hname hlauncher
      have hiff := (mem_started hname).symm.trans (h svc hname)
      simpa [hparsed, hlauncher] using hiff
  · rintro ⟨hlaunchers, hothers⟩ svc hname
    rw [mem_started hname]
    refine and_congr_right fun hparsed => ?_
    cases hlauncher : svc.launcher with
    | true => simp [hlaunchers svc hparsed hname hlauncher]
    | false => simpa using hothers svc hparsed hname hlauncher

/-- The law on what can be started on demand. -/
theorem onDemand_iff {m : ServiceManager}
    (hm : startAll disk.toBoot cfg.strictServiceValidation (loaded disk cfg) lane thread = .ok m) :
    (∀ svc ∈ parsed disk cfg, ¬disk.marked cfg.enabledDir svc →
      (m.startNamedService svc.name up).2 = .ok ()) ↔
    ∀ svc ∈ parsed disk cfg, svc.name ∉ bootstrapNames → ¬disk.marked cfg.enabledDir svc →
      disk.enabled markerDir svc := by
  refine forall₂_congr fun svc hparsed => ?_
  rw [startNamedService_startAll hm]
  constructor
  · intro h hname hunmarked
    obtain ⟨other, hother, heq⟩ := (h hunmarked).resolve_right hname
    have henabled := (mem_loaded.1 hother).2.resolve_left (heq ▸ hname)
    -- a marker goes by the name
    unfold Disk.enabled Disk.marked at henabled ⊢
    rw [← heq]
    exact henabled
  · intro h hunmarked
    by_cases hname : svc.name ∈ bootstrapNames
    · exact .inr hname
    · exact .inl ⟨svc, mem_loaded.2 ⟨hparsed, .inr (h hname hunmarked)⟩, rfl⟩

end Boot

/-- A boot that comes through keeps to the markers exactly if the two directories agree: the
configured one is not looked at, launchers are started without any, what the other one leaves out is
not in the catalog, and refused files are never a reason to fail. -/
theorem enableLaw_iff (disk : Disk) (cfg : InitConfig) (lane : ℕ → StartResult)
    (thread : ℕ → Option StartResult) (control : Except String Unit) :
    (∀ b, boot disk cfg lane thread control = .ok b → EnableLaw disk cfg b) ↔
      (Accepted disk cfg control → MarkersAgree disk cfg) := by
  constructor
  · intro h haccepted
    obtain ⟨m, hm⟩ := startAll_of_accepted haccepted lane thread
    have hlaw := h ⟨m, _⟩ (boot_eq_ok_iff.2 ⟨haccepted, hm, rfl⟩)
    obtain ⟨hlaunchers, hothers⟩ := started_iff.1 hlaw.started
    exact ⟨hlaunchers, hothers, (onDemand_iff hm).1 hlaw.onDemand, hlaw.strict⟩
  · intro h b hb
    obtain ⟨haccepted, hm, hstarted⟩ := boot_eq_ok_iff.1 hb
    have hagree := h haccepted
    refine ⟨?_, (onDemand_iff hm).2 hagree.unmarked, hagree.strict⟩
    rw [hstarted]
    exact started_iff.2 ⟨hagree.launchers, hagree.others⟩

def greeter : Service := { name := "greeter", command := "/bin/greeter", launcher := true }

/-- One launcher in the services directory, and a directory of markers that is empty. -/
def greeterDisk : Disk where
  pathExists path := path = ({} : InitConfig).servicesDir || path = ({} : InitConfig).enabledDir
  envVar _ := none
  baseMap := []
  readDir dir :=
    if dir = ({} : InitConfig).servicesDir then .ok [.ok "greeter.toml"]
    else .error "No such file or directory"
  readToString _ := .ok "name = \"greeter\"\ncommand = \"/bin/greeter\"\nlauncher = true\n"
  fromStr _ := .ok greeter
  isAlphanumeric := Char.isAlphanum
  pathExists_of_readDir dir h := by
    split at h
    · simp [*]
    · cases h

/-- The launcher is started without a marker. -/
theorem not_enableLaw_greeter :
    ¬∀ b, boot greeterDisk {} (fun _ => up) (fun _ => some up) (.ok ()) = .ok b →
      EnableLaw greeterDisk {} b := by
  intro h
  obtain ⟨b, hb⟩ : ∃ b, boot greeterDisk {} (fun _ => up) (fun _ => some up) (.ok ()) = .ok b :=
    exists_ok_of_isOk (by decide +kernel)
  have hparsed : parsed greeterDisk {} = [greeter] := rfl
  have hmem : greeter ∈ b.started := by
    rw [(boot_eq_ok_iff.1 hb).2.2, List.mem_append, mem_postBootLaunchers, hparsed]
    exact .inr ⟨List.mem_singleton_self _, rfl⟩
  have henabled := (((h b hb).started greeter (by decide)).1 hmem).2
  exact absurd henabled (by decide +kernel)

end Quantra.Manager
