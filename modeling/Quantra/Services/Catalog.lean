import Quantra.Process.Command
import Quantra.Process.Hardening
import Mathlib.Logic.Function.Basic

/-! The service set as `services/manager.rs` prepares it for boot: the built-in bootstrap lane, the
remaining services, the catalog for on-demand starts and the validation of the whole set. -/
namespace Quantra.Services
open Quantra.Process

/-- What the catalog reads from the machine at boot. `envVar` is `std::env::var` (absent also when
not Unicode) and `baseMap` is `environment::base_map`. -/
structure Boot where
  pathExists : String → Bool
  envVar : String → Option String
  baseMap : List (String × String)

/-! The bootstrap lane. -/

inductive Builtin
  | quantraNetd
  | quantraNet
  | consoleShell
  deriving DecidableEq, Repr

def Builtin.name : Builtin → String
  | .quantraNetd => "quantra-netd"
  | .quantraNet => "quantra-net"
  | .consoleShell => "console-shell"

def builtinBootstrapOrder : List Builtin := [.quantraNetd, .quantraNet, .consoleShell]

/-- `HashMap::insert` on the list of entries. -/
def insertPair (pairs : List (String × String)) (key value : String) : List (String × String) :=
  pairs.filter (·.1 ≠ key) ++ [(key, value)]

/-- The built-in definitions. They end in `..Default::default()`, so the fields they leave out
have the derived defaults rather than the ones of the parser. -/
def builtinService (boot : Boot) : Builtin → Service
  | .quantraNet => {
    name := "quantra-net"
    description := some "Hardcoded network setup client"
    command := "/overlayer/syshub/bin/quantra-net"
    args := ["setup"]
    oneshot := true
    workingDir := some "/"
    restart := .no
    restartSec := 1
    after := ["quantra-netd"]
    timeoutStart := 30
    timeoutStop := 5
    syscallFilterMode := ""
    systemCallArchitecturesNative := false }
  | .quantraNetd => {
    name := "quantra-netd"
    description := some "Hardcoded network daemon"
    command := "/overlayer/syshub/engine/quantra-netd"
    seccomp := .profile
    seccompProfile := some "network-daemon"
    readySocket := some "/run/quantra-system/quantra-netd.sock"
    workingDir := some "/"
    restart := .onFailure
    restartSec := 2
    timeoutStop := 5
    syscallFilterMode := ""
    systemCallArchitecturesNative := false }
  | .consoleShell => {
    name := "console-shell"
    description := some "Interactive Zainium console shell"
    command := "/overlayer/syshub/bin/bash"
    args := ["-il"]
    console := true
    tty := some "/dev/tty1"
    workingDir := some "/"
    environment := some (insertPair (insertPair (insertPair boot.baseMap "TERM" "linux")
      "HOME" "/root") "SHELL" "/overlayer/syshub/bin/bash")
    restart := .always
    restartSec := 1
    after := ["quantra-net"]
    timeoutStop := 5
    syscallFilterMode := ""
    systemCallArchitecturesNative := false }

def serviceOrBuiltin (boot : Boot) (services : List Service) (b : Builtin) : Service :=
  (services.find? (·.name = b.name)).getD (builtinService boot b)

def bootstrapServices (boot : Boot) (services : List Service) : List Service :=
  builtinBootstrapOrder.map (serviceOrBuiltin boot services)

/-- What the waves start: everything but the bootstrap names and the launchers. -/
def remainingServices (services : List Service) : List Service :=
  services.filter fun svc =>
    svc.name ∉ builtinBootstrapOrder.map Builtin.name ∧ svc.launcher = false

/-! The catalog. -/

/-- Whether the condition of a conditional dependency holds; an unknown form never does. -/
def conditionHolds (boot : Boot) (condition : String) : Bool :=
  match Text.dropLead "hardware-present:" condition with
  | some path => boot.pathExists path
  | none =>
    match Text.dropLead "file-exists:" condition with
    | some path => boot.pathExists path
    | none =>
      match Text.dropLead "env-set:" condition with
      | some var => (boot.envVar var).any (· ≠ "")
      | none => false

def resolveConditionalDep (boot : Boot) (depName condition : String) : Option String :=
  if conditionHolds boot condition then some depName else none

/-- Promote the conditional dependencies whose condition holds. -/
def promote (boot : Boot) (svc : Service) : Service :=
  { svc with
    dependencies := svc.dependencies ++
      svc.conditionalDependencies.filterMap fun p => resolveConditionalDep boot p.1 p.2 }

abbrev Catalog := String → Option Service

/-- `build_catalog`: of two services with one name the later one stays. -/
def buildCatalog (boot : Boot) (services : List Service) : Catalog :=
  let listed : Catalog := services.foldl (fun c svc => Function.update c svc.name (some svc))
    fun _ => none
  let full := builtinBootstrapOrder.foldl (fun c b =>
    if (c b.name).isSome then c else Function.update c b.name (some (builtinService boot b))) listed
  fun name => (full name).map (promote boot)

/-! Validation. -/

/-- `{:?}` of a seccomp mode. -/
def seccompModeDebug : SeccompMode → String
  | .off => "Off"
  | .strict => "Strict"
  | .profile => "Profile"

def capabilityIssues (svc : Service) : List String :=
  (svc.dropCapabilities.filter fun cap => (capabilityNameToNumber cap).isNone).map fun cap =>
    "service '" ++ svc.name ++ "' has unknown capability '" ++ cap ++ "' in drop_capabilities"

def seccompIssues (svc : Service) : List String :=
  match svc.seccomp, trimmedProfile svc with
  | .profile, some profile =>
    match resolveSeccompProfileDenylist profile with
    | .ok _ => []
    | .error e => ["service '" ++ svc.name ++ "' has invalid seccomp_profile '" ++ profile ++
        "': " ++ e ++ " (supported: " ++
        ", ".intercalate (supportedSeccompProfiles.map SeccompProfile.name) ++ ")"]
  | .profile, none =>
    ["service '" ++ svc.name ++ "' sets seccomp='profile' but seccomp_profile is missing"]
  | mode, some profile =>
    ["service '" ++ svc.name ++ "' sets seccomp_profile='" ++ profile ++
      "' but seccomp mode is '" ++ seccompModeDebug mode ++ "'"]
  | _, none => []

def privilegeIssues (svc : Service) : List String :=
  if svc.seccomp ≠ .off ∧ svc.noNewPrivileges = false then
    ["service '" ++ svc.name ++ "' enables seccomp but no_new_privileges=false"]
  else []

def commandIssues (svc : Service) : List String :=
  match resolveCommandArgv svc.command svc.args with
  | .ok _ => []
  | .error e => ["service '" ++ svc.name ++ "' command invalid: " ++ e]

/-- The checks of one service; an empty command skips the others. -/
def serviceIssues (svc : Service) : List String :=
  if (Text.trim svc.command).isEmpty then ["service '" ++ svc.name ++ "' has an empty command"]
  else commandIssues svc ++ capabilityIssues svc ++ seccompIssues svc ++ privilegeIssues svc

/-- The first loop; `seen` are the names of the services already visited. -/
def catalogIssues : List String → List Service → List String
  | _, [] => []
  | seen, svc :: rest =>
    (if svc.name ∈ seen then ["duplicate service name '" ++ svc.name ++ "'"] else []) ++
      serviceIssues svc ++ catalogIssues (svc.name :: seen) rest

/-- One reference of a service to another by name. -/
def referenceIssue (known : List String) (svc : Service) (selfIssue unknownIssue : String)
    (ref : String) : Option String :=
  if ref = svc.name then some ("service '" ++ svc.name ++ "' " ++ selfIssue)
  else if ref ∉ known then
    some ("service '" ++ svc.name ++ "' references unknown " ++ unknownIssue ++ " '" ++ ref ++ "'")
  else none

/-- `wants` may name the service itself. -/
def wantIssue (known : List String) (svc : Service) (want : String) : Option String :=
  if want ∉ known then some ("service '" ++ svc.name ++ "' wants unknown unit '" ++ want ++ "'")
  else none

def referenceIssues (known : List String) (svc : Service) : List String :=
  (svc.dependencies ++ svc.after).filterMap
      (referenceIssue known svc "depends on itself" "dependency") ++
    svc.wants.filterMap (wantIssue known svc) ++
    svc.milestone.filterMap (referenceIssue known svc "has itself as a milestone" "milestone")

def validationIssues (services : List Service) : List String :=
  let known := services.map (·.name) ++ builtinBootstrapOrder.map Builtin.name
  catalogIssues [] services ++ services.flatMap (referenceIssues known)

def validateServiceCatalog (services : List Service) (strict : Bool) : Except String Unit :=
  let issues := validationIssues services
  if issues.isEmpty ∨ strict = false then .ok ()
  else .error ("Service catalog validation found " ++ toString issues.length ++ " issue(s)\n- " ++
    "\n- ".intercalate issues)

/-! Small facts about the prepared set. -/

theorem bootstrapServices_names (boot : Boot) (services : List Service) :
    (bootstrapServices boot services).map (·.name) = builtinBootstrapOrder.map Builtin.name := by
  have hname : ∀ b, (serviceOrBuiltin boot services b).name = b.name := by
    intro b
    unfold serviceOrBuiltin
    cases hfind : services.find? (·.name = b.name) with
    | none => cases b <;> rfl
    | some svc => simpa using List.find?_some hfind
  simp [bootstrapServices, hname]

theorem mem_remainingServices {services : List Service} {svc : Service} :
    svc ∈ remainingServices services ↔ svc ∈ services ∧
      svc.name ∉ builtinBootstrapOrder.map Builtin.name ∧ svc.launcher = false := by
  simp [remainingServices]

end Quantra.Services
