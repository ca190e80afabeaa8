import Mathlib.Data.Nat.Notation

/-! Service definitions as `services/types.rs` deserializes them. A `HashMap` is the list of
its entries in iteration order; defaults are the ones serde fills in for absent keys. -/
namespace Quantra.Services

/-- `ResourceLimits`: `[soft, hard]` pairs, `0` standing for unlimited. -/
structure ResourceLimits where
  nofile : Option (ℕ × ℕ) := none
  nproc : Option (ℕ × ℕ) := none
  fsize : Option (ℕ × ℕ) := none
  stack : Option (ℕ × ℕ) := none
  memlock : Option (ℕ × ℕ) := none
  core : Option (ℕ × ℕ) := none
  deriving DecidableEq, Repr, Inhabited

structure CgroupConfig where
  memoryLimit : Option String := none
  cpuWeight : Option ℕ := none
  ioWeight : Option ℕ := none
  deriving DecidableEq, Repr, Inhabited

structure HealthCheck where
  command : String
  args : List String := []
  intervalSec : ℕ := 10
  failureThreshold : ℕ := 3
  timeoutSec : ℕ := 5
  deriving DecidableEq, Repr, Inhabited

inductive RestartPolicy
  | always
  | onFailure
  | no
  deriving DecidableEq, Repr, Inhabited

inductive NotifyType
  | simple
  | notify
  | bgProcess
  deriving DecidableEq, Repr, Inhabited

inductive SeccompMode
  | off
  | strict
  | profile
  deriving DecidableEq, Repr, Inhabited

inductive ProtectHome
  | no
  | readOnly
  | tmpfs
  | yes
  deriving DecidableEq, Repr, Inhabited

inductive ProtectProc
  | default
  | invisible
  | noaccess
  | ptraceable
  deriving DecidableEq, Repr, Inhabited

/-- The `Service` record. Field order and grouping follow the source. -/
structure Service where
  name : String
  description : Option String := none
  command : String
  args : List String := []
  apparmorProfile : Option String := none
  noNewPrivileges : Bool := true
  nonDumpable : Bool := true
  clearAmbientCaps : Bool := false
  dropCapabilities : List String := []
  seccomp : SeccompMode := .off
  seccompProfile : Option String := none
  oneshot : Bool := false
  console : Bool := false
  launcher : Bool := false
  notifyType : NotifyType := .simple
  pidFile : Option String := none
  readySocket : Option String := none
  socketAlias : Option String := none
  watchdogSec : ℕ := 0
  stopCommand : Option String := none
  stopArgs : List String := []
  reloadSignal : String := "SIGHUP"
  reloadCommand : Option String := none
  chainTo : Option String := none
  chainToAlways : Bool := false
  envFile : Option String := none
  environment : Option (List (String × String)) := none
  user : Option String := none
  group : Option String := none
  workingDir : Option String := none
  tty : Option String := none
  rlimit : Option ResourceLimits := none
  restart : RestartPolicy := .no
  restartSec : ℕ := 5
  maxRestarts : ℕ := 0
  restartIntervalSec : ℕ := 60
  timeoutStart : ℕ := 90
  timeoutStop : ℕ := 30
  dependencies : List String := []
  wants : List String := []
  milestone : List String := []
  after : List String := []
  socketListen : List String := []
  cgroupConfig : Option CgroupConfig := none
  healthcheck : Option HealthCheck := none
  conditionalDependencies : List (String × String) := []
  execStartPre : List String := []
  execStartPost : List String := []
  conditionPathExists : List String := []
  conditionPathNotExists : List String := []
  privateTmp : Bool := false
  protectSystem : Bool := false
  landlockPaths : List String := []
  cpuQuota : Option String := none
  tasksMax : Option ℕ := none
  memorySwapMax : Option String := none
  privateNetwork : Bool := false
  privateDevices : Bool := false
  privateIpc : Bool := false
  protectHostname : Bool := false
  protectHome : ProtectHome := .no
  protectProc : ProtectProc := .default
  protectKernelTunables : Bool := false
  protectKernelLogs : Bool := false
  protectControlGroups : Bool := false
  inaccessiblePaths : List String := []
  readOnlyPaths : List String := []
  bindPaths : List String := []
  bindReadOnlyPaths : List String := []
  memoryDenyWriteExecute : Bool := false
  restrictSuidSgid : Bool := false
  restrictRealtime : Bool := false
  lockPersonality : Bool := false
  restrictAddressFamilies : List String := []
  syscallFilterMode : String := "denylist"
  rootDirectory : Option String := none
  rootImage : Option String := none
  runtimeDirectory : Option String := none
  stateDirectory : Option String := none
  cacheDirectory : Option String := none
  logsDirectory : Option String := none
  ioDeviceWeights : List (String × ℕ) := []
  ioDeviceLatencies : List (String × ℕ) := []
  execStopPost : List String := []
  dynamicUser : Bool := false
  temporaryFilesystems : List String := []
  mountApiVfs : Bool := false
  procSubsetPid : Bool := false
  ambientCapabilities : List String := []
  capabilityBoundingSet : List String := []
  ipAddressDeny : List String := []
  ipAddressAllow : List String := []
  systemCallArchitecturesNative : Bool := true
  deriving Repr, Inhabited

end Quantra.Services
