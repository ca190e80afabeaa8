import Quantra.Process.Command
import Quantra.Process.Hardening
import Mathlib.Data.Finmap

/-! The launch record that `ServiceSupervisor::start` hands to `start_service_as`, and the one
that `restart_monitor` builds for an automatic restart. -/
namespace Quantra.Services
open Quantra.Process

/-- An environment overlay: a `HashMap<String, String>`. -/
abbrev EnvMap := Finmap (fun _ : String => String)

def EnvMap.ofPairs (pairs : List (String × String)) : EnvMap :=
  pairs.foldl (fun m p => m.insert p.1 p.2) ∅

/-- `HashMap::extend`: the new entries win. -/
def EnvMap.extend (m new : EnvMap) : EnvMap := new ∪ m

/-- What both code paths read from the machine: the account files (or the text of the error that
reading them gives), other files, and which sockets can be bound. -/
structure Host where
  passwd : Except String String
  group : Except String String
  readFile : String → Option String
  bindNotify : String → Bool
  bindUnix : String → Option ℤ
  bindTcp : String → Option ℤ
  isAlphanumeric : Char → Bool

structure ServiceLaunch where
  cmd : String
  args : List String
  uid : Option ℕ
  gid : Option ℕ
  workingDir : Option String
  ttyPath : Option String
  env : Option EnvMap
  logWriteFd : Option ℤ
  activationFds : List ℤ
  apparmorProfile : Option String
  noNewPrivileges : Bool
  nonDumpable : Bool
  clearAmbientCaps : Bool
  dropCapabilities : List ℕ
  ambientCapabilities : List ℕ
  capabilityBoundingSet : List ℕ
  seccompProfileDenylist : List ℕ
  seccompAllowlist : List ℕ
  seccompStrict : Bool
  rlimit : Option ResourceLimits
  privateTmp : Bool
  protectSystem : Bool
  landlockPaths : List String
  serviceForSandbox : Option Service

/-! Credentials. -/

/-- A numeric key stands for itself; any other key is looked up in the first field of the lines
of an account file and gives the third field. -/
def lookupId (fields : ℕ) (file noun title id key : String) (content : Except String String) :
    Except String ℕ :=
  match Text.parseU32 key with
  | some n => .ok n
  | none =>
    match content with
    | .error e => .error ("Cannot read " ++ file ++ " (" ++ noun ++ " '" ++ key ++ "'): " ++ e)
    | .ok text =>
      match ((Text.lines text).map (Text.splitn fields ':')).find?
          (fun f => 3 ≤ f.length ∧ f[0]? = some key) with
      | none => .error (title ++ " '" ++ key ++ "' not found in " ++ file)
      | some f =>
        match (f[2]?).bind Text.parseU32 with
        | some n => .ok n
        | none => .error ("Bad " ++ id ++ " for " ++ noun ++ " '" ++ key ++ "'")

def lookupUid (host : Host) (user : String) : Except String ℕ :=
  lookupId 7 "/overlayer/syshub/etc/passwd" "user" "User" "UID" user host.passwd

def lookupGid (host : Host) (group : String) : Except String ℕ :=
  lookupId 4 "/overlayer/syshub/etc/group" "group" "Group" "GID" group host.group

/-- `Option::map` of a fallible lookup, then `transpose`. -/
def transposeLookup (lookup : String → Except String ℕ) : Option String → Except String (Option ℕ)
  | none => .ok none
  | some key => (lookup key).map some

def resolveCredentials (host : Host) (svc : Service) : Except String (Option ℕ × Option ℕ) := do
  let uid ← transposeLookup (lookupUid host) svc.user
  let gid ← transposeLookup (lookupGid host) svc.group
  .ok (uid, gid)

/-- The uids that passwd assigns, as the allocator collects them. -/
def usedUids (passwd : Except String String) : List ℕ :=
  (Text.lines (passwd.toOption.getD "")).filterMap fun line =>
    let fields := Text.split ':' line
    if 3 ≤ fields.length then (fields[2]?).bind Text.parseU32 else none

def dynamicUidMin : ℕ := 60000

def dynamicUidMax : ℕ := 65533

/-- `sandbox::allocate_dynamic_uid`. Only passwd is consulted. -/
def allocateDynamicUid (passwd : Except String String) : Except String (ℕ × ℕ) :=
  match (List.range' dynamicUidMin (dynamicUidMax + 1 - dynamicUidMin)).find?
      (· ∉ usedUids passwd) with
  | some uid => .ok (uid, uid)
  | none => .error "dynamic_user: no free UID in range 60000-65533"

/-- `start`: a dynamic user falls back to root when no uid is free. -/
def startCredentials (host : Host) (svc : Service) : Except String (Option ℕ × Option ℕ) :=
  if svc.dynamicUser then
    match allocateDynamicUid host.passwd with
    | .ok (u, g) => .ok (some u, some g)
    | .error _ => .ok (none, none)
  else resolveCredentials host svc

/-! Environment and activation sockets. -/

/-- One line of an env file: comments, blank lines and lines without a key give nothing. -/
def parseEnvLine (line : String) : Option (String × String) :=
  let line := Text.trim line
  if line.isEmpty ∨ line.toList.head? = some '#' then none
  else
    let line := Text.trim ((Text.dropLead "export " line).getD line)
    match Text.splitOnce '=' line with
    | none => none
    | some (key, value) =>
      let key := Text.trim key
      if key.isEmpty then none
      else some (key, Text.trimMatches (· == '"') (Text.trim value))

def loadEnvFile (host : Host) (path : String) : Option EnvMap :=
  (host.readFile path).map fun content => .ofPairs ((Text.lines content).filterMap parseEnvLine)

/-- The overlay that the configuration gives: `env_file`, then `environment` over it. -/
def configuredEnv (host : Host) (svc : Service) : EnvMap :=
  let base := ((svc.envFile.bind (loadEnvFile host)).map (EnvMap.extend ∅)).getD ∅
  match svc.environment with
  | some pairs => base.extend (.ofPairs pairs)
  | none => base

def sanitize (host : Host) (name : String) : String :=
  String.ofList (name.toList.map fun c => if host.isAlphanumeric c ∨ c = '-' then c else '_')

def notifySocketPath (host : Host) (name : String) : String :=
  "/run/quantra-system/notify/" ++ sanitize host name ++ ".sock"

/-- The socket of `NotifyServer::new`, where the service asks for it and it can be bound. -/
def notifyServer (host : Host) (svc : Service) : Option String :=
  if svc.notifyType = .notify ∧ host.bindNotify svc.name then
    some (notifySocketPath host svc.name)
  else none

structure ActivationSocket where
  name : String
  fd : ℤ
  deriving DecidableEq, Repr

def openActivationSocket (host : Host) (name spec : String) : Option ActivationSocket :=
  match Text.dropLead "unix:" spec with
  | some path => (host.bindUnix path).map (⟨name, ·⟩)
  | none =>
    match Text.dropLead "tcp:" spec with
    | some addr => (host.bindTcp addr).map (⟨name, ·⟩)
    | none => none

def activationSockets (host : Host) (svc : Service) : List ActivationSocket :=
  svc.socketListen.filterMap (openActivationSocket host svc.name)

def buildListenEnv (sockets : List ActivationSocket) : List (String × String) :=
  [("LISTEN_FDS", toString sockets.length),
    ("LISTEN_FDNAMES", ":".intercalate (sockets.map (·.name)))]

def startEnv (host : Host) (svc : Service) : EnvMap :=
  let env := configuredEnv host svc
  let env := match notifyServer host svc with
    | some path => env.insert "NOTIFY_SOCKET" path
    | none => env
  let sockets := activationSockets host svc
  if sockets.isEmpty then env
  else (buildListenEnv sockets).foldl (fun m p => m.insert p.1 p.2) env

/-! The two launch constructions. -/

/-- `map_err(|e| anyhow!("Service '{}': {}", name, e))`. -/
def inService {α : Type} (svc : Service) : Except String α → Except String α
  | .ok a => .ok a
  | .error e => .error ("Service '" ++ svc.name ++ "': " ++ e)

/-- `start`, from the credentials to the call of `start_service_as`; `logger` is the write end
of the pipe that `create_service_logger` made, if it made one. -/
def startLaunch (host : Host) (logger : Option ℤ) (svc : Service) :
    Except String ServiceLaunch := do
  let creds ← startCredentials host svc
  let sockets := activationSockets host svc
  let env := startEnv host svc
  let dropCapabilities ← inService svc (resolveCapabilityNumbers svc.dropCapabilities)
  let denylist ← inService svc (resolveSeccompProfileForService svc)
  let argv ← inService svc (resolveCommandArgv svc.command svc.args)
  .ok {
    cmd := argv.1
    args := argv.2
    uid := creds.1
    gid := creds.2
    workingDir := svc.workingDir
    ttyPath := svc.tty
    env := some env
    logWriteFd := if svc.console then none else logger
    activationFds := sockets.map (·.fd)
    apparmorProfile := svc.apparmorProfile
    noNewPrivileges := svc.noNewPrivileges
    nonDumpable := svc.nonDumpable
    clearAmbientCaps := svc.clearAmbientCaps
    dropCapabilities := dropCapabilities
    ambientCapabilities := resolveAmbientCaps svc.ambientCapabilities
    capabilityBoundingSet := resolveBoundingSet svc.capabilityBoundingSet
    seccompProfileDenylist := denylist
    seccompAllowlist := resolveSeccompAllowlist svc
    seccompStrict := svc.seccomp = .strict
    rlimit := svc.rlimit
    privateTmp := svc.privateTmp
    protectSystem := svc.protectSystem
    landlockPaths := svc.landlockPaths
    serviceForSandbox := some svc }

/-- How a failed resolution ends an iteration of `restart_monitor`. -/
inductive RestartError
  | retry (message : String)
  | giveUp (message : String)
  deriving DecidableEq, Repr

def orGiveUp {α : Type} (context : String) : Except String α → Except RestartError α
  | .ok a => .ok a
  | .error e => .error (.giveUp (context ++ e))

/-- `restart_monitor`, from the credentials to the call of `start_service_as`. -/
def restartLaunch (host : Host) (logger : Option ℤ) (svc : Service) :
    Except RestartError ServiceLaunch := do
  let creds ← match resolveCredentials host svc with
    | .ok c => .ok c
    | .error e => .error (.retry ("Credential error on restart for '" ++ svc.name ++ "': " ++ e))
  let argv ← orGiveUp ("Invalid restart command for '" ++ svc.name ++ "': ")
    (resolveCommandArgv svc.command svc.args)
  let dropCapabilities ← orGiveUp ("Invalid capability drop list for '" ++ svc.name ++ "': ")
    (resolveCapabilityNumbers svc.dropCapabilities)
  let denylist ← orGiveUp ("Invalid seccomp profile for '" ++ svc.name ++ "': ")
    (resolveSeccompProfileForService svc)
  let env := configuredEnv host svc
  .ok {
    cmd := argv.1
    args := argv.2
    uid := creds.1
    gid := creds.2
    workingDir := svc.workingDir
    ttyPath := svc.tty
    env := if env = ∅ then none else some env
    logWriteFd := if svc.console then none else logger
    activationFds := []
    apparmorProfile := svc.apparmorProfile
    noNewPrivileges := svc.noNewPrivileges
    nonDumpable := svc.nonDumpable
    clearAmbientCaps := svc.clearAmbientCaps
    dropCapabilities := dropCapabilities
    ambientCapabilities := resolveAmbientCaps svc.ambientCapabilities
    capabilityBoundingSet := resolveBoundingSet svc.capabilityBoundingSet
    seccompProfileDenylist := denylist
    seccompAllowlist := resolveSeccompAllowlist svc
    seccompStrict := svc.seccomp = .strict
    rlimit := svc.rlimit
    privateTmp := svc.privateTmp
    protectSystem := svc.protectSystem
    landlockPaths := svc.landlockPaths
    serviceForSandbox := some svc }

/-! Dynamic uids. -/

/-- `u` lies in the dynamic range and has no entry in passwd. -/
def IsDynamicUid (passwd : Except String String) (u : ℕ) : Prop :=
  dynamicUidMin ≤ u ∧ u ≤ dynamicUidMax ∧ u ∉ usedUids passwd

/-- The allocator hands out the least free uid, with the gid of the same number. -/
theorem allocateDynamicUid_eq_ok_iff {passwd : Except String String} {u g : ℕ} :
    allocateDynamicUid passwd = .ok (u, g) ↔ g = u ∧ IsLeast {v | IsDynamicUid passwd v} u := by
  unfold allocateDynamicUid
  cases hfind : (List.range' dynamicUidMin (dynamicUidMax + 1 - dynamicUidMin)).find?
      (· ∉ usedUids passwd) with
  | none =>
    rw [List.find?_range'_eq_none] at hfind
    constructor
    · intro h
      cases h
    · rintro ⟨-, ⟨hmin, hmax, hfree⟩, -⟩
      have hused := hfind u hmin (by omega)
      simp [hfree] at hused
  | some v =>
    rw [List.find?_range'_eq_some, List.mem_range'_1] at hfind
    obtain ⟨hfree, hmem, hleast⟩ := hfind
    have hv : IsLeast {v | IsDynamicUid passwd v} v := by
      refine ⟨⟨hmem.1, by omega, by simpa using hfree⟩, fun w ⟨hmin, hmax, hw⟩ => ?_⟩
      by_contra hlt
      have hused := hleast w hmin (by omega)
      simp [hw] at hused
    constructor
    · intro h
      cases h
      exact ⟨rfl, hv⟩
    · rintro ⟨rfl, hu⟩
      rw [hu.unique hv]

theorem allocateDynamicUid_ok_iff {passwd : Except String String} :
    (∃ ug, allocateDynamicUid passwd = .ok ug) ↔ ∃ u, IsDynamicUid passwd u := by
  constructor
  · rintro ⟨⟨u, g⟩, h⟩
    exact ⟨u, (allocateDynamicUid_eq_ok_iff.1 h).2.1⟩
  · intro h
    classical
    exact ⟨(Nat.find h, Nat.find h), allocateDynamicUid_eq_ok_iff.2
      ⟨rfl, Nat.find_spec h, fun v hv => Nat.find_min' h hv⟩⟩

/-! Comparing the two launches. -/

/-- Equality in every field except the number of the freshly made log pipe. The overlays are
compared as `start_service_as` reads them: no overlay is the same as an empty one. -/
def ServiceLaunch.Same (l l' : ServiceLaunch) : Prop :=
  l.env.getD ∅ = l'.env.getD ∅ ∧
    { l with env := none, logWriteFd := none } = { l' with env := none, logWriteFd := none }

/-- Equality in every field except the number of the freshly made log pipe. -/
def ServiceLaunch.Identical (l l' : ServiceLaunch) : Prop :=
  { l with logWriteFd := none } = { l' with logWriteFd := none }

/-- A restart launches something comparable to `launch`, a dynamic user again under a free uid. -/
def Relaunches (host : Host) (logger : Option ℤ) (svc : Service)
    (compare : ServiceLaunch → ServiceLaunch → Prop) (launch : ServiceLaunch) : Prop :=
  ∃ l, restartLaunch host logger svc = .ok l ∧ compare l launch ∧
    (svc.dynamicUser → ∃ u, l.uid = some u ∧ IsDynamicUid host.passwd u)

/-- The configurations and hosts for which the two copies agree: a dynamic user is also given a
user and a group that stand for the uid the allocator finds, the notify socket is already in the
configured environment, and no activation socket opens. -/
structure CopiesAgree (host : Host) (svc : Service) : Prop where
  creds : svc.dynamicUser → ∃ u user group, IsLeast {v | IsDynamicUid host.passwd v} u ∧
    svc.user = some user ∧ lookupUid host user = .ok u ∧
    svc.group = some group ∧ lookupGid host group = .ok u
  notify : svc.notifyType = .notify → host.bindNotify svc.name →
    (configuredEnv host svc).lookup "NOTIFY_SOCKET" = some (notifySocketPath host svc.name)
  sockets : ∀ spec ∈ svc.socketListen, openActivationSocket host svc.name spec = none

theorem startEnv_eq_configuredEnv_iff {host : Host} {svc : Service}
    (hsockets : activationSockets host svc = []) :
    startEnv host svc = configuredEnv host svc ↔
      (svc.notifyType = .notify → host.bindNotify svc.name →
        (configuredEnv host svc).lookup "NOTIFY_SOCKET" =
          some (notifySocketPath host svc.name)) := by
  simp only [startEnv, notifyServer, hsockets, List.isEmpty_nil, if_true]
  by_cases hns : svc.notifyType = .notify ∧ host.bindNotify svc.name
  · simp only [hns, and_self, if_true, forall_const]
    constructor
    · intro h
      rw [← h, Finmap.lookup_insert]
    · intro h
      refine Finmap.ext_lookup fun key => ?_
      by_cases hkey : key = "NOTIFY_SOCKET"
      · subst hkey
        rw [Finmap.lookup_insert, h]
      · rw [Finmap.lookup_insert_of_ne _ hkey]
  · simp only [hns, if_false, true_iff]
    intro hnotify hbind
    exact absurd ⟨hnotify, hbind⟩ hns

private theorem Except.bind_eq_ok {ε α β : Type} {x : Except ε α} {f : α → Except ε β} {b : β} :
    (x >>= f) = .ok b ↔ ∃ a, x = .ok a ∧ f a = .ok b := by
  cases x with
  | error e => simp [bind, Except.bind]
  | ok a => simp [bind, Except.bind]

private theorem inService_eq_ok {α : Type} {svc : Service} {x : Except String α} {a : α} :
    inService svc x = .ok a ↔ x = .ok a := by
  cases x <;> simp [inService]

private theorem orGiveUp_eq_ok {α : Type} {context : String} {x : Except String α} {a : α} :
    orGiveUp context x = .ok a ↔ x = .ok a := by
  cases x <;> simp [orGiveUp]

theorem startLaunch_fields {host : Host} {logger : Option ℤ} {svc : Service} {l : ServiceLaunch}
    (h : startLaunch host logger svc = .ok l) :
    startCredentials host svc = .ok (l.uid, l.gid) ∧ l.env = some (startEnv host svc) ∧
      l.activationFds = (activationSockets host svc).map (·.fd) := by
  simp only [startLaunch, Except.bind_eq_ok, inService_eq_ok] at h
  obtain ⟨creds, hcreds, caps, -, denylist, -, argv, -, hl⟩ := h
  cases hl
  exact ⟨hcreds, rfl, rfl⟩

/-- Of the machine only the credentials decide whether `start` gets as far as the launch. -/
theorem exists_startLaunch {host host' : Host} {logger : Option ℤ} {svc : Service}
    {l : ServiceLaunch} (h : startLaunch host logger svc = .ok l) {uid gid : Option ℕ}
    (hcreds : startCredentials host' svc = .ok (uid, gid)) :
    ∃ l', startLaunch host' logger svc = .ok l' ∧ l'.uid = uid := by
  simp only [startLaunch, Except.bind_eq_ok, inService_eq_ok] at h
  obtain ⟨creds, -, caps, hcaps, denylist, hdeny, argv, hargv, -⟩ := h
  unfold startLaunch
  rw [hcreds, hcaps, hdeny, hargv]
  exact ⟨_, rfl, rfl⟩

theorem restartLaunch_fields {host : Host} {logger : Option ℤ} {svc : Service}
    {l : ServiceLaunch} (h : restartLaunch host logger svc = .ok l) :
    resolveCredentials host svc = .ok (l.uid, l.gid) ∧
      l.env.getD ∅ = configuredEnv host svc := by
  unfold restartLaunch at h
  cases hcreds : resolveCredentials host svc with
  | error e =>
    rw [hcreds] at h
    cases h
  | ok creds =>
    rw [hcreds] at h
    simp only [Except.bind_eq_ok, orGiveUp_eq_ok] at h
    obtain ⟨creds', heq, argv, -, caps, -, denylist, -, hl⟩ := h
    cases heq
    cases hl
    refine ⟨rfl, ?_⟩
    dsimp only
    split
    · rename_i hempty
      exact hempty.symm
    · rfl

/-- The fields that confine the child, as the configuration gives them. -/
structure Confines (svc : Service) (l : ServiceLaunch) : Prop where
  denylist : resolveSeccompProfileForService svc = .ok l.seccompProfileDenylist
  allowlist : l.seccompAllowlist = resolveSeccompAllowlist svc
  strict : l.seccompStrict = decide (svc.seccomp = .strict)
  rlimit : l.rlimit = svc.rlimit
  privateTmp : l.privateTmp = svc.privateTmp
  protectSystem : l.protectSystem = svc.protectSystem
  landlockPaths : l.landlockPaths = svc.landlockPaths
  sandbox : l.serviceForSandbox = some svc
  noNewPrivileges : l.noNewPrivileges = svc.noNewPrivileges
  dropCapabilities : resolveCapabilityNumbers svc.dropCapabilities = .ok l.dropCapabilities

/-- A launch of `svc`, by a start or by an automatic restart. -/
def LaunchOf (host : Host) (logger : Option ℤ) (svc : Service) (l : ServiceLaunch) : Prop :=
  startLaunch host logger svc = .ok l ∨ restartLaunch host logger svc = .ok l

/-- Both copies confine the child alike. -/
theorem LaunchOf.confines {host : Host} {logger : Option ℤ} {svc : Service} {l : ServiceLaunch}
    (h : LaunchOf host logger svc l) : Confines svc l := by
  cases h with
  | inl hstart =>
    simp only [startLaunch, Except.bind_eq_ok, inService_eq_ok] at hstart
    obtain ⟨creds, -, caps, hcaps, denylist, hdeny, argv, -, hl⟩ := hstart
    cases hl
    exact ⟨hdeny, rfl, rfl, rfl, rfl, rfl, rfl, rfl, rfl, hcaps⟩
  | inr hrestart =>
    have hcreds := (restartLaunch_fields hrestart).1
    unfold restartLaunch at hrestart
    rw [hcreds] at hrestart
    simp only [Except.bind_eq_ok, orGiveUp_eq_ok] at hrestart
    obtain ⟨creds, -, argv, -, caps, hcaps, denylist, hdeny, hl⟩ := hrestart
    cases hl
    exact ⟨hdeny, rfl, rfl, rfl, rfl, rfl, rfl, rfl, rfl, hcaps⟩

/-- After a successful start the second copy differs only in credentials, overlay, log pipe and
activation sockets; only its credential lookup can fail. -/
theorem restartLaunch_of_startLaunch {host : Host} {logger : Option ℤ} {svc : Service}
    {l : ServiceLaunch} (h : startLaunch host logger svc = .ok l) (logger' : Option ℤ) :
    restartLaunch host logger' svc = match resolveCredentials host svc with
      | .ok creds => .ok { l with
          uid := creds.1
          gid := creds.2
          env := if configuredEnv host svc = ∅ then none else some (configuredEnv host svc)
          logWriteFd := if svc.console then none else logger'
          activationFds := [] }
      | .error e =>
        .error (.retry ("Credential error on restart for '" ++ svc.name ++ "': " ++ e)) := by
  simp only [startLaunch, Except.bind_eq_ok, inService_eq_ok] at h
  obtain ⟨creds, hcreds, caps, hcaps, denylist, hdeny, argv, hargv, hl⟩ := h
  cases hl
  unfold restartLaunch
  rw [hcaps, hdeny, hargv]
  cases resolveCredentials host svc <;> rfl

private theorem activationFds_eq_nil {host : Host} {svc : Service} :
    ([] : List ℤ) = (activationSockets host svc).map (·.fd) ↔ activationSockets host svc = [] := by
  rw [eq_comm, List.map_eq_nil_iff]

private theorem transposeLookup_eq_some {lookup : String → Except String ℕ} {key : Option String}
    {n : ℕ} : transposeLookup lookup key = .ok (some n) ↔ ∃ k, key = some k ∧ lookup k = .ok n := by
  cases key with
  | none => simp [transposeLookup]
  | some k => cases h : lookup k <;> simp [transposeLookup, Except.map, h]

private theorem resolveCredentials_eq_some {host : Host} {svc : Service} {u g : ℕ} :
    resolveCredentials host svc = .ok (some u, some g) ↔
      (∃ user, svc.user = some user ∧ lookupUid host user = .ok u) ∧
      (∃ group, svc.group = some group ∧ lookupGid host group = .ok g) := by
  rw [← transposeLookup_eq_some, ← transposeLookup_eq_some]
  simp [resolveCredentials, Except.bind_eq_ok]

/-- Credentials of the two copies agree, a dynamic user getting a free uid again. -/
theorem creds_agree_iff {host : Host} {svc : Service} {uid gid : Option ℕ}
    (h : startCredentials host svc = .ok (uid, gid)) :
    (resolveCredentials host svc = .ok (uid, gid) ∧
      (svc.dynamicUser → ∃ u, uid = some u ∧ IsDynamicUid host.passwd u)) ↔
    (svc.dynamicUser → ∃ u user group, IsLeast {v | IsDynamicUid host.passwd v} u ∧
      svc.user = some user ∧ lookupUid host user = .ok u ∧
      svc.group = some group ∧ lookupGid host group = .ok u) := by
  unfold startCredentials at h
  by_cases hdyn : svc.dynamicUser
  · simp only [hdyn, if_true, forall_const] at h ⊢
    cases halloc : allocateDynamicUid host.passwd with
    | error e =>
      -- the fallback to root is no dynamic uid, and then there is no free uid either
      rw [halloc] at h
      cases h
      constructor
      · rintro ⟨-, u, hu, -⟩
        cases hu
      · rintro ⟨u, -, -, hleast, -⟩
        have halloc' := allocateDynamicUid_eq_ok_iff.2 ⟨rfl, hleast⟩
        rw [halloc] at halloc'
        cases halloc'
    | ok ug =>
      obtain ⟨u, g⟩ := ug
      rw [halloc] at h
      cases h
      obtain ⟨rfl, hleast⟩ := allocateDynamicUid_eq_ok_iff.1 halloc
      rw [resolveCredentials_eq_some]
      constructor
      · rintro ⟨⟨⟨user, huser, hu⟩, group, hgroup, hg⟩, -⟩
        exact ⟨g, user, group, hleast, huser, hu, hgroup, hg⟩
      · rintro ⟨v, user, group, hv, huser, hu, hgroup, hg⟩
        have hvu := hv.unique hleast
        subst hvu
        exact ⟨⟨⟨user, huser, hu⟩, group, hgroup, hg⟩, v, rfl, hleast.1⟩
  · simp only [hdyn, Bool.false_eq_true, if_false, false_implies, and_true] at h ⊢
    simpa using h

/-- The overlay, credentials and sockets of a restart, compared as `start_service_as` reads them. -/
private theorem same_iff {l : ServiceLaunch} {uid gid : Option ℕ} {env : EnvMap}
    {lenv : EnvMap} {log : Option ℤ} (hlenv : l.env = some lenv) :
    ServiceLaunch.Same { l with
        uid, gid
        env := if env = ∅ then none else some env
        logWriteFd := log
        activationFds := [] } l ↔
      uid = l.uid ∧ gid = l.gid ∧ env = lenv ∧ [] = l.activationFds := by
  have hget : (if env = ∅ then none else some env : Option EnvMap).getD ∅ = env := by
    split <;> simp_all
  unfold ServiceLaunch.Same
  rw [hget, hlenv]
  simp only [Option.getD_some, ServiceLaunch.mk.injEq, true_and, and_true]
  tauto

private theorem identical_iff {l : ServiceLaunch} {uid gid : Option ℕ} {env : EnvMap}
    {lenv : EnvMap} {log : Option ℤ} (hlenv : l.env = some lenv) :
    ServiceLaunch.Identical { l with
        uid, gid
        env := if env = ∅ then none else some env
        logWriteFd := log
        activationFds := [] } l ↔
      (uid = l.uid ∧ gid = l.gid ∧ env = lenv ∧ [] = l.activationFds) ∧ env ≠ ∅ := by
  unfold ServiceLaunch.Identical
  rw [hlenv]
  by_cases henv : env = ∅
  · simp [henv]
  · simp only [henv, if_false, ServiceLaunch.mk.injEq, true_and, and_true, Option.some.injEq]
    tauto

/-- What the two copies must agree on, given the credentials of the restart. -/
theorem copiesAgree_iff {host : Host} {logger : Option ℤ} {svc : Service} {l : ServiceLaunch}
    (h : startLaunch host logger svc = .ok l) :
    CopiesAgree host svc ↔
      (resolveCredentials host svc = .ok (l.uid, l.gid) ∧
        (svc.dynamicUser → ∃ u, l.uid = some u ∧ IsDynamicUid host.passwd u)) ∧
      configuredEnv host svc = startEnv host svc ∧ [] = l.activationFds := by
  obtain ⟨hcreds, -, hfds⟩ := startLaunch_fields h
  rw [creds_agree_iff hcreds, hfds, activationFds_eq_nil]
  constructor
  · intro hagree
    have hsockets : activationSockets host svc = [] := List.filterMap_eq_nil_iff.2 hagree.sockets
    have henv := (startEnv_eq_configuredEnv_iff hsockets).2 hagree.notify
    exact ⟨hagree.creds, henv.symm, hsockets⟩
  · intro ⟨hc, henv, hsockets⟩
    exact ⟨hc, (startEnv_eq_configuredEnv_iff hsockets).1 henv.symm,
      List.filterMap_eq_nil_iff.1 hsockets⟩

/-- A restart succeeds exactly when its credential lookup does. -/
private theorem relaunches_iff {host : Host} {logger logger' : Option ℤ} {svc : Service}
    {l : ServiceLaunch} (h : startLaunch host logger svc = .ok l)
    (compare : ServiceLaunch → ServiceLaunch → Prop) :
    Relaunches host logger' svc compare l ↔ ∃ uid gid,
      resolveCredentials host svc = .ok (uid, gid) ∧
      compare { l with
        uid
        gid
        env := if configuredEnv host svc = ∅ then none else some (configuredEnv host svc)
        logWriteFd := if svc.console then none else logger'
        activationFds := [] } l ∧
      (svc.dynamicUser → ∃ u, uid = some u ∧ IsDynamicUid host.passwd u) := by
  unfold Relaunches
  rw [restartLaunch_of_startLaunch h logger']
  cases resolveCredentials host svc with
  | error e => simp
  | ok creds => simp [Prod.ext_iff]

/-- An automatic restart relaunches what `start` launched exactly where the configuration leaves
credentials, notify socket and activation sockets aside. Compared as bare `Option`s the overlay
fields agree only if there is something to overlay: `start` passes an empty map, the monitor
passes none. -/
theorem restartLaunch_same_iff (host : Host) (logger logger' : Option ℤ) (svc : Service)
    (l : ServiceLaunch) (h : startLaunch host logger svc = .ok l) :
    (Relaunches host logger' svc ServiceLaunch.Same l ↔ CopiesAgree host svc) ∧
    (Relaunches host logger' svc ServiceLaunch.Identical l ↔
      CopiesAgree host svc ∧ configuredEnv host svc ≠ ∅) := by
  obtain ⟨-, henv, -⟩ := startLaunch_fields h
  rw [relaunches_iff h, relaunches_iff h, copiesAgree_iff h]
  simp only [same_iff henv, identical_iff henv]
  constructor
  · constructor
    · rintro ⟨uid, gid, hres, ⟨rfl, rfl, hmap, hfds⟩, hdyn⟩
      exact ⟨⟨hres, hdyn⟩, hmap, hfds⟩
    · rintro ⟨⟨hres, hdyn⟩, hmap, hfds⟩
      exact ⟨l.uid, l.gid, hres, ⟨rfl, rfl, hmap, hfds⟩, hdyn⟩
  · constructor
    · rintro ⟨uid, gid, hres, ⟨⟨rfl, rfl, hmap, hfds⟩, hne⟩, hdyn⟩
      exact ⟨⟨⟨hres, hdyn⟩, hmap, hfds⟩, hne⟩
    · rintro ⟨⟨⟨hres, hdyn⟩, hmap, hfds⟩, hne⟩
      exact ⟨l.uid, l.gid, hres, ⟨⟨rfl, rfl, hmap, hfds⟩, hne⟩, hdyn⟩

/-- A machine with the root account only, nothing readable and no socket that can be bound. -/
def bareHost : Host where
  passwd := .ok "root:x:0:0:root:/root:/bin/sh\n"
  group := .ok "root:x:0:\n"
  readFile _ := none
  bindNotify _ := false
  bindUnix _ := none
  bindTcp _ := none
  isAlphanumeric := Char.isAlphanum

theorem exists_ok_of_isOk {ε α : Type} {x : Except ε α} (h : x.isOk) :
    ∃ a, x = .ok a := by
  cases x with
  | error e => cases h
  | ok a => exact ⟨a, rfl⟩

theorem restartLaunch_same_plain :
    let svc : Service := { name := "web", command := "/bin/web", environment := some [("A", "1")] }
    ∃ l, startLaunch bareHost (some 5) svc = .ok l ∧
      Relaunches bareHost (some 6) svc ServiceLaunch.Same l ∧
      Relaunches bareHost (some 6) svc ServiceLaunch.Identical l := by
  intro svc
  have hagree : CopiesAgree bareHost svc := by
    refine ⟨fun hdyn => ?_, fun hnotify => ?_, fun spec hspec => ?_⟩
    · cases hdyn
    · cases hnotify
    · cases hspec
  obtain ⟨l, hl⟩ := exists_ok_of_isOk (x := startLaunch bareHost (some 5) svc) (by decide +kernel)
  obtain ⟨hsame, hidentical⟩ := restartLaunch_same_iff bareHost (some 5) (some 6) svc l hl
  exact ⟨l, hl, hsame.2 hagree, hidentical.2 ⟨hagree, by decide⟩⟩

/-- A dynamic user restarts as root. -/
theorem restartLaunch_dynamicUser_as_root :
    let svc : Service := { name := "web", command := "/bin/web", dynamicUser := true }
    ∃ l l', startLaunch bareHost (some 5) svc = .ok l ∧
      restartLaunch bareHost (some 6) svc = .ok l' ∧ l.uid = some 60000 ∧ l'.uid = none ∧
      ¬ Relaunches bareHost (some 6) svc ServiceLaunch.Same l := by
  intro svc
  obtain ⟨l, hl⟩ := exists_ok_of_isOk (x := startLaunch bareHost (some 5) svc) (by decide +kernel)
  obtain ⟨hcreds, -, -⟩ := startLaunch_fields hl
  have hstart : startCredentials bareHost svc = .ok (some 60000, some 60000) := by decide +kernel
  have hrestart : resolveCredentials bareHost svc = .ok (none, none) := rfl
  have hl' := restartLaunch_of_startLaunch hl (some 6)
  rw [hrestart] at hl'
  rw [hstart, Except.ok.injEq, Prod.mk.injEq] at hcreds
  refine ⟨l, _, hl, hl', hcreds.1.symm, rfl, ?_⟩
  rintro ⟨l'', hl'', -, hdyn⟩
  obtain ⟨u, hu, -⟩ := hdyn rfl
  rw [hl'] at hl''
  cases hl''
  cases hu

end Quantra.Services
