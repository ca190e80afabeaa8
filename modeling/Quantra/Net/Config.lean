import Quantra.Lib.FileUpdate
import Mathlib.Data.List.Permutation
import Mathlib.Order.Basic

/-! `network.yaml`, the configuration of `quantra-netd`. Every call that changes it reads it, falls
back to the default if that fails, and writes it anew; nothing locks the file. -/
namespace Quantra.NetConfig

inductive RunMode
  | balanced
  | performance
  | powerSave
  deriving DecidableEq, Repr

inductive WifiSecurity
  | openNetwork
  | wpa2Psk
  | wpa3Psk
  | wpa2Enterprise
  | wpa3Enterprise
  deriving DecidableEq, Repr

structure WifiProfile where
  ssid : String
  security : WifiSecurity
  password : Option String
  hidden : Bool
  autoconnect : Bool
  deriving DecidableEq, Repr

structure InterfaceConfig where
  state : String
  addresses : List String
  gateway : Option String
  dns : List String
  deriving DecidableEq, Repr

structure RouteInfo where
  destination : String
  gateway : Option String
  interface : Option String
  deriving DecidableEq, Repr

/-- A `BTreeMap<String, _>`: its entries in the order of their keys. -/
abbrev Entries (α : Type) := List (String × α)

namespace Entries

variable {α : Type}

def insert (m : Entries α) (key : String) (value : α) : Entries α :=
  match m with
  | [] => [(key, value)]
  | entry :: rest =>
    if key = entry.1 then (key, value) :: rest
    else if key < entry.1 then (key, value) :: entry :: rest
    else entry :: Entries.insert rest key value

/-- A change to the value of one key, if there is one. -/
def modify (m : Entries α) (key : String) (f : α → α) : Entries α :=
  m.map fun entry => if entry.1 = key then (entry.1, f entry.2) else entry

end Entries

structure NetworkConfig where
  interfaces : Entries InterfaceConfig
  routes : List RouteInfo
  wifi : List WifiProfile
  wifiAutoconnect : Entries Bool
  mode : RunMode
  totalConnections : UInt64
  deriving DecidableEq, Repr

/-- `NetworkConfig::default()`. -/
def NetworkConfig.empty : NetworkConfig := ⟨[], [], [], [], .balanced, 0⟩

inductive LinkState
  | up
  | down
  | unknown
  deriving DecidableEq, Repr

/-- What `save_config` uses of a link of the kernel. -/
structure InterfaceInfo where
  name : String
  state : LinkState
  ipAddresses : List String
  deriving DecidableEq, Repr

/-- The calls that update the file. `incrementTotalConnections` is also what every new client does;
`saveConfig` comes with the links, routes and name servers it has found. -/
inductive Call
  | setMode (mode : RunMode)
  | saveWifiProfile (profile : WifiProfile)
  | forgetWifiProfile (ssid : String)
  | setWifiAutoconnect (interface : String) (enable : Bool)
  | incrementTotalConnections
  | saveConfig (links : List InterfaceInfo) (routes : List RouteInfo) (dns : Option (List String))
  deriving DecidableEq, Repr

def InterfaceConfig.ofLink (link : InterfaceInfo) : InterfaceConfig where
  state := if link.state = .up then "up" else "down"
  addresses := link.ipAddresses
  gateway := none
  dns := []

/-- The interface of a default route gets its gateway and the name servers. -/
def addDefaultRoute (dns : List String) (m : Entries InterfaceConfig) (route : RouteInfo) :
    Entries InterfaceConfig :=
  match route.interface with
  | some name =>
    if route.destination = "default" then
      Entries.modify m name fun iface => { iface with gateway := route.gateway, dns := dns }
    else m
  | none => m

def ifaceMap (links : List InterfaceInfo) (routes : List RouteInfo) (dns : Option (List String)) :
    Entries InterfaceConfig :=
  let linked := links.foldl (fun m link => Entries.insert m link.name (.ofLink link)) []
  routes.foldl (addDefaultRoute (dns.getD [])) linked

def saturatingIncrement (n : UInt64) : UInt64 :=
  if n.toNat + 1 < UInt64.size then n + 1 else n

namespace NetworkConfig

def removeProfile (cfg : NetworkConfig) (ssid : String) : NetworkConfig :=
  { cfg with wifi := cfg.wifi.filter fun p => p.ssid ≠ ssid }

def addProfile (cfg : NetworkConfig) (profile : WifiProfile) : NetworkConfig :=
  { cfg with wifi := cfg.wifi ++ [profile] }

end NetworkConfig

/-- The change that a call makes to a configuration, or its refusal. -/
def Call.update : Call → NetworkConfig → Option NetworkConfig
  | .setMode mode, cfg => some { cfg with mode := mode }
  | .saveWifiProfile profile, cfg => some ((cfg.removeProfile profile.ssid).addProfile profile)
  | .forgetWifiProfile ssid, cfg =>
    let kept := cfg.removeProfile ssid
    if kept.wifi.length = cfg.wifi.length then none else some kept
  | .setWifiAutoconnect interface enable, cfg =>
    some { cfg with wifiAutoconnect := Entries.insert cfg.wifiAutoconnect interface enable }
  | .incrementTotalConnections, cfg =>
    some { cfg with totalConnections := saturatingIncrement cfg.totalConnections }
  | .saveConfig links routes dns, cfg =>
    some { cfg with interfaces := ifaceMap links routes dns, routes := routes }

/-- The file: there is none, it does not parse, or it holds a configuration. -/
inductive Content
  | missing
  | invalid (data : List UInt8)
  | config (cfg : NetworkConfig)
  deriving DecidableEq, Repr

/-- `read_config().unwrap_or_default()`, where `none` is a read that failed. -/
def readConfig : Option Content → NetworkConfig
  | some (.config cfg) => cfg
  | some .missing => .empty
  | some (.invalid _) => .empty
  | none => .empty

/-- A missing file counts as the default configuration; one that does not parse cannot be used. -/
def Content.usable : Content → Bool
  | .missing => true
  | .invalid _ => false
  | .config _ => true

/-- How the calls use the file. Opening it for writing leaves it empty, which is no configuration. -/
def configFile : FileUpdate.Protocol Content Call where
  compute call seen := (call.update (readConfig seen)).map .config
  valid := Content.usable
  truncated := .invalid []
  not_valid_truncated := rfl

/-- No two stored WiFi profiles have the same SSID. -/
def UniqueProfiles : Content → Prop
  | .config cfg => (cfg.wifi.map WifiProfile.ssid).Nodup
  | _ => True

instance (k : Content) : Decidable (UniqueProfiles k) :=
  match k with
  | .config _ => inferInstanceAs (Decidable (List.Nodup _))
  | .missing => inferInstanceAs (Decidable True)
  | .invalid _ => inferInstanceAs (Decidable True)

variable {cfg cfg' : NetworkConfig} {call : Call}

theorem nodup_removeProfile (h : (cfg.wifi.map WifiProfile.ssid).Nodup) (ssid : String) :
    ((cfg.removeProfile ssid).wifi.map WifiProfile.ssid).Nodup :=
  h.sublist (List.filter_sublist.map _)

/-- Whatever a call does to the profiles, they stay unique. -/
theorem nodup_update (h : (cfg.wifi.map WifiProfile.ssid).Nodup)
    (hupdate : call.update cfg = some cfg') : (cfg'.wifi.map WifiProfile.ssid).Nodup := by
  cases call with
  | saveWifiProfile profile =>
    cases hupdate
    have hremoved := nodup_removeProfile h profile.ssid
    have hnew : profile.ssid ∉ (cfg.removeProfile profile.ssid).wifi.map WifiProfile.ssid := by
      simp [NetworkConfig.removeProfile]
    show (((cfg.removeProfile profile.ssid).wifi ++ [profile]).map WifiProfile.ssid).Nodup
    rw [List.map_append, List.map_singleton]
    exact hremoved.append (List.nodup_singleton _) (List.disjoint_singleton.2 hnew)
  | forgetWifiProfile ssid =>
    unfold Call.update at hupdate
    dsimp only at hupdate
    split at hupdate
    · cases hupdate
    · cases hupdate
      exact nodup_removeProfile h ssid
  | setMode mode =>
    cases hupdate
    exact h
  | setWifiAutoconnect interface enable =>
    cases hupdate
    exact h
  | incrementTotalConnections =>
    cases hupdate
    exact h
  | saveConfig links routes dns =>
    cases hupdate
    exact h

theorem nodup_readConfig {k : Content} (h : UniqueProfiles k) :
    ((readConfig (some k)).wifi.map WifiProfile.ssid).Nodup := by
  cases k with
  | config cfg => exact h
  | missing => exact List.nodup_nil
  | invalid data => exact List.nodup_nil

theorem uniqueProfiles_run {k new : Content} (h : UniqueProfiles k)
    (hrun : configFile.run k call = some new) : UniqueProfiles new := by
  unfold FileUpdate.Protocol.run at hrun
  split at hrun
  · obtain ⟨cfg', hupdate, rfl⟩ := Option.map_eq_some_iff.1 hrun
    exact nodup_update (nodup_readConfig h) hupdate
  · cases hrun

/-- No update of the configuration is lost and its profiles stay unique in every run that starts
with unique profiles and in which a call opens the file for writing only while it is still what the
call has read, a file that is missing or parses, and no call fails once it has opened it. -/
theorem config_lossless {k₀ : Content} (hunique : UniqueProfiles k₀)
    {events : List (FileUpdate.Event Content Call)}
    (h : Runs.Meets (FileUpdate.step configFile) (FileUpdate.Isolated configFile)
      (FileUpdate.start k₀) events) :
    Runs.Always (FileUpdate.step configFile) (FileUpdate.Lossless configFile UniqueProfiles k₀)
      (FileUpdate.start k₀) events :=
  FileUpdate.always_lossless uniqueProfiles_run trivial hunique h

/-- One call after the other. -/
theorem config_lossless_one : Runs.Always (FileUpdate.step configFile)
    (FileUpdate.Lossless configFile UniqueProfiles .missing) (FileUpdate.start .missing)
    [.read (.setMode .powerSave) true, .opened 0 true, .wrote 0 .missing, .finished 0 true,
      .read .incrementTotalConnections true, .opened 1 true, .wrote 1 .missing,
      .finished 1 true] :=
  config_lossless (show UniqueProfiles .missing from trivial)
    (Runs.meets_of_exec_guarded (by decide +kernel))

def autoconnect (interface : String) : Call := .setWifiAutoconnect interface true

/-- Two calls that read the file before either writes it. -/
def overlapping : List (FileUpdate.Event Content Call) :=
  [.read (autoconnect "wlan0") true, .read (autoconnect "wlan1") true,
    .opened 0 true, .wrote 0 .missing, .finished 0 true,
    .opened 1 true, .wrote 1 .missing, .finished 1 true]

/-- A call on a file that does not parse. -/
def overwriting : List (FileUpdate.Event Content Call) :=
  [.read (.setMode .powerSave) true, .opened 0 true, .wrote 0 .missing, .finished 0 true]

/-- Of two calls at once only the second is left, and a file that does not parse is overwritten. -/
theorem config_update_lost :
    ¬Runs.Always (FileUpdate.step configFile)
      (FileUpdate.Lossless configFile UniqueProfiles .missing) (FileUpdate.start .missing)
      overlapping ∧
    ¬Runs.Always (FileUpdate.step configFile)
      (FileUpdate.Lossless configFile UniqueProfiles (.invalid [123]))
      (FileUpdate.start (.invalid [123])) overwriting := by
  constructor
  · intro h
    obtain ⟨order, hperm, hrun⟩ := (h.last rfl).serial (by decide +kernel)
    have hmem : order ∈ [autoconnect "wlan0", autoconnect "wlan1"].permutations' :=
      List.mem_permutations'.2 hperm
    have hnone : ∀ order ∈ [autoconnect "wlan0", autoconnect "wlan1"].permutations',
        configFile.runAll .missing order ≠
          some (.config { NetworkConfig.empty with wifiAutoconnect := [("wlan1", true)] }) := by
      decide +kernel
    exact hnone order hmem hrun
  · intro h
    have hrefused := (h.last rfl).refused _ (List.mem_singleton.2 rfl) (.invalid [123]) rfl rfl
    exact absurd hrefused.1 (by decide)

end Quantra.NetConfig
