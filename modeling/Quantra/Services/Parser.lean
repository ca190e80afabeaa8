import Quantra.Services.Catalog

/-! `services/parser.rs`: the service files of a directory and the markers by which they are
enabled. -/
namespace Quantra.Services

/-- What the loaders read from the machine. An entry of a directory may be unreadable; `fromStr` is
`toml::from_str` and `isAlphanumeric` the method of `char`. A directory that can be read exists. -/
structure Disk extends Boot where
  readDir : String → Except String (List (Except String String))
  readToString : String → Except String String
  fromStr : String → Except String Service
  isAlphanumeric : Char → Bool
  pathExists_of_readDir : ∀ dir, (readDir dir).isOk → pathExists dir

/-- The directory of the markers, as the parser has it. -/
def markerDir : String := "/overlayer/syshub/etc/quantra-system/enabled"

/-- The parser's own list of the bootstrap lane. -/
def bootstrapNames : List String := ["quantra-netd", "quantra-net", "console-shell"]

/-- `Path::join`; a service name and a directory entry have no slash. -/
def join (dir name : String) : String :=
  if dir.toList.getLast?.all (· = '/') then dir ++ name else dir ++ "/" ++ name

/-- `Path::extension` of a file name: what follows the last dot, if something is before it. -/
def extension (name : String) : Option String :=
  let cs := name.toList.reverse
  let before := (cs.dropWhile (· ≠ '.')).tail
  if name = ".." ∨ before = [] then none
  else some (String.ofList (cs.takeWhile (· ≠ '.')).reverse)

def isTomlFile (name : String) : Bool := extension name = some "toml"

/-- A hard limit of `0` is none. -/
def validateLimit (svc : Service) (limit : String) : Option (ℕ × ℕ) → Except String Unit
  | some (soft, hard) =>
    if hard ≠ 0 ∧ soft > hard then
      .error ("Service '" ++ svc.name ++ "': rlimit." ++ limit ++ ": soft (" ++ toString soft ++
        ") > hard (" ++ toString hard ++ ")")
    else .ok ()
  | none => .ok ()

def validateLimits (svc : Service) (rl : ResourceLimits) : Except String Unit :=
  [("nofile", rl.nofile), ("nproc", rl.nproc), ("fsize", rl.fsize), ("stack", rl.stack),
    ("memlock", rl.memlock), ("core", rl.core)].forM fun p => validateLimit svc p.1 p.2

def validateSocket (spec : String) : Except String Unit :=
  if (Text.dropLead "unix:" spec).isNone ∧ (Text.dropLead "tcp:" spec).isNone then
    .error ("Socket spec '" ++ spec ++ "' must start with 'unix:' or 'tcp:'")
  else .ok ()

def validateService (isAlphanumeric : Char → Bool) (svc : Service) : Except String Unit :=
  if (Text.trim svc.name).isEmpty then .error "Service name cannot be empty"
  else if !svc.name.toList.all fun c => isAlphanumeric c || c = '_' || c = '-' then
    .error ("Service name '" ++ svc.name ++
      "' contains invalid characters. Use only alphanumeric, underscore, and dash")
  else if (Text.trim svc.command).isEmpty then .error "Service command cannot be empty"
  else if svc.notifyType = .bgProcess ∧ svc.pidFile = none then
    .error ("Service '" ++ svc.name ++
      "': notify_type = \"bg-process\" requires pid_file to be set")
  else if svc.chainTo = some svc.name then
    .error ("Service '" ++ svc.name ++ "': chain_to cannot reference itself")
  else do
    svc.rlimit.forM (validateLimits svc)
    svc.socketListen.forM validateSocket

structure ServiceParseError where
  path : String
  error : String
  deriving DecidableEq, Repr

structure ServiceParseReport where
  services : List Service
  errors : List ServiceParseError

namespace Disk

def parseServiceFile (disk : Disk) (path : String) : Except String Service := do
  let content ← (disk.readToString path).mapError fun _ => "Failed to read " ++ path
  let svc ← (disk.fromStr content).mapError fun _ => "Failed to parse " ++ path
  validateService disk.isAlphanumeric svc
  .ok svc

/-- A file that is refused is reported; an entry that cannot be read ends the loop. -/
def parseEntries (disk : Disk) (dir : String) :
    List (Except String String) → Except String ServiceParseReport
  | [] => .ok ⟨[], []⟩
  | .error e :: _ => .error e
  | .ok name :: rest => do
    let report ← disk.parseEntries dir rest
    if isTomlFile name then
      match disk.parseServiceFile (join dir name) with
      | .ok svc => .ok { report with services := svc :: report.services }
      | .error error => .ok { report with errors := ⟨join dir name, error⟩ :: report.errors }
    else .ok report

/-- There is a marker for the service in the directory. -/
def marked (disk : Disk) (dir : String) (svc : Service) : Bool := disk.pathExists (join dir svc.name)

/-- Without the directory everything is enabled. -/
def enabled (disk : Disk) (dir : String) (svc : Service) : Bool :=
  !disk.pathExists dir || disk.marked dir svc

def applyEnabledFilter (disk : Disk) (services : List Service) (dir : String) : List Service :=
  if disk.pathExists dir then
    services.filter fun svc => bootstrapNames.contains svc.name || disk.marked dir svc
  else services

def parseServicesInner (disk : Disk) (dir : String) (enabledDir : Option String) :
    Except String ServiceParseReport := do
  let entries ← (disk.readDir dir).mapError fun _ => "Failed to read services directory: " ++ dir
  let report ← disk.parseEntries dir entries
  .ok { report with
    services := enabledDir.elim report.services (disk.applyEnabledFilter report.services) }

def parseServices (disk : Disk) (dir : String) : Except String ServiceParseReport :=
  disk.parseServicesInner dir none

def parseServicesWithEnabledFilter (disk : Disk) (dir enabledDir : String) :
    Except String ServiceParseReport :=
  disk.parseServicesInner dir (some enabledDir)

section Filter
variable {disk : Disk} {dir : String} {services : List Service} {svc : Service}

theorem mem_applyEnabledFilter : svc ∈ disk.applyEnabledFilter services dir ↔
    svc ∈ services ∧ (svc.name ∈ bootstrapNames ∨ disk.enabled dir svc) := by
  unfold applyEnabledFilter enabled
  split
  · rename_i hdir
    simp [hdir]
  · rename_i hdir
    simp [hdir]

/-- The filter comes last, so that the two parsers accept and refuse the same files. -/
theorem parseServicesWithEnabledFilter_eq (enabledDir : String) :
    disk.parseServicesWithEnabledFilter dir enabledDir =
      (disk.parseServices dir).map fun report =>
        { report with services := disk.applyEnabledFilter report.services enabledDir } := by
  unfold parseServicesWithEnabledFilter parseServices parseServicesInner
  cases (disk.readDir dir).mapError fun _ => "Failed to read services directory: " ++ dir with
  | error e => rfl
  | ok entries =>
    simp only [bind, Except.bind]
    cases disk.parseEntries dir entries <;> rfl

/-- Nothing is parsed from a directory that does not exist. -/
theorem parseServices_isOk (h : (disk.parseServices dir).isOk) : disk.pathExists dir := by
  refine disk.pathExists_of_readDir dir ?_
  unfold parseServices parseServicesInner at h
  cases hread : disk.readDir dir with
  | error e =>
    rw [hread] at h
    cases h
  | ok entries => rfl

end Filter

end Disk

end Quantra.Services
