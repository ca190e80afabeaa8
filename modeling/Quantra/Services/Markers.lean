import Quantra.Lib.Runs
import Quantra.Services.Enable

/-! The commands `Enable` and `Disable` of the control socket, which write and remove the markers
that the next boot looks at. -/
namespace Quantra.Manager
open Quantra.Services

structure CtlResponse where
  ok : Bool
  message : String
  deriving DecidableEq, Repr

namespace CtlResponse

def success (message : String) : CtlResponse := ⟨true, message⟩

def err (message : String) : CtlResponse := ⟨false, message⟩

end CtlResponse

/-- The two commands, with what the system calls that they make would say. -/
inductive MarkerCommand
  | enable (service : String) (createDirAll write : Except String Unit)
  | disable (service : String) (removeFile : Except String Unit)
  deriving Repr

namespace MarkerCommand

def service : MarkerCommand → String
  | .enable s _ _ => s
  | .disable s _ => s

end MarkerCommand

section Dispatch
variable (disk : Disk)

/-- A path that there is from now on. -/
def created (path : String) : Disk :=
  { disk with
    pathExists := Function.update disk.pathExists path true
    pathExists_of_readDir := fun dir h => by
      by_cases hdir : dir = path
      · rw [hdir, Function.update_self]
      · rw [Function.update_of_ne hdir]
        exact disk.pathExists_of_readDir dir h }

/-- A file that is gone. -/
def removed (path : String) : Disk :=
  { disk with
    pathExists := Function.update disk.pathExists path false
    readDir := Function.update disk.readDir path (.error "No such file or directory")
    pathExists_of_readDir := fun dir h => by
      by_cases hdir : dir = path
      · rw [hdir, Function.update_self] at h
        cases h
      · rw [Function.update_of_ne hdir] at h ⊢
        exact disk.pathExists_of_readDir dir h }

/-- `dispatch` on the two commands. `remove_file` does not remove a directory. -/
def dispatch : MarkerCommand → Disk × CtlResponse
  | .enable s createDirAll write =>
    match createDirAll with
    | .error e => (disk, .err ("Cannot create enabled dir: " ++ e))
    | .ok _ =>
      let disk := created disk markerDir
      match write with
      | .ok _ =>
        (created disk (join markerDir s),
          .success ("✓ " ++ s ++ " enabled (will auto-start on next boot)"))
      | .error e => (disk, .err ("Failed to enable " ++ s ++ ": " ++ e))
  | .disable s removeFile =>
    let marker := join markerDir s
    if disk.pathExists marker then
      match if (disk.readDir marker).isOk then .error "Is a directory" else removeFile with
      | .ok _ =>
        (removed disk marker,
          .success ("✓ " ++ s ++ " disabled (will not auto-start on next boot)"))
      | .error e => (disk, .err ("Failed to disable " ++ s ++ ": " ++ e))
    else (disk, .success ("'" ++ s ++ "' was not enabled"))

end Dispatch

/-- A disk on which commands are carried out, and the services that are to be enabled by now. -/
structure Boots where
  disk : Disk
  wanted : Set String

section Law
variable (cfg : InitConfig) (disk : Disk)

/-- The names of the services that boot starts only if they are enabled. -/
def optionalNames : Set String :=
  {s | s ∉ bootstrapNames ∧ ∃ svc ∈ parsed disk cfg, svc.name = s}

/-- Those of them that pass the filter. -/
def enabledNames : Set String :=
  {s | s ∉ bootstrapNames ∧ ∃ svc ∈ loaded disk cfg, svc.name = s}

/-- `Enable` of a service that was parsed, `Disable` of a name that the parser would accept. -/
def addressed : MarkerCommand → Bool
  | .enable s _ _ => (parsed disk cfg).any (·.name = s)
  | .disable s _ =>
    !(Text.trim s).isEmpty && s.toList.all fun c => disk.isAlphanumeric c || c = '_' || c = '-'

/-- What is to be enabled after the command. A bootstrap service is in no such set. -/
def wantedAfter (wanted : Set String) : MarkerCommand → Set String
  | .enable s _ _ => wanted ∪ ({s} \ {b | b ∈ bootstrapNames})
  | .disable s _ => wanted \ {s}

/-- A command that succeeds. -/
def markerStep (b : Boots) (c : MarkerCommand) : Option Boots :=
  let done := dispatch b.disk c
  if done.2.ok && addressed cfg b.disk c then some ⟨done.1, wantedAfter b.wanted c⟩ else none

def Right (b : Boots) : Prop := enabledNames cfg b.disk = b.wanted

/-- The directory of the markers is there. Without it, there is no other optional service than the
one to enable, and the one to disable is not optional. -/
def ActsOnOne (b : Boots) : MarkerCommand → Prop
  | .enable s _ _ => b.disk.pathExists markerDir ∨
      ∀ n ∈ optionalNames cfg b.disk, n = s ∨ b.disk.pathExists (join markerDir n)
  | .disable s _ => b.disk.pathExists markerDir ∨ s ∉ optionalNames cfg b.disk

end Law

section Paths
variable {disk : Disk} {cfg : InitConfig} {path s n : String}

theorem join_markerDir (s : String) : join markerDir s = markerDir ++ "/" ++ s := by
  have hlast : ¬markerDir.toList.getLast?.all (· = '/') := by decide
  rw [join, if_neg hlast]

theorem join_markerDir_inj : join markerDir n = join markerDir s ↔ n = s := by
  rw [join_markerDir, join_markerDir]
  constructor
  · intro h
    have hlists := congrArg String.toList h
    rw [String.toList_append, String.toList_append (s := markerDir ++ "/")] at hlists
    exact String.toList_inj.1 (List.append_cancel_left hlists)
  · intro h
    rw [h]

theorem join_markerDir_ne (s : String) : markerDir ≠ join markerDir s := by
  intro h
  have hlength := congrArg (fun t => t.toList.length) h
  simp only [join_markerDir, String.toList_append, List.length_append] at hlength
  have hslash : "/".toList.length = 1 := rfl
  omega

theorem pathExists_created :
    (created disk path).pathExists = Function.update disk.pathExists path true := rfl

theorem pathExists_removed :
    (removed disk path).pathExists = Function.update disk.pathExists path false := rfl

theorem readDir_removed : (removed disk path).readDir =
    Function.update disk.readDir path (.error "No such file or directory") := rfl

/-- The parser does not look at what exists. -/
theorem parseEntries_congr {disk disk' : Disk} (hread : disk'.readToString = disk.readToString)
    (hfrom : disk'.fromStr = disk.fromStr) (halpha : disk'.isAlphanumeric = disk.isAlphanumeric)
    (dir : String) (entries : List (Except String String)) :
    disk'.parseEntries dir entries = disk.parseEntries dir entries := by
  have hfile : disk'.parseServiceFile = disk.parseServiceFile := by
    unfold Disk.parseServiceFile
    rw [hread, hfrom, halpha]
  induction entries with
  | nil => rfl
  | cons entry rest ih =>
    cases entry with
    | error e => rfl
    | ok name =>
      unfold Disk.parseEntries
      rw [ih, hfile]

theorem parsed_congr {disk disk' : Disk} (hread : disk'.readToString = disk.readToString)
    (hfrom : disk'.fromStr = disk.fromStr) (halpha : disk'.isAlphanumeric = disk.isAlphanumeric)
    (hdir : (disk'.readDir cfg.servicesDir).toOption = (disk.readDir cfg.servicesDir).toOption) :
    parsed disk' cfg = parsed disk cfg := by
  have hentries := parseEntries_congr hread hfrom halpha cfg.servicesDir
  unfold parsed Disk.parseServices Disk.parseServicesInner
  cases hnew : disk'.readDir cfg.servicesDir with
  | error e =>
    cases hold : disk.readDir cfg.servicesDir with
    | error e' => rfl
    | ok entries =>
      rw [hnew, hold] at hdir
      cases hdir
  | ok entries =>
    cases hold : disk.readDir cfg.servicesDir with
    | error e =>
      rw [hnew, hold] at hdir
      cases hdir
    | ok entries' =>
      rw [hnew, hold] at hdir
      cases hdir
      simp only [Except.mapError, bind, Except.bind, hentries, Option.elim_none]

theorem parsed_created : parsed (created disk path) cfg = parsed disk cfg :=
  parsed_congr rfl rfl rfl rfl

theorem parsed_removed (hdir : (disk.readDir path).isOk = false) :
    parsed (removed disk path) cfg = parsed disk cfg := by
  refine parsed_congr rfl rfl rfl ?_
  rw [readDir_removed]
  by_cases hpath : cfg.servicesDir = path
  · rw [hpath, Function.update_self]
    cases hread : disk.readDir path with
    | error e => rfl
    | ok entries =>
      rw [hread] at hdir
      cases hdir
  · rw [Function.update_of_ne hpath]

/-- A service passes the filter if the directory is missing or its marker is there. -/
theorem mem_enabledNames : n ∈ enabledNames cfg disk ↔
    n ∈ optionalNames cfg disk ∧
      (disk.pathExists markerDir → disk.pathExists (join markerDir n)) := by
  unfold enabledNames optionalNames
  rw [Set.mem_ofPred_eq, Set.mem_ofPred_eq, and_assoc]
  refine and_congr_right fun hname => ?_
  constructor
  · rintro ⟨svc, hsvc, rfl⟩
    obtain ⟨hparsed, hpass⟩ := mem_loaded.1 hsvc
    have henabled := hpass.resolve_left hname
    simp only [Disk.enabled, Disk.marked, Bool.or_eq_true, Bool.not_eq_true'] at henabled
    refine ⟨⟨svc, hparsed, rfl⟩, fun hdir => henabled.resolve_left ?_⟩
    rw [hdir]
    exact Bool.true_eq_false_eq_False
  · rintro ⟨⟨svc, hsvc, rfl⟩, hmarked⟩
    refine ⟨svc, mem_loaded.2 ⟨hsvc, .inr ?_⟩, rfl⟩
    simp only [Disk.enabled, Disk.marked, Bool.or_eq_true, Bool.not_eq_true']
    cases hdir : disk.pathExists markerDir with
    | true => exact .inr (hmarked hdir)
    | false => exact .inl rfl

theorem optionalNames_created : optionalNames cfg (created disk path) = optionalNames cfg disk := by
  unfold optionalNames
  rw [parsed_created]

end Paths

section Steps
variable {disk : Disk} {cfg : InitConfig} {s n : String}

/-- After `Enable`, the service and those that have a marker pass. -/
theorem mem_enabledNames_created :
    n ∈ enabledNames cfg (created (created disk markerDir) (join markerDir s)) ↔
      n ∈ optionalNames cfg disk ∧ (n = s ∨ disk.pathExists (join markerDir n)) := by
  rw [mem_enabledNames, optionalNames_created, optionalNames_created]
  refine and_congr_right fun _ => ?_
  have hdir : (created (created disk markerDir) (join markerDir s)).pathExists markerDir := by
    rw [pathExists_created, pathExists_created, Function.update_of_ne (join_markerDir_ne s),
      Function.update_self]
  rw [forall_prop_of_true hdir, pathExists_created, pathExists_created]
  by_cases hn : n = s
  · rw [hn, Function.update_self]
    exact iff_of_true rfl (.inl rfl)
  · rw [Function.update_of_ne (mt join_markerDir_inj.1 hn),
      Function.update_of_ne (join_markerDir_ne n).symm, or_iff_right hn]

theorem mem_enabledNames_removed (hread : (disk.readDir (join markerDir s)).isOk = false) :
    n ∈ enabledNames cfg (removed disk (join markerDir s)) ↔
      n ∈ optionalNames cfg disk ∧
        (disk.pathExists markerDir → n ≠ s ∧ disk.pathExists (join markerDir n)) := by
  have hoptional : optionalNames cfg (removed disk (join markerDir s)) =
      optionalNames cfg disk := by
    unfold optionalNames
    rw [parsed_removed hread]
  rw [mem_enabledNames, hoptional]
  refine and_congr_right fun _ => ?_
  rw [pathExists_removed, Function.update_of_ne (join_markerDir_ne s)]
  refine imp_congr_right fun _ => ?_
  by_cases hn : n = s
  · rw [hn, Function.update_self]
    simp
  · rw [Function.update_of_ne (mt join_markerDir_inj.1 hn)]
    exact (and_iff_right hn).symm

/-- What a command that succeeds does to the disk. -/
theorem dispatch_ok {c : MarkerCommand} (h : (dispatch disk c).2.ok) :
    (∃ s createDirAll write, c = .enable s createDirAll write ∧
        (dispatch disk c).1 = created (created disk markerDir) (join markerDir s)) ∨
      (∃ s removeFile, c = .disable s removeFile ∧ disk.pathExists (join markerDir s) ∧
        (disk.readDir (join markerDir s)).isOk = false ∧
        (dispatch disk c).1 = removed disk (join markerDir s)) ∨
      ∃ s removeFile, c = .disable s removeFile ∧ disk.pathExists (join markerDir s) = false ∧
        (dispatch disk c).1 = disk := by
  cases c with
  | enable s createDirAll write =>
    cases createDirAll with
    | error e => cases h
    | ok _ =>
      cases write with
      | error e => cases h
      | ok _ => exact .inl ⟨s, _, _, rfl, rfl⟩
  | disable s removeFile =>
    right
    unfold dispatch at h ⊢
    cases hmarker : disk.pathExists (join markerDir s) with
    | false => exact .inr ⟨s, _, rfl, hmarker, by simp only [hmarker, Bool.false_eq_true, if_false]⟩
    | true =>
      simp only [hmarker, if_true] at h ⊢
      cases hdir : (disk.readDir (join markerDir s)).isOk with
      | true =>
        rw [hdir] at h
        cases h
      | false =>
        cases removeFile with
        | error e =>
          rw [hdir] at h
          cases h
        | ok _ => exact .inl ⟨s, _, rfl, hmarker, hdir, rfl⟩

theorem markerStep_some {b b' : Boots} {c : MarkerCommand} (h : markerStep cfg b c = some b') :
    (dispatch b.disk c).2.ok ∧ addressed cfg b.disk c ∧
      b' = ⟨(dispatch b.disk c).1, wantedAfter b.wanted c⟩ := by
  obtain ⟨hcond, hnext⟩ := Option.ite_none_right_eq_some.1 h
  rw [Bool.and_eq_true] at hcond
  exact ⟨hcond.1, hcond.2, (Option.some.inj hnext).symm⟩

/-- `Enable` adds the service alone exactly if the directory is there or no other loses by it. -/
theorem enable_adds_iff (hs : ∃ svc ∈ parsed disk cfg, svc.name = s) :
    enabledNames cfg (created (created disk markerDir) (join markerDir s)) =
        enabledNames cfg disk ∪ ({s} \ {b | b ∈ bootstrapNames}) ↔
      disk.pathExists markerDir ∨
        ∀ n ∈ optionalNames cfg disk, n = s ∨ disk.pathExists (join markerDir n) := by
  have hmem : ∀ n, n ∈ enabledNames cfg disk ∪ ({s} \ {b | b ∈ bootstrapNames}) ↔
      n ∈ optionalNames cfg disk ∧
        (n = s ∨ (disk.pathExists markerDir → disk.pathExists (join markerDir n))) := by
    intro n
    have hadded : n ∈ ({s} \ {b | b ∈ bootstrapNames} : Set String) ↔
        n ∈ optionalNames cfg disk ∧ n = s := by
      constructor
      · rintro ⟨rfl, hname⟩
        exact ⟨⟨hname, hs⟩, rfl⟩
      · rintro ⟨hn, rfl⟩
        exact ⟨rfl, hn.1⟩
    rw [Set.mem_union, mem_enabledNames, hadded, ← and_or_left, or_comm]
  rw [Set.ext_iff]
  simp only [hmem, mem_enabledNames_created]
  by_cases hdir : disk.pathExists markerDir
  · exact iff_of_true (fun n => by rw [forall_prop_of_true hdir]) (.inl hdir)
  · rw [or_iff_right hdir]
    constructor
    · intro h n hn
      exact ((h n).2 ⟨hn, .inr fun hd => absurd hd hdir⟩).2
    · intro h n
      exact ⟨fun hn => ⟨hn.1, .inr fun hd => absurd hd hdir⟩, fun hn => ⟨hn.1, h n hn.1⟩⟩

/-- `Disable` takes the service away, except from the services that pass for want of a directory. -/
theorem disable_removes_iff {after : Disk}
    (hafter : ∀ n, n ∈ enabledNames cfg after ↔ n ∈ optionalNames cfg disk ∧
      (disk.pathExists markerDir → n ≠ s ∧ disk.pathExists (join markerDir n))) :
    enabledNames cfg after = enabledNames cfg disk \ {s} ↔
      disk.pathExists markerDir ∨ s ∉ optionalNames cfg disk := by
  rw [Set.ext_iff]
  simp only [hafter, Set.mem_sdiff, mem_enabledNames, Set.mem_singleton_iff]
  by_cases hdir : disk.pathExists markerDir
  · refine iff_of_true (fun n => ?_) (.inl hdir)
    rw [forall_prop_of_true hdir, forall_prop_of_true hdir]
    tauto
  · rw [or_iff_right hdir]
    constructor
    · intro h hs
      exact ((h s).1 ⟨hs, fun hd => absurd hd hdir⟩).2 rfl
    · intro hs n
      constructor
      · rintro ⟨hn, -⟩
        exact ⟨⟨hn, fun hd => absurd hd hdir⟩, fun hns => hs (hns ▸ hn)⟩
      · rintro ⟨⟨hn, -⟩, -⟩
        exact ⟨hn, fun hd => absurd hd hdir⟩

/-- A command leaves the right services enabled exactly if it acts on one. -/
theorem right_step_iff {b b' : Boots} {c : MarkerCommand} (hb : Right cfg b)
    (h : markerStep cfg b c = some b') : Right cfg b' ↔ ActsOnOne cfg b c := by
  obtain ⟨hok, haddressed, rfl⟩ := markerStep_some h
  unfold Right at hb ⊢
  rw [← hb]
  obtain ⟨s, _, _, rfl, hdisk⟩ | ⟨s, _, rfl, hmarker, hread, hdisk⟩ | ⟨s, _, rfl, hmarker, hdisk⟩ :=
    dispatch_ok hok
  · rw [hdisk]
    have hs : ∃ svc ∈ parsed b.disk cfg, svc.name = s := by
      simpa [addressed] using haddressed
    exact enable_adds_iff hs
  · rw [hdisk]
    exact disable_removes_iff fun n => mem_enabledNames_removed hread
  · rw [hdisk]
    refine disable_removes_iff fun n => ?_
    rw [mem_enabledNames]
    refine and_congr_right fun _ => imp_congr_right fun _ => (and_iff_right_of_imp ?_).symm
    rintro hn rfl
    rw [hmarker] at hn
    cases hn

end Steps

/-- After every command of a sequence the right services are enabled, exactly if each of the
commands finds the directory there or has nothing else to disable by creating it, and nothing to
disable without it. -/
theorem marker_commands_iff (cfg : InitConfig) (disk : Disk) (cmds : List MarkerCommand) :
    Runs.Always (markerStep cfg) (Right cfg) ⟨disk, enabledNames cfg disk⟩ cmds ↔
      Runs.Meets (markerStep cfg) (ActsOnOne cfg) ⟨disk, enabledNames cfg disk⟩ cmds := by
  have hright : Right cfg ⟨disk, enabledNames cfg disk⟩ := rfl
  exact Runs.always_iff_meets (fun hb h => right_step_iff hb h) hright cmds

def db : Service := { name := "db", command := "/bin/db" }

def web : Service := { name := "web", command := "/bin/web" }

/-- A fresh installation: two services, and no directory of markers. -/
def freshDisk : Disk where
  pathExists path := path = ({} : InitConfig).servicesDir
  envVar _ := none
  baseMap := []
  readDir dir :=
    if dir = ({} : InitConfig).servicesDir then .ok [.ok "db.toml", .ok "web.toml"]
    else .error "No such file or directory"
  readToString path := .ok path
  fromStr text := .ok (if text = join ({} : InitConfig).servicesDir "db.toml" then db else web)
  isAlphanumeric := Char.isAlphanum
  pathExists_of_readDir dir h := by
    split at h
    · simp [*]
    · cases h

/-- `Enable` of one service takes the other away, and `Disable` of one does nothing. -/
theorem fresh_commands_wrong :
    ¬Runs.Always (markerStep {}) (Right {}) ⟨freshDisk, enabledNames {} freshDisk⟩
        [.enable "web" (.ok ()) (.ok ())] ∧
      ¬Runs.Always (markerStep {}) (Right {}) ⟨freshDisk, enabledNames {} freshDisk⟩
        [.disable "db" (.ok ())] := by
  have hparsed : parsed freshDisk {} = [db, web] := rfl
  have hdir : freshDisk.pathExists markerDir = false := by decide +kernel
  have hmarker : freshDisk.pathExists (join markerDir "db") = false := by decide +kernel
  have hdb : "db" ∈ optionalNames {} freshDisk := by
    refine ⟨by decide, db, ?_, rfl⟩
    rw [hparsed]
    exact List.mem_cons_self
  have hstep : ∀ c, addressed {} freshDisk c → (dispatch freshDisk c).2.ok →
      Runs.Always (markerStep {}) (Right {}) ⟨freshDisk, enabledNames {} freshDisk⟩ [c] →
      ActsOnOne {} ⟨freshDisk, enabledNames {} freshDisk⟩ c := by
    intro c haddressed hok h
    have hright : Right {} ⟨freshDisk, enabledNames {} freshDisk⟩ := rfl
    have hnext : markerStep {} ⟨freshDisk, enabledNames {} freshDisk⟩ c = some _ :=
      if_pos (by rw [hok, haddressed]; rfl)
    exact (right_step_iff hright hnext).1 (h.2 _ hnext).first
  constructor
  · intro h
    obtain hthere | hothers := hstep _ (by rw [addressed, hparsed]; decide) rfl h
    · rw [hdir] at hthere
      cases hthere
    · obtain heq | hmarked := hothers "db" hdb
      · exact absurd heq (by decide)
      · rw [hmarker] at hmarked
        cases hmarked
  · intro h
    have hok : (dispatch freshDisk (.disable "db" (.ok ()))).2.ok := by
      unfold dispatch
      simp only [hmarker, Bool.false_eq_true, if_false]
      rfl
    obtain hthere | hnot := hstep _ (by decide) hok h
    · rw [hdir] at hthere
      cases hthere
    · exact hnot hdb

end Quantra.Manager
