import Quantra.Services.Parser
import Mathlib.Data.List.Basic
import Mathlib.Data.List.Pairwise

/-! `mounts/unit.rs`: the order in which mount units are activated, and the wait for a device. -/
namespace Quantra.System

structure MountUnit where
  name : String
  what : String
  where_ : String
  fstype : String
  options : String
  timeoutSec : ℕ
  deriving DecidableEq, Repr

inductive MsFlag
  | rdonly | nosuid | nodev | noexec | noatime | relatime | strictatime | remount | bind | recursive
  deriving DecidableEq, Repr

/-- What the activation meets: `toml::from_str`, the paths that there are at a time in milliseconds,
and the answers of the kernel. A path can be resolved if it exists, to one that exists. -/
structure MountHost where
  fromStr : String → Except String MountUnit
  pathExists : ℕ → String → Bool
  canonicalize : ℕ → String → Option String
  createDirAll : ℕ → String → Except String Unit
  mount : ℕ → String → String → String → List MsFlag → String → Except String Unit
  resolves : ∀ t path, pathExists t path = (canonicalize t path).isSome
  canonical : ∀ t path dev, canonicalize t path = some dev →
    pathExists t dev = true ∧ dev.toList.head? = some '/'

/-- A file of the directory, with its text if it can be read. -/
structure MountFile where
  fileName : String
  text : Except String String

def loadMountFile (host : MountHost) (file : MountFile) : Except String MountUnit :=
  file.text.bind host.fromStr

/-- The units, in the order in which the directory is read. -/
def loadAllMountUnits (host : MountHost) (files : List MountFile) : List MountUnit :=
  files.filterMap fun file =>
    if Services.isTomlFile file.fileName then (loadMountFile host file).toOption else none

/-- The flags and the rest of the options. -/
def parseMountOptions (opts : String) : List MsFlag × String :=
  let parsed := ((Text.split ',' opts).map Text.trim).foldl (fun (flags, extra) opt =>
    match opt with
    | "defaults" => (flags, extra)
    | "ro" => (flags ++ [.rdonly], extra)
    | "nosuid" => (flags ++ [.nosuid], extra)
    | "nodev" => (flags ++ [.nodev], extra)
    | "noexec" => (flags ++ [.noexec], extra)
    | "noatime" => (flags ++ [.noatime], extra)
    | "relatime" => (flags ++ [.relatime], extra)
    | "strictatime" => (flags ++ [.strictatime], extra)
    | "remount" => (flags ++ [.remount], extra)
    | "bind" => (flags ++ [.bind], extra)
    | "rbind" => (flags ++ [.bind, .recursive], extra)
    | _ => (flags, extra ++ [opt])) (([] : List MsFlag), ([] : List String))
  (parsed.1, ",".intercalate parsed.2)

def pollInterval : ℕ := 250

/-- The link that stands for `UUID=` or `LABEL=`. -/
def diskLink (what : String) : Option String :=
  match Text.dropLead "UUID=" what with
  | some uuid => some ("/dev/disk/by-uuid/" ++ uuid)
  | none => (Text.dropLead "LABEL=" what).map fun label => "/dev/disk/by-label/" ++ label

def MountUnit.resolveDevice (host : MountHost) (u : MountUnit) (now : ℕ) : Option String :=
  match diskLink u.what with
  | some link => host.canonicalize now link
  | none => some u.what

/-- The loop until the device is there; whether it is, and when the loop ends. -/
def pollDevice (host : MountHost) (dev : String) (deadline now : ℕ) : Bool × ℕ :=
  if host.pathExists now dev then (true, now)
  else if deadline ≤ now then (false, now)
  else pollDevice host dev deadline (now + pollInterval)
termination_by deadline - now
decreasing_by
  unfold pollInterval
  omega

def MountUnit.waitForDevice (host : MountHost) (u : MountUnit) (dev : String) (now : ℕ) :
    Bool × ℕ :=
  if dev.toList.head? ≠ some '/' ∨ u.fstype = "tmpfs" then (true, now)
  else pollDevice host dev (now + u.timeoutSec * 1000) now

/-- The time, and the mount points of what was mounted, the first one first. -/
structure MountState where
  now : ℕ
  mounted : List (List String)
  deriving DecidableEq, Repr

/-- `Path::components` of an absolute path, without the root. -/
def pathComponents (path : String) : List String :=
  (Text.split '/' path).filter fun c => c ≠ "" ∧ c ≠ "."

def MountUnit.isRemount (u : MountUnit) : Bool := .remount ∈ (parseMountOptions u.options).1

def MountUnit.activate (host : MountHost) (u : MountUnit) (s : MountState) :
    Except String Unit × MountState :=
  match u.resolveDevice host s.now with
  | none => (.error ("Cannot resolve device '" ++ u.what ++ "'"), s)
  | some dev =>
    let (found, now) := u.waitForDevice host dev s.now
    let s := { s with now := now }
    if !found then
      (.error ("Device '" ++ dev ++ "' not available within " ++ toString u.timeoutSec ++ "s"), s)
    else match host.createDirAll now u.where_ with
      | .error _ => (.error ("Cannot create mount point '" ++ u.where_ ++ "'"), s)
      | .ok () =>
        let (flags, data) := parseMountOptions u.options
        match host.mount now dev u.where_ u.fstype flags data with
        | .error _ =>
          (.error ("mount(" ++ dev ++ ", " ++ u.where_ ++ ", " ++ u.fstype ++ ") failed"), s)
        | .ok () =>
          (.ok (), if u.isRemount then s
            else { s with mounted := s.mounted ++ [pathComponents u.where_] })

/-- An attempt to activate a unit, with the time at which it begins. -/
structure Attempt where
  unit : MountUnit
  start : ℕ
  result : Except String Unit

/-- The loop over the units; a failure is logged. -/
def activateUnits (host : MountHost) : List MountUnit → MountState → List Attempt × MountState
  | [], s => ([], s)
  | u :: us, s =>
    let (result, s') := u.activate host s
    let (attempts, s'') := activateUnits host us s'
    (⟨u, s.now, result⟩ :: attempts, s'')

def activateAllMountUnits (host : MountHost) (files : List MountFile) (s : MountState) :
    List Attempt × MountState :=
  activateUnits host (loadAllMountUnits host files) s

/-! What is to come of it. -/

/-- The mount point of `u` is a directory above that of `v`. -/
def ProperAncestor (u v : MountUnit) : Prop :=
  pathComponents u.where_ <+: pathComponents v.where_ ∧
    pathComponents u.where_ ≠ pathComponents v.where_

/-- A mount covers what was mounted at its mount point and below before. -/
def Visible (mounted : List (List String)) (point : List String) : Prop :=
  ∃ before after, mounted = before ++ point :: after ∧ ∀ p ∈ after, ¬ p <+: point

/-- Whether the unit gets its device, and when that is settled. -/
def MountUnit.obtainDevice (host : MountHost) (u : MountUnit) (now : ℕ) : Bool × ℕ :=
  match u.resolveDevice host now with
  | none => (false, now)
  | some dev => u.waitForDevice host dev now

/-- A unit above another comes before it, what is mounted can be seen, and a unit by UUID or label
waits as one by the path of its link does. -/
structure Usable (host : MountHost) (attempts : List Attempt) (mounted : List (List String)) :
    Prop where
  ancestorsFirst : ∀ (i j : ℕ) (a b : Attempt), attempts[i]? = some a → attempts[j]? = some b →
    ProperAncestor a.unit b.unit → i < j
  visible : (∀ a ∈ attempts, a.result = .ok ()) → ∀ a ∈ attempts, a.unit.isRemount = false →
    Visible mounted (pathComponents a.unit.where_)
  waits : ∀ a ∈ attempts, ∀ link, diskLink a.unit.what = some link →
    a.unit.obtainDevice host a.start =
      { a.unit with what := link }.obtainDevice host a.start

/-! The wait. -/

section Wait
variable {host : MountHost} {u : MountUnit} {link dev : String} {deadline now : ℕ}

theorem pollDevice_of_exists (h : host.pathExists now dev = true) :
    pollDevice host dev deadline now = (true, now) := by
  rw [pollDevice, if_pos h]

theorem pollDevice_of_not_exists (h : host.pathExists now dev = false) (hlt : now < deadline) :
    pollDevice host dev deadline now = pollDevice host dev deadline (now + pollInterval) := by
  rw [pollDevice, h, if_neg Bool.false_ne_true, if_neg (Nat.not_le_of_lt hlt)]

theorem pollDevice_timeout (h : host.pathExists now dev = false) (hle : deadline ≤ now) :
    pollDevice host dev deadline now = (false, now) := by
  rw [pollDevice, h, if_neg Bool.false_ne_true, if_pos hle]

theorem le_pollDevice (host : MountHost) (dev : String) (deadline now : ℕ) :
    now ≤ (pollDevice host dev deadline now).2 := by
  fun_induction pollDevice host dev deadline now with
  | case1 => exact Nat.le_refl _
  | case2 => exact Nat.le_refl _
  | case3 now hexists hlt ih =>
    exact Nat.le_trans (Nat.le_add_right now pollInterval) ih

theorem waitForDevice_of_tmpfs (h : u.fstype = "tmpfs") :
    u.waitForDevice host dev now = (true, now) := if_pos (.inr h)

theorem waitForDevice_of_slash (h : dev.toList.head? = some '/') (htmpfs : u.fstype ≠ "tmpfs") :
    u.waitForDevice host dev now = pollDevice host dev (now + u.timeoutSec * 1000) now := by
  rw [MountUnit.waitForDevice, if_neg]
  intro hno
  obtain hpath | hfstype := hno
  · exact hpath h
  · exact htmpfs hfstype

/-- The path of a link is none by UUID or label. -/
theorem diskLink_of_diskLink (h : diskLink u.what = some link) :
    diskLink link = none ∧ link.toList.head? = some '/' := by
  have huuid : ∀ id : String, ∃ cs, ("/dev/disk/by-uuid/" ++ id).toList = '/' :: cs :=
    fun id => ⟨_, String.toList_append⟩
  have hlabel : ∀ id : String, ∃ cs, ("/dev/disk/by-label/" ++ id).toList = '/' :: cs :=
    fun id => ⟨_, String.toList_append⟩
  have hslash : ∃ cs, link.toList = '/' :: cs := by
    unfold diskLink at h
    cases hdrop : Text.dropLead "UUID=" u.what with
    | some uuid =>
      rw [hdrop] at h
      rw [← Option.some.inj h]
      exact huuid uuid
    | none =>
      rw [hdrop] at h
      obtain ⟨label, -, hlink⟩ := Option.map_eq_some_iff.1 h
      rw [← hlink]
      exact hlabel label
  obtain ⟨cs, hcs⟩ := hslash
  constructor
  · simp [diskLink, Text.dropLead, hcs, List.isPrefixOf?]
  · rw [hcs]
    rfl

theorem obtainDevice_path (h : diskLink u.what = some link) :
    { u with what := link }.obtainDevice host now = u.waitForDevice host link now := by
  unfold MountUnit.obtainDevice MountUnit.resolveDevice
  dsimp only
  rw [(diskLink_of_diskLink h).1]
  rfl

/-- By UUID or label, the unit waits as by path exactly if the link is there already, or the unit
has no time to wait. -/
theorem obtainDevice_eq_iff (h : diskLink u.what = some link) :
    u.obtainDevice host now = { u with what := link }.obtainDevice host now ↔
      host.pathExists now link = true ∨ (u.timeoutSec = 0 ∧ u.fstype ≠ "tmpfs") := by
  obtain ⟨-, hslash⟩ := diskLink_of_diskLink h
  rw [obtainDevice_path h, MountUnit.obtainDevice, MountUnit.resolveDevice, h]
  dsimp only
  cases hdev : host.canonicalize now link with
  | some dev =>
    obtain ⟨hexists, hdevSlash⟩ := host.canonical now link dev hdev
    have hlink : host.pathExists now link = true := by
      rw [host.resolves, hdev, Option.isSome_some]
    refine iff_of_true ?_ (.inl hlink)
    dsimp only
    by_cases htmpfs : u.fstype = "tmpfs"
    · rw [waitForDevice_of_tmpfs htmpfs, waitForDevice_of_tmpfs htmpfs]
    · rw [waitForDevice_of_slash hslash htmpfs, waitForDevice_of_slash hdevSlash htmpfs,
        pollDevice_of_exists hexists, pollDevice_of_exists hlink]
  | none =>
    have hlink : host.pathExists now link = false := by
      rw [host.resolves, hdev, Option.isSome_none]
    dsimp only
    rw [hlink]
    by_cases htmpfs : u.fstype = "tmpfs"
    · rw [waitForDevice_of_tmpfs htmpfs]
      simp [htmpfs]
    · rw [waitForDevice_of_slash hslash htmpfs]
      by_cases hzero : u.timeoutSec = 0
      · rw [pollDevice_timeout hlink (by rw [hzero]; omega)]
        simp [hzero, htmpfs]
      · have hlater := le_pollDevice host link (now + u.timeoutSec * 1000) (now + pollInterval)
        have hinterval : pollInterval = 250 := rfl
        rw [pollDevice_of_not_exists hlink (by omega)]
        refine iff_of_false (fun heq => ?_) (by simp [hzero])
        rw [← heq] at hlater
        omega

end Wait

/-! The order. -/

section Order
variable {host : MountHost} {us : List MountUnit} {s : MountState}

theorem map_unit_activateUnits (host : MountHost) (us : List MountUnit) (s : MountState) :
    (activateUnits host us s).1.map Attempt.unit = us := by
  induction us generalizing s with
  | nil => rfl
  | cons u us ih =>
    rw [activateUnits]
    dsimp only
    rw [List.map_cons, ih]

theorem activate_ok {u : MountUnit} (h : (u.activate host s).1 = .ok ()) :
    (u.activate host s).2.mounted =
      if u.isRemount then s.mounted else s.mounted ++ [pathComponents u.where_] := by
  unfold MountUnit.activate at h ⊢
  cases hdev : u.resolveDevice host s.now with
  | none =>
    rw [hdev] at h
    cases h
  | some dev =>
    rw [hdev] at h
    dsimp only at h ⊢
    cases hfound : (u.waitForDevice host dev s.now).1 with
    | false =>
      rw [hfound] at h
      cases h
    | true =>
      rw [hfound] at h
      rw [Bool.not_true, if_neg Bool.false_ne_true] at h ⊢
      cases hdir : host.createDirAll (u.waitForDevice host dev s.now).2 u.where_ with
      | error e =>
        rw [hdir] at h
        cases h
      | ok _ =>
        rw [hdir] at h
        dsimp only at h ⊢
        cases hmount : host.mount (u.waitForDevice host dev s.now).2 dev u.where_ u.fstype
            (parseMountOptions u.options).1 (parseMountOptions u.options).2 with
        | error e =>
          rw [hmount] at h
          cases h
        | ok _ =>
          dsimp only
          split_ifs
          · rfl
          · rfl

/-- If all succeed, the mount points are those of the units, in their order. -/
theorem mounted_activateUnits (h : ∀ a ∈ (activateUnits host us s).1, a.result = .ok ()) :
    (activateUnits host us s).2.mounted =
      s.mounted ++ (us.filter fun u => !u.isRemount).map fun u => pathComponents u.where_ := by
  induction us generalizing s with
  | nil =>
    rw [List.filter_nil, List.map_nil, List.append_nil]
    rfl
  | cons u us ih =>
    rw [activateUnits] at h ⊢
    dsimp only at h ⊢
    obtain ⟨hu, hus⟩ := List.forall_mem_cons.1 h
    rw [ih hus, activate_ok hu, List.filter_cons]
    cases u.isRemount with
    | true => simp
    | false => simp

/-- The last one at a mount point is covered only by a mount above it. -/
theorem visible_of_mem {mounted : List (List String)} {point : List String} (h : point ∈ mounted)
    (horder : mounted.Pairwise fun p q => ¬ (q <+: p ∧ q ≠ p)) : Visible mounted point := by
  have hrev : point ∈ mounted.reverse := List.mem_reverse.2 h
  obtain ⟨after, before, heq, hlast⟩ := List.eq_append_cons_of_mem hrev
  have hmounted : mounted = before.reverse ++ point :: after.reverse := by
    rw [← List.reverse_reverse mounted, heq]
    simp
  refine ⟨before.reverse, after.reverse, hmounted, fun p hp hpre => ?_⟩
  rw [hmounted, List.pairwise_append] at horder
  have hafter := (List.pairwise_cons.1 horder.2.1).1 p hp
  refine hafter ⟨hpre, fun heq => ?_⟩
  rw [heq] at hp
  exact hlast (List.mem_reverse.1 hp)

/-- No unit comes after one that it is above of. -/
def AncestorsFirst (us : List MountUnit) : Prop := us.Pairwise fun u v => ¬ ProperAncestor v u

theorem ancestorsFirst_iff {attempts : List Attempt} :
    (∀ (i j : ℕ) (a b : Attempt), attempts[i]? = some a → attempts[j]? = some b →
      ProperAncestor a.unit b.unit → i < j) ↔ AncestorsFirst (attempts.map Attempt.unit) := by
  rw [AncestorsFirst, List.pairwise_map, List.pairwise_iff_getElem]
  constructor
  · intro h i j hi hj hlt hanc
    have hji := h j i _ _ (List.getElem?_eq_getElem hj) (List.getElem?_eq_getElem hi) hanc
    omega
  · intro h i j a b ha hb hanc
    obtain ⟨hi, ha⟩ := List.getElem?_eq_some_iff.1 ha
    obtain ⟨hj, hb⟩ := List.getElem?_eq_some_iff.1 hb
    by_contra hge
    have hne : i ≠ j := by
      intro heq
      subst heq
      rw [← ha, ← hb] at hanc
      exact hanc.2 rfl
    refine h j i hj hi (by omega) ?_
    rwa [ha, hb]

/-- In every order of the units those above others come first exactly if none is above another. -/
theorem ancestorsFirst_perm_iff :
    (∀ us', us'.Perm us → AncestorsFirst us') ↔ ∀ u ∈ us, ∀ v ∈ us, ¬ ProperAncestor u v := by
  constructor
  · intro h u hu v hv hanc
    have hne : v ≠ u := by
      intro heq
      rw [heq] at hanc
      exact hanc.2 rfl
    have hv' : v ∈ us.erase u := (List.mem_erase_of_ne hne).2 hv
    have hperm : (v :: u :: (us.erase u).erase v).Perm us :=
      (List.Perm.swap u v _).trans
        (((List.perm_cons_erase hv').symm.cons u).trans (List.perm_cons_erase hu).symm)
    have hfirst := List.pairwise_cons.1 (h _ hperm)
    exact hfirst.1 u List.mem_cons_self hanc
  · intro h us' hperm
    refine List.pairwise_of_forall_mem_list fun u hu v hv => ?_
    exact h v (hperm.subset hv) u (hperm.subset hu)

theorem visible_of_ancestorsFirst {u : MountUnit} (hus : AncestorsFirst us)
    (hok : ∀ a ∈ (activateUnits host us s).1, a.result = .ok ()) (hu : u ∈ us)
    (hmount : u.isRemount = false) :
    Visible (activateUnits host us s).2.mounted (pathComponents u.where_) := by
  have horder : ((us.filter fun u => !u.isRemount).map fun u => pathComponents u.where_).Pairwise
      fun p q => ¬ (q <+: p ∧ q ≠ p) := by
    rw [List.pairwise_map]
    exact List.Pairwise.filter _ hus
  have hmem : pathComponents u.where_ ∈
      (us.filter fun u => !u.isRemount).map fun u => pathComponents u.where_ := by
    refine List.mem_map.2 ⟨u, List.mem_filter.2 ⟨hu, ?_⟩, rfl⟩
    rw [hmount]
    rfl
  obtain ⟨before, after, hsplit, hafter⟩ := visible_of_mem hmem horder
  refine ⟨s.mounted ++ before, after, ?_, hafter⟩
  rw [mounted_activateUnits hok, hsplit, List.append_assoc]

end Order

section Usable
variable {host : MountHost} {files : List MountFile} {s : MountState}

theorem ancestorsFirst_of_usable (h : Usable host (activateAllMountUnits host files s).1
    (activateAllMountUnits host files s).2.mounted) :
    AncestorsFirst (loadAllMountUnits host files) := by
  have hunits := map_unit_activateUnits host (loadAllMountUnits host files) s
  rw [← hunits]
  exact ancestorsFirst_iff.1 h.ancestorsFirst

theorem link_of_usable {attempts : List Attempt} {mounted : List (List String)} {a : Attempt}
    {link : String} (h : Usable host attempts mounted) (ha : a ∈ attempts)
    (hlink : diskLink a.unit.what = some link) : host.pathExists a.start link = true ∨
      (a.unit.timeoutSec = 0 ∧ a.unit.fstype ≠ "tmpfs") :=
  (obtainDevice_eq_iff hlink).1 (h.waits a ha link hlink)

theorem usable_of_ancestorsFirst (horder : AncestorsFirst (loadAllMountUnits host files))
    (hlinks : ∀ a ∈ (activateAllMountUnits host files s).1, ∀ link,
      diskLink a.unit.what = some link → host.pathExists a.start link = true ∨
        (a.unit.timeoutSec = 0 ∧ a.unit.fstype ≠ "tmpfs")) :
    Usable host (activateAllMountUnits host files s).1
      (activateAllMountUnits host files s).2.mounted := by
  have hunits := map_unit_activateUnits host (loadAllMountUnits host files) s
  refine ⟨?_, ?_, ?_⟩
  · refine ancestorsFirst_iff.2 ?_
    rwa [activateAllMountUnits, hunits]
  · intro hok a ha hmount
    have hmem : a.unit ∈ loadAllMountUnits host files := by
      rw [← hunits]
      exact List.mem_map_of_mem ha
    exact visible_of_ancestorsFirst horder hok hmem hmount
  · intro a ha link hlink
    exact (obtainDevice_eq_iff hlink).2 (hlinks a ha link hlink)

end Usable

/-- The mounts are usable exactly if the directory gives no unit before one that is above it, and
each link to a device by UUID or label is there when its unit begins, or the unit has no time to
wait. -/
theorem activation_usable_iff (host : MountHost) (files : List MountFile) (s : MountState) :
    Usable host (activateAllMountUnits host files s).1
        (activateAllMountUnits host files s).2.mounted ↔
      AncestorsFirst (loadAllMountUnits host files) ∧
        ∀ a ∈ (activateAllMountUnits host files s).1, ∀ link, diskLink a.unit.what = some link →
          host.pathExists a.start link = true ∨
            (a.unit.timeoutSec = 0 ∧ a.unit.fstype ≠ "tmpfs") :=
  ⟨fun h => ⟨ancestorsFirst_of_usable h, fun _ ha _ hlink => link_of_usable h ha hlink⟩,
    fun h => usable_of_ancestorsFirst h.1 h.2⟩

def deepUnit : MountUnit := ⟨"deep", "tmpfs", "/data/cache", "tmpfs", "defaults", 30⟩

def topUnit : MountUnit := ⟨"top", "tmpfs", "/data", "tmpfs", "defaults", 30⟩

def uuidUnit : MountUnit := ⟨"disk", "UUID=1234", "/srv", "ext4", "defaults", 30⟩

/-- A machine on which a disk is found after a second. -/
def slowHost : MountHost where
  fromStr text := if text = "deep" then .ok deepUnit else if text = "top" then .ok topUnit
    else .ok uuidUnit
  pathExists t path := 1000 ≤ t ∧ (path = "/dev/disk/by-uuid/1234" ∨ path = "/dev/sda1")
  canonicalize t path :=
    if 1000 ≤ t ∧ (path = "/dev/disk/by-uuid/1234" ∨ path = "/dev/sda1") then some "/dev/sda1"
    else none
  createDirAll _ _ := .ok ()
  mount _ _ _ _ _ _ := .ok ()
  resolves t path := by
    split_ifs with h
    · rw [decide_eq_true h, Option.isSome_some]
    · rw [decide_eq_false h, Option.isSome_none]
  canonical t path dev h := by
    split_ifs at h with hpath
    rw [← Option.some.inj h]
    exact ⟨decide_eq_true ⟨hpath.1, .inr rfl⟩, by decide⟩

/-- A directory that is read with the deeper unit first, and a disk that comes too late for a unit
by its UUID. -/
theorem activation_unusable :
    ¬ Usable slowHost
      (activateAllMountUnits slowHost [⟨"a.toml", .ok "deep"⟩, ⟨"b.toml", .ok "top"⟩] ⟨0, [[]]⟩).1
      (activateAllMountUnits slowHost
        [⟨"a.toml", .ok "deep"⟩, ⟨"b.toml", .ok "top"⟩] ⟨0, [[]]⟩).2.mounted ∧
    ¬ Usable slowHost
      (activateAllMountUnits slowHost [⟨"c.toml", .ok "disk"⟩] ⟨0, [[]]⟩).1
      (activateAllMountUnits slowHost [⟨"c.toml", .ok "disk"⟩] ⟨0, [[]]⟩).2.mounted := by
  constructor
  · intro h
    have horder := ancestorsFirst_of_usable h
    have hunits : loadAllMountUnits slowHost [⟨"a.toml", .ok "deep"⟩, ⟨"b.toml", .ok "top"⟩] =
        [deepUnit, topUnit] := by decide
    have habove : ProperAncestor topUnit deepUnit := by
      unfold ProperAncestor
      decide
    rw [hunits, AncestorsFirst, List.pairwise_cons] at horder
    exact horder.1 topUnit (List.mem_singleton_self _) habove
  · intro h
    have hunits : loadAllMountUnits slowHost [⟨"c.toml", .ok "disk"⟩] = [uuidUnit] := by decide
    rw [activateAllMountUnits, hunits, activateUnits] at h
    have hlink : diskLink uuidUnit.what = some "/dev/disk/by-uuid/1234" := by decide
    have hready := link_of_usable h List.mem_cons_self hlink
    exact absurd hready (by decide)

end Quantra.System
