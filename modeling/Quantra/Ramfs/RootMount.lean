import Quantra.Lib.Calls
import Quantra.Lib.Text
import Mathlib.Data.Int.Notation
import Mathlib.Tactic.Tauto

/-! `rootfs.rs`: opening an encrypted root and mounting it. Every call may be answered in any way;
the texts of log lines are left out. -/
namespace Quantra.RootMount
open Calls Calls.Prog Text

/-- The parameters of the kernel command line that the root mount reads. -/
structure Cmdline where
  rootFstype : Option String := none
  rootFlags : Option String := none
  loopImage : Option String := none
  loopFstype : Option String := none
  luksName : Option String := none
  luksKeyfile : Option String := none
  deriving DecidableEq, Repr

structure Mount where
  source : String
  target : String
  fstype : Option String
  readOnly : Bool := false
  data : Option String := none
  deriving DecidableEq, Repr

/-- `setupLoopIoctl` attaches an image to a free loop device, `consoleLine` reads the console up to
the end of a line, and `wait` is for a child that has been given `stdin`. -/
inductive Call
  | createDirAll (path : String)
  | open_ (path : String)
  | readExact (path : String) (len : ℕ)
  | readToEnd (path : String)
  | tpm2Available
  | tpm2BlobExists
  | unsealLuksKey
  | mount (m : Mount)
  | umount (target : String)
  | consoleWrite (text : String)
  | consoleFlush
  | consoleLine
  | exists_ (path : String)
  | spawn (cmd : String) (args : List String)
  | wait (args : List String) (stdin : List UInt8)
  | setupLoopIoctl (image : String)
  deriving DecidableEq, Repr

/-- An answer of the system; each call reads the part that it is about. `status` is the exit code of
a child, `none` if a signal ended it. -/
structure Reply where
  result : Except String Unit := .ok ()
  holds : Bool := false
  data : List UInt8 := []
  status : Option ℤ := none
  device : String := ""

abbrev Init (α : Type) := Prog Call Reply α

def ask {α : Type} (c : Call) (part : Reply → α) : Init α := call c fun r => ret (part r)

/-- A call whose failure ends the caller with the text `err` of the error. -/
def attempt (c : Call) (err : String → String) : Init (Except String Unit) :=
  ask c fun r => r.result.mapError err

def fetch {α : Type} (c : Call) (part : Reply → α) (err : String → String) :
    Init (Except String α) :=
  ask c fun r => (r.result.mapError err).map fun _ => part r

def luksMagic : List UInt8 := [0x4C, 0x55, 0x4B, 0x53, 0xBA, 0xBE]

def isLuksDevice (device : String) : Init (Except String Bool) :=
  (attempt (.open_ device) fun e => "Cannot open device " ++ device ++ ": " ++ e).check
    (fun _ => fetch (.readExact device 6) (fun r => r.data == luksMagic) fun e =>
      "Cannot read device " ++ device ++ ": " ++ e)
    fun e => ret (.error e)

def keyMountPoint : String := "/run/luks-key-mount"

def readFile (path : String) : Init (Except String (List UInt8)) :=
  (attempt (.open_ path) fun e => "read keyfile '" ++ path ++ "': " ++ e).check
    (fun _ => fetch (.readToEnd path) Reply.data fun e => "read keyfile '" ++ path ++ "': " ++ e)
    fun e => ret (.error e)

/-- The key device stays mounted when the file on it cannot be read. -/
def readKeyfile (spec : String) : Init (Except String (List UInt8)) :=
  match splitOnce ':' spec with
  | some (dev, pathInside) =>
    (attempt (.createDirAll keyMountPoint) fun e => "create mount point: " ++ e).check
      (fun _ =>
        (attempt (.mount { source := dev, target := keyMountPoint, fstype := none, readOnly := true })
          fun e => "mount keyfile device '" ++ dev ++ "': " ++ e).check
        (fun _ => (readFile (keyMountPoint ++ "/" ++ trimStartMatches '/' pathInside)).check
          (fun data => (ask (.umount keyMountPoint) Reply.result).bind fun _ => ret (.ok data))
          fun e => ret (.error e))
        fun e => ret (.error e))
      fun e => ret (.error e)
  | none => readFile spec

def promptLuksPassphrase (name : String) : Init (Except String (List UInt8)) :=
  (attempt (.open_ "/dev/console") fun e => "open /dev/console: " ++ e).check
    (fun _ => (attempt (.consoleWrite ("\n  Enter LUKS passphrase for '" ++ name ++ "': "))
        fun e => "write prompt: " ++ e).check
      (fun _ => (attempt .consoleFlush fun e => "flush: " ++ e).check
        (fun _ => (ask .consoleLine Reply.data).bind fun typed =>
          (ask (.consoleWrite "\n") Reply.result).bind fun _ =>
            if typed = [] then ret (.error "Empty passphrase — aborting LUKS open")
            else ret (.ok typed))
        fun e => ret (.error e))
      fun e => ret (.error e))
    fun e => ret (.error e)

def findCryptsetup : Init (Option String) :=
  (ask (.exists_ "/sbin/cryptsetup") Reply.holds).bind fun sbin =>
    if sbin then ret (some "/sbin/cryptsetup")
    else (ask (.exists_ "/usr/sbin/cryptsetup") Reply.holds).bind fun usr =>
      if usr then ret (some "/usr/sbin/cryptsetup") else ret none

def luksOpenArgs (device name : String) : List String :=
  ["luksOpen", "--key-file=-", "--batch-mode", device, name]

def mapper (name : String) : String := "/dev/mapper/" ++ name

/-- The passphrase goes to the standard input of the child, and a failure to write it is ignored. -/
def openLuksWithPassphrase (device name : String) (passphrase : List UInt8) :
    Init (Except String String) :=
  findCryptsetup.bind fun
    | none => ret (.error ("cryptsetup not found at /sbin/cryptsetup or /usr/sbin/cryptsetup. " ++
        "Install cryptsetup in initramfs or compile with dm-crypt ioctl support."))
    | some cryptsetup =>
      (attempt (.spawn cryptsetup (luksOpenArgs device name)) fun e =>
        "cryptsetup spawn failed: " ++ e).check
      (fun _ => (fetch (.wait (luksOpenArgs device name) passphrase) Reply.status fun e =>
          "cryptsetup wait: " ++ e).check
        (fun status =>
          if status = some 0 then ret (.ok (mapper name))
          else ret (.error ("cryptsetup luksOpen failed (exit " ++ toString (status.getD (-1)) ++
            "). Wrong passphrase?")))
        fun e => ret (.error e))
      fun e => ret (.error e)

/-- The key that the TPM unseals, if there is one. -/
def tpm2Key : Init (Option (List UInt8)) :=
  (ask .tpm2Available Reply.holds).bind fun available =>
    if available then
      (ask .tpm2BlobExists Reply.holds).bind fun blob =>
        if blob then
          (fetch .unsealLuksKey Reply.data id).bind fun key => ret key.toOption
        else ret none
    else ret none

def keyfileKey : Option String → Init (Option (List UInt8))
  | some spec => (readKeyfile spec).bind fun key => ret key.toOption
  | none => ret none

/-- The TPM, the keyfile and the console are tried in this order. -/
def openLuksDevice (device name : String) (keyfile : Option String) :
    Init (Except String String) :=
  tpm2Key.bind fun
    | some key => openLuksWithPassphrase device name key
    | none => (keyfileKey keyfile).bind fun
      | some key => openLuksWithPassphrase device name key
      | none => (promptLuksPassphrase name).check (openLuksWithPassphrase device name)
          fun e => ret (.error e)

inductive DeviceType
  | nfs
  | isoCdrom
  | ramdisk
  | partition
  | unknown
  deriving DecidableEq, Repr

def startsWith (s pre : String) : Bool := pre.toList.isPrefixOf s.toList

def deviceType (device : String) : DeviceType :=
  if device.toList.contains ':' then .nfs
  else if startsWith device "/dev/sr" || startsWith device "/dev/cdrom" ||
      startsWith device "/dev/dvd" then .isoCdrom
  else if startsWith device "/dev/ram" then .ramdisk
  else if startsWith device "/dev/sd" || startsWith device "/dev/nvme" ||
      startsWith device "/dev/vd" || startsWith device "/dev/mmcblk" ||
      startsWith device "/dev/hd" || startsWith device "/dev/xvd" ||
      startsWith device "/dev/disk/" || startsWith device "/dev/mapper/" then .partition
  else .unknown

/-- The explicit type first, then those of the fallback list that are not there yet. -/
def candidates (explicit : Option String) (fallback : List String) : List String :=
  fallback.foldl (fun cs fstype => if cs.contains fstype then cs else cs ++ [fstype])
    explicit.toList

/-- Try the types in turn, and last let the kernel detect the type. -/
def tryMounts (device target : String) : List String → Init Bool
  | [] => ask (.mount { source := device, target, fstype := none }) fun r => r.result.isOk
  | fstype :: rest =>
    (ask (.mount { source := device, target, fstype := some fstype }) fun r => r.result.isOk).bind
      fun ok => if ok then ret true else tryMounts device target rest

def tryMountRootCandidates (device : String) (explicit : Option String) (target : String)
    (fallback : List String) : Init Bool :=
  tryMounts device target (candidates explicit fallback)

def isoMountPath : String := "/mnt/iso-root"

def setupLoopDevice (device isoMountPath loopImage : String) : Init (Except String String) :=
  (attempt (.createDirAll isoMountPath) fun _ => "create ISO mount dir failed").check
    (fun _ =>
      (attempt
        (.mount
          { source := device, target := isoMountPath, fstype := some "iso9660", readOnly := true })
        fun e => "mount ISO failed: " ++ e).check
      (fun _ => (ask (.exists_ (isoMountPath ++ loopImage)) Reply.holds).bind fun found =>
        if found then
          (fetch (.setupLoopIoctl (isoMountPath ++ loopImage)) Reply.device fun e =>
            "loop device setup failed: " ++ e).check
          (fun loopDevice => ret (.ok loopDevice))
          fun e => (ask (.umount isoMountPath) Reply.result).bind fun _ => ret (.error e)
        else (ask (.umount isoMountPath) Reply.result).bind fun _ =>
          ret (.error ("loop image not found: " ++ isoMountPath ++ loopImage)))
      fun e => ret (.error e))
    fun e => ret (.error e)

/-- Without `loopfstype=` the type is guessed from the name of the image. -/
def loopMountFstype (loopFstype : Option String) (loopImage : String) : String :=
  loopFstype.getD (if ".squashfs".toList.isSuffixOf loopImage.toList then "squashfs" else "erofs")

def mountIso (device : String) (cmdline : Cmdline) (target : String) : Init (Except String Unit) :=
  match cmdline.loopImage with
  | some loopImage =>
    (setupLoopDevice device isoMountPath loopImage).check
      (fun loopDevice =>
        let fstype := loopMountFstype cmdline.loopFstype loopImage
        attempt (.mount { source := loopDevice, target, fstype := some fstype, readOnly := true })
          fun e => "mount loop device failed: " ++ e ++ " (device: " ++ loopDevice ++ ")")
      fun e => ret (.error e)
  | none =>
    attempt (.mount { source := device, target, fstype := some "iso9660", readOnly := true })
      fun e => "direct ISO mount failed: " ++ e

def mountBtrfsSubvol (device target : String) (rootflags : Option String) :
    Init (Except String Unit) :=
  let opts := rootflags.getD "subvol=@"
  attempt (.mount { source := device, target, fstype := some "btrfs", data := some opts }) fun e =>
    "btrfs mount '" ++ device ++ "' → '" ++ target ++ "' (opts=" ++ opts ++ "): " ++ e

def ramdiskFallback : List String := ["ext4", "erofs", "squashfs", "tmpfs"]

def partitionFallback : List String :=
  ["ext4", "erofs", "xfs", "btrfs", "f2fs", "vfat", "ntfs", "exfat", "zfs"]

/-- The branches that choose a strategy look at `actualDevice`; those for images, ramdisks and
partitions go on to mount `device`. -/
def mountActual (device actualDevice : String) (cmdline : Cmdline) (target : String) :
    Init (Except String Unit) :=
  match deviceType actualDevice with
  | .nfs =>
    attempt (.mount { source := actualDevice, target, fstype := some "nfs" })
      fun e => "NFS mount failed: " ++ e
  | .isoCdrom => mountIso device cmdline target
  | .ramdisk =>
    (tryMountRootCandidates device cmdline.rootFstype target ramdiskFallback).bind fun ok =>
      if ok then done
      else ret (.error ("ramdisk mount failed after filesystem attempts: " ++ device))
  | .partition | .unknown =>
    if cmdline.rootFstype = some "btrfs" then
      mountBtrfsSubvol actualDevice target cmdline.rootFlags
    else
      (tryMountRootCandidates device cmdline.rootFstype target partitionFallback).bind fun ok =>
        if ok then done
        else ret (.error ("partition mount failed after filesystem attempts: " ++ device))

/-- The device to mount: the mapping of an encrypted device, which is opened first. -/
def actualDevice (device : String) (cmdline : Cmdline) : Init (Except String String) :=
  (isLuksDevice device).check
    (fun luks =>
      if luks then
        match cmdline.luksName with
        | some name => openLuksDevice device name cmdline.luksKeyfile
        | none => ret (.error "LUKS device detected but no luks_name= parameter provided")
      else ret (.ok device))
    fun e => ret (.error e)

def mountRootImpl (device : String) (cmdline : Cmdline) (target : String) :
    Init (Except String Unit) :=
  (attempt (.createDirAll target) fun e => "create '" ++ target ++ "' failed: " ++ e).check
    (fun _ => (actualDevice device cmdline).check
      (fun actual => mountActual device actual cmdline target)
      fun e => ret (.error e))
    fun e => ret (.error e)

/-! What is mounted once a mapping is open. -/

/-- The answer to `cryptsetup` by which the mapping `name` is open. -/
def Opens (name : String) (x : Call × Reply) : Prop :=
  ∃ device key, x.1 = .wait (luksOpenArgs device name) key ∧ x.2.result = .ok () ∧
    x.2.status = some 0

/-- A mount of the root filesystem from elsewhere than `source`. -/
def MountsOther (target source : String) (c : Call) : Prop :=
  ∃ m, c = .mount m ∧ m.target = target ∧ m.source ≠ source

/-- Once a mapping is open, the root is mounted from it and from nowhere else. -/
def MapperOnly (device : String) (cmdline : Cmdline) (target : String) : Prop :=
  ∀ name, (mountRootImpl device cmdline target).After (Opens name) fun rest =>
    ¬rest.Makes (MountsOther target (mapper name))

section Calls
variable {α : Type} {bad : Call → Prop} {c : Call}

@[simp] theorem makes_ask {part : Reply → α} : (ask c part).Makes bad ↔ bad c := by
  simp [ask]

@[simp] theorem makes_attempt {err : String → String} : (attempt c err).Makes bad ↔ bad c := by
  simp [attempt]

@[simp] theorem makes_fetch {part : Reply → α} {err : String → String} :
    (fetch c part err).Makes bad ↔ bad c := by
  simp [fetch]

/-- The call waits for a child. -/
def IsWait (c : Call) : Prop := ∃ args stdin, c = .wait args stdin

/-- A program that never waits for a child opens no mapping. -/
theorem after_of_no_wait {name : String} {p : Init α} {good : Init α → Prop}
    (h : ¬p.Makes IsWait) : p.After (Opens name) good := by
  refine after_of_not_makes fun hmakes => h ?_
  refine hmakes.mono ?_
  rintro c ⟨o, device, key, hc, -⟩
  exact ⟨_, _, hc⟩

end Calls

section NoWait
variable {device name target : String} {cmdline : Cmdline}

theorem isLuksDevice_no_wait : ¬(isLuksDevice device).Makes IsWait := by
  simp [isLuksDevice, IsWait]

theorem readFile_no_wait {path : String} : ¬(readFile path).Makes IsWait := by
  simp [readFile, IsWait]

theorem readKeyfile_no_wait {spec : String} : ¬(readKeyfile spec).Makes IsWait := by
  unfold readKeyfile
  split
  · simp [makes_bind, readFile_no_wait, IsWait]
  · exact readFile_no_wait

theorem keyfileKey_no_wait {keyfile : Option String} : ¬(keyfileKey keyfile).Makes IsWait := by
  cases keyfile <;> simp [keyfileKey, makes_bind, readKeyfile_no_wait]

theorem tpm2Key_no_wait : ¬tpm2Key.Makes IsWait := by
  simp [tpm2Key, makes_bind, apply_ite, IsWait]

theorem promptLuksPassphrase_no_wait : ¬(promptLuksPassphrase name).Makes IsWait := by
  simp [promptLuksPassphrase, makes_bind, apply_ite, IsWait]

theorem findCryptsetup_no_wait : ¬findCryptsetup.Makes IsWait := by
  simp [findCryptsetup, makes_bind, apply_ite, IsWait]

theorem tryMounts_no_wait {fstypes : List String} :
    ¬(tryMounts device target fstypes).Makes IsWait := by
  induction fstypes with
  | nil => simp [tryMounts, IsWait]
  | cons fstype rest ih => simp [tryMounts, makes_bind, apply_ite, ih, IsWait]

theorem mountIso_no_wait : ¬(mountIso device cmdline target).Makes IsWait := by
  unfold mountIso
  split <;> simp [makes_bind, apply_ite, setupLoopDevice, IsWait]

theorem mountActual_no_wait {actual : String} :
    ¬(mountActual device actual cmdline target).Makes IsWait := by
  unfold mountActual
  split
  case h_2 => exact mountIso_no_wait
  all_goals
    simp [makes_bind, tryMountRootCandidates, tryMounts_no_wait, apply_ite, mountBtrfsSubvol,
      IsWait]

end NoWait

section Opened
variable {device name target : String} {cmdline : Cmdline}

/-- The successful end of `cryptsetup` is the last call of the attempt. -/
theorem openLuksWithPassphrase_after {name' : String} {key : List UInt8} :
    (openLuksWithPassphrase device name' key).After (Opens name) fun rest =>
      name' = name ∧ rest = ret (.ok (mapper name)) := by
  unfold openLuksWithPassphrase
  refine after_bind (after_of_no_wait findCryptsetup_no_wait) fun found => ?_
  cases found with
  | none => exact after_ret _ _
  | some cryptsetup =>
    refine after_check (after_of_no_wait (by simp [IsWait])) (fun _ => ?_) fun e => after_ret _ _
    refine after_check ?_ (fun status => ?_) fun e => after_ret _ _
    · refine after_call ?_ fun o => after_ret _ _
      rintro o ⟨device', key', hargs, hresult, hstatus⟩
      have hname : name' = name := by simp_all [luksOpenArgs]
      dsimp only at hresult hstatus ⊢
      rw [hresult, hstatus, hname]
      exact ⟨rfl, rfl⟩
    · split <;> exact after_ret _ _

theorem openLuksDevice_after {name' : String} {keyfile : Option String} :
    (openLuksDevice device name' keyfile).After (Opens name) fun rest =>
      name' = name ∧ rest = ret (.ok (mapper name)) := by
  unfold openLuksDevice
  refine after_bind (after_of_no_wait tpm2Key_no_wait) fun key => ?_
  cases key with
  | some key => exact openLuksWithPassphrase_after
  | none =>
    refine after_bind (after_of_no_wait keyfileKey_no_wait) fun key => ?_
    cases key with
    | some key => exact openLuksWithPassphrase_after
    | none =>
      exact after_check (after_of_no_wait promptLuksPassphrase_no_wait)
        (fun _ => openLuksWithPassphrase_after) fun e => after_ret _ _

theorem actualDevice_after :
    (actualDevice device cmdline).After (Opens name) fun rest =>
      cmdline.luksName = some name ∧ rest = ret (.ok (mapper name)) := by
  unfold actualDevice
  refine after_check (after_of_no_wait isLuksDevice_no_wait) (fun luks => ?_) fun e => after_ret _ _
  split
  · split
    · rename_i name' hname'
      refine openLuksDevice_after.mono ?_
      rintro rest ⟨rfl, hrest⟩
      exact ⟨hname', hrest⟩
    · exact after_ret _ _
  · exact after_ret _ _

/-- What is left after the mapping is open is the mount, for the mapping as the actual device. -/
theorem mountRootImpl_after :
    (mountRootImpl device cmdline target).After (Opens name) fun rest =>
      cmdline.luksName = some name ∧
        rest = mountActual device (mapper name) cmdline target := by
  unfold mountRootImpl
  refine after_check (after_of_no_wait (by simp [IsWait])) (fun _ => ?_) fun e => after_ret _ _
  refine after_check ?_ (fun actual => after_of_no_wait mountActual_no_wait) fun e => after_ret _ _
  refine actualDevice_after.mono ?_
  rintro rest ⟨hname, rfl⟩
  exact ⟨hname, rfl⟩

/-- Answers that open the mapping with the key of the TPM. -/
def unsealed (device name target : String) : List (Call × Reply) :=
  [(.createDirAll target, {}), (.open_ device, {}), (.readExact device 6, { data := luksMagic }),
    (.tpm2Available, { holds := true }), (.tpm2BlobExists, { holds := true }), (.unsealLuksKey, {}),
    (.exists_ "/sbin/cryptsetup", { holds := true }),
    (.spawn "/sbin/cryptsetup" (luksOpenArgs device name), {})]

theorem mountRootImpl_leads (hname : cmdline.luksName = some name) :
    (mountRootImpl device cmdline target).Leads
      (unsealed device name target ++
        [(.wait (luksOpenArgs device name) [], { status := some 0 })])
      (mountActual device (mapper name) cmdline target) := by
  unfold mountRootImpl actualDevice
  rw [hname]
  exact ⟨rfl, rfl, rfl, rfl, rfl, rfl, rfl, rfl, rfl, (leads_nil _ _).2 rfl⟩

/-- A mapping counts as a partition, or as a network share if its name has a colon. -/
theorem deviceType_mapper :
    deviceType (mapper name) = if ':' ∈ name.toList then .nfs else .partition := by
  simp [deviceType, startsWith, mapper]

@[simp] theorem mountsOther_mount (m : Mount) (source : String) :
    MountsOther target source (.mount m) ↔ m.target = target ∧ m.source ≠ source := by
  simp [MountsOther]

/-- Every mount of the candidates has the one source, and the first is always tried. -/
theorem tryMounts_makes {source : String} {fstypes : List String} :
    (tryMounts device target fstypes).Makes (MountsOther target source) ↔ device ≠ source := by
  induction fstypes with
  | nil => simp [tryMounts]
  | cons fstype rest ih =>
    rw [tryMounts, makes_bind, makes_ask, mountsOther_mount, and_iff_right rfl]
    refine or_iff_left_of_imp ?_
    rintro ⟨ok, -, hmakes⟩
    cases ok with
    | true => exact absurd hmakes (makes_ret true)
    | false => exact ih.1 hmakes

/-- The mount goes round the mapping unless it is taken for a network share, the type is btrfs or
the mapping lies over itself. -/
theorem mountActual_makes :
    (mountActual device (mapper name) cmdline target).Makes (MountsOther target (mapper name)) ↔
      ':' ∉ name.toList ∧ cmdline.rootFstype ≠ some "btrfs" ∧ device ≠ mapper name := by
  unfold mountActual
  rw [deviceType_mapper]
  by_cases hcolon : ':' ∈ name.toList
  · simp [hcolon]
  · simp only [hcolon, if_false, not_false_eq_true, true_and]
    by_cases hbtrfs : cmdline.rootFstype = some "btrfs"
    · simp [hbtrfs, mountBtrfsSubvol]
    · rw [if_neg hbtrfs, makes_bind, tryMountRootCandidates, tryMounts_makes]
      refine (or_iff_left ?_).trans (and_iff_right hbtrfs).symm
      rintro ⟨ok, -, hmakes⟩
      cases ok with
      | true => exact absurd hmakes makes_done
      | false => exact absurd hmakes (makes_ret _)

/-- Where an encrypted root is mounted from: the partition branch tries its candidates on the raw
device, so only a network share, a btrfs root and a mapping over itself keep to the mapping. -/
theorem mapperOnly_iff :
    MapperOnly device cmdline target ↔ ∀ name, cmdline.luksName = some name →
      ':' ∈ name.toList ∨ cmdline.rootFstype = some "btrfs" ∨ device = mapper name := by
  constructor
  · intro h name hname
    have hrest := h name _ _ _ ⟨device, [], rfl, rfl, rfl⟩ (mountRootImpl_leads hname)
    have hmakes := mt mountActual_makes.2 hrest
    tauto
  · intro h name
    refine mountRootImpl_after.mono ?_
    rintro rest ⟨hname, rfl⟩
    rw [mountActual_makes]
    have := h name hname
    tauto

/-- An encrypted partition with a plain root file system is mounted raw. -/
theorem not_mapperOnly_ext4 :
    ¬MapperOnly "/dev/sda2" { luksName := some "root", rootFstype := some "ext4" } "/zairoot" := by
  intro h
  have hrest := h "root" _ _ _ ⟨"/dev/sda2", [], rfl, rfl, rfl⟩ (mountRootImpl_leads rfl)
  exact hrest (mountActual_makes.2 (by decide))

end Opened

end Quantra.RootMount
