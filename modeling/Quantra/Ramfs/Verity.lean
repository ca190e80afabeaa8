import Quantra.Lib.Effects
import Quantra.Ramfs.MeasuredBoot
import Mathlib.Logic.Function.Basic

/-! `verity.rs`: the requests to the device mapper by which a verity device is set up and removed,
and what the kernel does at each of them. -/
namespace Quantra.Verity
open Bytes Effects MeasuredBoot

/-! The device mapper, by the numbers of `linux/dm-ioctl.h`. -/

/-- `struct dm_target_spec`, with the parameters that follow it. -/
structure Target where
  sectorStart : ℕ
  length : ℕ
  targetType : String
  params : String
  deriving DecidableEq, Repr

/-- A mapped device: the table that it works with, and one that is loaded but not yet active. -/
structure Device where
  live : Option (List Target) := none
  inactive : Option (List Target) := none
  suspended : Bool := false
  deriving DecidableEq, Repr

/-- The devices by their names. -/
abbrev Devices := List UInt8 → Option Device

/-- What lies between `data_start` and `data_size`. -/
inductive Area
  | empty
  | text (s : List UInt8)
  | targets (ts : List Target)
  deriving DecidableEq, Repr

/-- `struct dm_ioctl`; the name is the field of 128 bytes up to its first zero. -/
structure DmIoctl where
  name : List UInt8 := []
  flags : UInt32 := 0
  area : Area := .empty
  deriving DecidableEq, Repr

/-- `DM_SUSPEND_FLAG` of the header. -/
def suspendFlag : UInt32 := 2

/-- The kernel's own check of a name. -/
def validName (name : List UInt8) : Bool :=
  !name.contains '/'.toNat.toUInt8 && name ≠ asBytes "control" && name ≠ asBytes "." &&
    name ≠ asBytes ".."

/-- `do_resume`: the inactive table becomes the live one, without which nothing can be resumed. -/
def Device.resume (d : Device) : Except String Device :=
  match d.inactive with
  | some table => .ok { live := some table }
  | none =>
    if d.suspended ∧ d.live = none then .error "Invalid argument"
    else .ok { d with suspended := false }

def find (devs : Devices) (name : List UInt8) : Except String Device :=
  if name = [] then .error "No such device or address"
  else
    match devs name with
    | some d => .ok d
    | none => .error "No such device or address"

def put (devs : Devices) (name : List UInt8) (d : Device) : Devices :=
  Function.update devs name (some d)

/-! One function for each command, as in `dm-ioctl.c`. -/

def devCreate (ioc : DmIoctl) (devs : Devices) : Except String Devices :=
  if ioc.name = [] ∨ validName ioc.name = false then .error "Invalid argument"
  else if (devs ioc.name).isSome then .error "Device or resource busy"
  else .ok (put devs ioc.name {})

def devRemove (ioc : DmIoctl) (devs : Devices) : Except String Devices := do
  let _ ← find devs ioc.name
  return Function.update devs ioc.name none

def devRename (ioc : DmIoctl) (devs : Devices) : Except String Devices :=
  match ioc.area with
  | .text new =>
    if new = [] ∨ validName new = false then .error "Invalid argument"
    else if (devs new).isSome then .error "Device or resource busy"
    else do
      let d ← find devs ioc.name
      return put (Function.update devs ioc.name none) new d
  | _ => .error "Invalid argument"

def devSuspend (ioc : DmIoctl) (devs : Devices) : Except String Devices := do
  let d ← find devs ioc.name
  if ioc.flags &&& suspendFlag ≠ 0 then
    return put devs ioc.name { d with suspended := true }
  else
    return put devs ioc.name (← d.resume)

def tableLoad (ioc : DmIoctl) (devs : Devices) : Except String Devices :=
  match ioc.area with
  | .targets ts => do
    let d ← find devs ioc.name
    return put devs ioc.name { d with inactive := some ts }
  | _ => .error "Invalid argument"

/-- What the kernel does at the command with this number; the others change nothing. -/
def kernel (nr : UInt8) (ioc : DmIoctl) (devs : Devices) : Except String Devices :=
  if nr = 1 then .ok fun _ => none
  else if nr = 3 then devCreate ioc devs
  else if nr = 4 then devRemove ioc devs
  else if nr = 5 then devRename ioc devs
  else if nr = 6 then devSuspend ioc devs
  else if nr = 9 then tableLoad ioc devs
  else .ok devs

/-! `verity.rs`. -/

def dmVersionCmd : UInt8 := 0

def dmDevCreateCmd : UInt8 := 3

def dmDevSuspendCmd : UInt8 := 5

def dmDevRemoveCmd : UInt8 := 6

def dmTableLoadCmd : UInt8 := 9

structure VerityConfig where
  dataDevice : String
  hashDevice : String
  roothash : Vector UInt8 32
  hashOffset : UInt64
  dmName : String

/-- How the calls around the device mapper end, and the commands that the kernel refuses for reasons
of its own. `sectors` is the answer of `get_block_device_sectors`. -/
structure System where
  createDirAll : Except String Unit := .ok ()
  openControl : Except String Unit := .ok ()
  sectors : String → Except String UInt64
  refusal : UInt8 → Option String := fun _ => none

/-- `new_dm_ioctl`: at most 127 bytes of the name are copied. -/
def newDmIoctl (name : String) : DmIoctl :=
  { name := ((asBytes name).take 127).takeWhile (· ≠ 0) }

abbrev Dm (α : Type) := Eff Devices String α

section Setup
variable (sys : System)

def ioctl (nr : UInt8) (ioc : DmIoctl) : Dm Unit := do
  match sys.refusal nr with
  | some e => throw e
  | none => set (← answer (kernel nr ioc (← get)))

def dmVersionCheck : Dm Unit := mapErr ("DM_VERSION ioctl: " ++ ·) (ioctl sys dmVersionCmd {})

def dmDevCreate (name : String) : Dm Unit :=
  mapErr (fun e => "DM_DEV_CREATE '" ++ name ++ "': " ++ e)
    (ioctl sys dmDevCreateCmd (newDmIoctl name))

/-- The verity target of the configuration. -/
def verityTarget (cfg : VerityConfig) (dataSectors : UInt64) : Target where
  sectorStart := 0
  length := dataSectors.toNat
  targetType := "verity"
  params := "1 " ++ cfg.dataDevice ++ " " ++ cfg.hashDevice ++ " 4096 4096 " ++
    toString (dataSectors / 8).toNat ++ " " ++ toString (cfg.hashOffset / 8).toNat ++ " sha256 " ++
    encodeHex cfg.roothash.toList ++ " -"

def dmTableLoadVerity (cfg : VerityConfig) (dataSectors : UInt64) : Dm Unit :=
  mapErr ("DM_TABLE_LOAD verity: " ++ ·)
    (ioctl sys dmTableLoadCmd
      { newDmIoctl cfg.dmName with area := .targets [verityTarget cfg dataSectors] })

def dmDevResume (name : String) : Dm Unit :=
  mapErr (fun e => "DM_DEV_RESUME '" ++ name ++ "': " ++ e)
    (ioctl sys dmDevSuspendCmd { newDmIoctl name with flags := 0 })

def dmDevRemove (name : String) : Dm Unit :=
  mapErr (fun e => "DM_DEV_REMOVE '" ++ name ++ "': " ++ e)
    (ioctl sys dmDevRemoveCmd (newDmIoctl name))

/-- The path of the verified device. -/
def setupVerity (cfg : VerityConfig) : Dm String := do
  mapErr ("create /dev/mapper: " ++ ·) (answer sys.createDirAll)
  mapErr (fun e => "open /dev/mapper/control: " ++ e ++ " — is device-mapper loaded?")
    (answer sys.openControl)
  dmVersionCheck sys
  dmDevCreate sys cfg.dmName
  let dataSectors ← answer (sys.sectors cfg.dataDevice)
  dmTableLoadVerity sys cfg dataSectors
  dmDevResume sys cfg.dmName
  return "/dev/mapper/" ++ cfg.dmName

def removeVerity (name : String) : Dm Unit := do
  mapErr ("open /dev/mapper/control: " ++ ·) (answer sys.openControl)
  dmDevRemove sys name

/-! What the kernel accepts. -/

/-- The command comes through and leaves these devices. -/
def Accepts (nr : UInt8) (ioc : DmIoctl) (devs after : Devices) : Prop :=
  sys.refusal nr = none ∧ kernel nr ioc devs = .ok after

variable {sys} {ioc : DmIoctl} {devs after : Devices} {d d' : Device} {nm nm' : List UInt8}

theorem isSome_put_self : (put devs nm d nm).isSome := by
  rw [put, Function.update_self]
  rfl

theorem isSome_put (h : (devs nm').isSome) : (put devs nm d nm').isSome := by
  by_cases heq : nm' = nm
  · rw [heq]
    exact isSome_put_self
  · rwa [put, Function.update_of_ne heq]

theorem find_eq_ok : find devs nm = .ok d ↔ nm ≠ [] ∧ devs nm = some d := by
  unfold find
  by_cases hn : nm = []
  · simp [hn]
  · cases hd : devs nm <;> simp [hn]

/-- There is a table that the device can work with, or nothing to be resumed. -/
def Device.Resumable (d : Device) : Prop :=
  d.inactive.isSome ∨ d.live.isSome ∨ d.suspended = false

instance (d : Device) : Decidable d.Resumable := inferInstanceAs (Decidable (_ ∨ _))

theorem resume_of_resumable (h : d.Resumable) : ∃ d', d.resume = .ok d' := by
  unfold Device.resume
  cases hi : d.inactive with
  | some table => exact ⟨_, rfl⟩
  | none =>
    have hn : ¬(d.suspended ∧ d.live = none) := by
      rintro ⟨hs, hl⟩
      simp [Device.Resumable, hi, hs, hl] at h
    exact ⟨_, if_neg hn⟩

theorem resumable_of_resume (h : d.resume = .ok d') : d.Resumable := by
  unfold Device.resume at h
  cases hi : d.inactive with
  | some table => exact .inl (by rw [hi]; rfl)
  | none =>
    rw [hi] at h
    by_cases hs : d.suspended ∧ d.live = none
    · rw [if_pos hs] at h
      cases h
    · cases hl : d.live with
      | some table => exact .inr (.inl (by rw [hl]; rfl))
      | none => exact .inr (.inr (Bool.eq_false_iff.mpr fun hd => hs ⟨hd, hl⟩))

theorem accepts_version (h : Accepts sys dmVersionCmd ioc devs after) : after = devs :=
  (Except.ok.inj h.2).symm

theorem devCreate_eq_ok : devCreate ioc devs = .ok after ↔
    (ioc.name ≠ [] ∧ validName ioc.name) ∧ devs ioc.name = none ∧
      put devs ioc.name {} = after := by
  unfold devCreate
  by_cases hn : ioc.name = [] ∨ validName ioc.name = false
  · rw [if_pos hn]
    refine ⟨fun h => (by cases h), fun h => ?_⟩
    rcases hn with hn | hn
    · exact absurd hn h.1.1
    · exact absurd h.1.2 (Bool.eq_false_iff.mp hn)
  · rw [if_neg hn]
    have hname : ioc.name ≠ [] ∧ validName ioc.name := by simpa using hn
    cases hd : devs ioc.name with
    | none => exact ⟨fun h => ⟨hname, rfl, Except.ok.inj h⟩, fun h => congrArg Except.ok h.2.2⟩
    | some d => exact ⟨fun h => (by cases h), fun h => absurd h.2.1 (Option.some_ne_none d)⟩

theorem accepts_load (h : Accepts sys dmTableLoadCmd ioc devs after) (hn : (devs nm).isSome) :
    (after nm).isSome := by
  have hc : tableLoad ioc devs = .ok after := h.2
  unfold tableLoad at hc
  cases ha : ioc.area with
  | targets ts =>
    rw [ha] at hc
    cases hf : find devs ioc.name with
    | error e =>
      rw [hf] at hc
      cases hc
    | ok d =>
      rw [hf] at hc
      rw [← Except.ok.inj hc]
      exact isSome_put hn
  | _ =>
    rw [ha] at hc
    cases hc

/-- The number is the one of `DM_DEV_RENAME`, which wants a new name. -/
theorem not_accepts_suspend (h : ioc.area = .empty) :
    ¬Accepts sys dmDevSuspendCmd ioc devs after := by
  rintro ⟨-, hc⟩
  have hc : devRename ioc devs = .ok after := hc
  unfold devRename at hc
  rw [h] at hc
  cases hc

/-- Without the flag the command is a resume. -/
theorem devSuspend_eq_ok (h : ioc.flags = 0) : devSuspend ioc devs = .ok after ↔
    ∃ d d', find devs ioc.name = .ok d ∧ d.resume = .ok d' ∧ put devs ioc.name d' = after := by
  unfold devSuspend
  rw [h]
  cases hf : find devs ioc.name with
  | error e =>
    constructor
    · rintro ⟨⟩
    · rintro ⟨_, _, ⟨⟩, -⟩
  | ok d =>
    change (do return put devs ioc.name (← d.resume)) = _ ↔ _
    cases hr : d.resume with
    | error e =>
      constructor
      · rintro ⟨⟩
      · rintro ⟨_, _, ⟨⟩, hd, -⟩
        cases hr.symm.trans hd
    | ok d' =>
      constructor
      · exact fun hafter => ⟨d, d', rfl, hr, Except.ok.inj hafter⟩
      · rintro ⟨_, _, ⟨⟩, hd, rfl⟩
        cases hr.symm.trans hd
        rfl

theorem isSome_of_devSuspend (h : ioc.flags = 0) (hc : devSuspend ioc devs = .ok after) :
    (after ioc.name).isSome := by
  obtain ⟨d, d', -, -, rfl⟩ := (devSuspend_eq_ok h).mp hc
  exact isSome_put_self

theorem devSuspend_comes_through (h : ioc.flags = 0) :
    (∃ after, devSuspend ioc devs = .ok after) ↔
      ∃ d, find devs ioc.name = .ok d ∧ d.Resumable := by
  constructor
  · rintro ⟨after, hc⟩
    obtain ⟨d, d', hd, hr, -⟩ := (devSuspend_eq_ok h).mp hc
    exact ⟨d, hd, resumable_of_resume hr⟩
  · rintro ⟨d, hd, hresumable⟩
    obtain ⟨d', hr⟩ := resume_of_resumable hresumable
    exact ⟨_, (devSuspend_eq_ok h).mpr ⟨d, d', hd, hr, rfl⟩⟩

/-! Triples. -/

variable {P : Devices → Prop}

theorem triple_ioctl {nr : UInt8} {Q E : Devices → Prop}
    (hok : ∀ s t, P s → Accepts sys nr ioc s t → Q t)
    (herr : ∀ s, P s → (∀ t, ¬Accepts sys nr ioc s t) → E s) :
    Triple P (ioctl sys nr ioc) (fun _ => Q) fun _ => E := by
  intro s hs
  unfold ioctl
  cases hr : sys.refusal nr with
  | some e => exact herr s hs fun t ht => by simp [Accepts, hr] at ht
  | none =>
    change Post _ _ (outcome (do set (← answer (kernel nr ioc s)) : Dm Unit) s)
    cases hk : kernel nr ioc s with
    | ok t => exact hok s t hs ⟨hr, hk⟩
    | error e => exact herr s hs fun t ht => by simp [Accepts, hk] at ht

/-- A command that the kernel accepts. -/
theorem triple_ioctl_accepted {nr : UInt8} {E : String → Devices → Prop}
    (h : Accepts sys nr ioc devs after) :
    Triple (· = devs) (ioctl sys nr ioc) (fun _ t => t = after) E := by
  refine (triple_ioctl (E := fun _ => False) ?_ ?_).mono (fun _ hs => hs) (fun _ _ ht => ht)
    fun _ _ hf => hf.elim
  · rintro _ t rfl ht
    exact Except.ok.inj (ht.2.symm.trans h.2)
  · rintro _ rfl hn
    exact hn after h

/-- The part of the set-up that follows the creation fails, and undoes nothing. -/
theorem triple_activate {cfg : VerityConfig} {Q : String → Devices → Prop}
    (hload : ∀ ioc s t, P s → Accepts sys dmTableLoadCmd ioc s t → P t) :
    Triple P
      (do
        let dataSectors ← answer (sys.sectors cfg.dataDevice)
        dmTableLoadVerity sys cfg dataSectors
        dmDevResume sys cfg.dmName
        return "/dev/mapper/" ++ cfg.dmName)
      Q fun _ => P := by
  refine triple_bind (triple_answer (Q := fun _ => P) (fun _ _ hs _ => hs) fun _ _ hs _ => hs)
    fun sectors => ?_
  refine triple_bind (Q := fun _ => P) ?_ fun _ => ?_
  · exact triple_mapErr (triple_ioctl (hload _) fun _ hs _ => hs) fun _ _ hs => hs
  · refine triple_bind (Q := fun _ _ => False) ?_ fun _ _ hf => hf.elim
    exact triple_mapErr (triple_ioctl (fun s t _ ht => not_accepts_suspend rfl ht)
      fun _ hs _ => hs) fun _ _ hs => hs

/-! What is expected of the two functions. The name of a device is the one that reaches the
kernel. -/

section Laws
variable (sys) (devs) (cfg : VerityConfig) (name : String)

/-- After a success the verity table is live and the device works; a failure leaves no device that
was not there before. -/
def SetupLaw : Prop :=
  Post
    (fun _ after => ∃ sectors d, sys.sectors cfg.dataDevice = .ok sectors ∧
      after (newDmIoctl cfg.dmName).name = some d ∧
      d.live = some [verityTarget cfg sectors] ∧ d.suspended = false)
    (fun _ after => devs (newDmIoctl cfg.dmName).name = none →
      after (newDmIoctl cfg.dmName).name = none)
    (outcome (setupVerity sys cfg) devs)

/-- After a success the device is gone. -/
def RemoveLaw : Prop :=
  Post (fun _ after => after (newDmIoctl name).name = none) (fun _ _ => True)
    (outcome (removeVerity sys name) devs)

/-- Nothing stands in the way of the new device. -/
def Creates : Prop :=
  sys.createDirAll = .ok () ∧ sys.openControl = .ok () ∧ sys.refusal dmVersionCmd = none ∧
    sys.refusal dmDevCreateCmd = none ∧
    ((newDmIoctl cfg.dmName).name ≠ [] ∧ validName (newDmIoctl cfg.dmName).name) ∧
    devs (newDmIoctl cfg.dmName).name = none

/-- There is a device of the name, and nothing stands in the way of its resumption. -/
def Resumes : Prop :=
  sys.openControl = .ok () ∧ sys.refusal dmDevRemoveCmd = none ∧
    ∃ d, find devs (newDmIoctl name).name = .ok d ∧ d.Resumable

end Laws

variable {cfg : VerityConfig} {name : String}

theorem triple_setupVerity (h : Creates sys devs cfg) :
    Triple (· = devs) (setupVerity sys cfg) (fun _ _ => False)
      fun _ t => (t (newDmIoctl cfg.dmName).name).isSome := by
  obtain ⟨hdir, hopen, hversion, hcreate, hname, hnone⟩ := h
  unfold setupVerity
  refine triple_bind (triple_mapErr_never (triple_answer_ok hdir)) fun _ => ?_
  refine triple_bind (triple_mapErr_never (triple_answer_ok hopen)) fun _ => ?_
  refine triple_bind (triple_mapErr_never (triple_ioctl_accepted ⟨hversion, rfl⟩)) fun _ => ?_
  refine triple_bind (Q := fun _ t => (t (newDmIoctl cfg.dmName).name).isSome) ?_ fun _ =>
    triple_activate fun _ _ _ hs ht => accepts_load ht hs
  have hacc : Accepts sys dmDevCreateCmd (newDmIoctl cfg.dmName) devs
      (put devs (newDmIoctl cfg.dmName).name {}) :=
    ⟨hcreate, devCreate_eq_ok.mpr ⟨hname, hnone, rfl⟩⟩
  refine triple_mapErr_never ((triple_ioctl_accepted hacc).mono (fun _ hs => hs) (fun _ t ht => ?_)
    fun _ _ hf => hf)
  rw [ht]
  exact isSome_put_self

/-- Whatever fails before the creation leaves the devices as they were. -/
theorem triple_setupVerity_or : Triple (· = devs) (setupVerity sys cfg) (fun _ _ => False)
    fun _ t => t = devs ∨ Creates sys devs cfg := by
  unfold setupVerity
  refine triple_bind (Q := fun _ t => t = devs ∧ sys.createDirAll = .ok ()) (triple_mapErr
    (triple_answer (fun _ _ hs hr => ⟨hs, hr⟩) fun _ _ hs _ => .inl hs) fun _ _ hs => hs)
    fun _ => ?_
  refine triple_bind
    (Q := fun _ t => t = devs ∧ sys.createDirAll = .ok () ∧ sys.openControl = .ok ())
    (triple_mapErr (triple_answer (fun _ _ hs hr => ⟨hs.1, hs.2, hr⟩) fun _ _ hs _ => .inl hs.1)
      fun _ _ hs => hs) fun _ => ?_
  refine triple_bind
    (Q := fun _ t => t = devs ∧ sys.createDirAll = .ok () ∧ sys.openControl = .ok () ∧
      sys.refusal dmVersionCmd = none) (triple_mapErr (triple_ioctl ?_ fun _ hs _ => .inl hs.1)
      fun _ _ hs => hs) fun _ => ?_
  · rintro s t ⟨hs, hdir, hopen⟩ ht
    exact ⟨(accepts_version ht).trans hs, hdir, hopen, ht.1⟩
  refine triple_bind (Q := fun _ _ => Creates sys devs cfg)
    (triple_mapErr (triple_ioctl ?_ fun _ hs _ => .inl hs.1) fun _ _ hs => hs) fun _ => ?_
  · rintro s t ⟨rfl, hdir, hopen, hversion⟩ ht
    obtain ⟨hname, hnone, -⟩ := devCreate_eq_ok.mp ht.2
    exact ⟨hdir, hopen, hversion, ht.1, hname, hnone⟩
  exact (triple_activate (P := fun _ => Creates sys devs cfg) fun _ _ _ hs _ => hs).mono
    (fun _ hs => hs) (fun _ _ hf => hf) fun _ _ hs => .inr hs

theorem setupLaw_iff : SetupLaw sys devs cfg ↔ ¬Creates sys devs cfg := by
  unfold SetupLaw
  cases hout : outcome (setupVerity sys cfg) devs with
  | mk r after =>
    constructor
    · intro h hc
      cases r with
      | ok path => exact (triple_setupVerity hc).ok rfl hout
      | error e =>
        have hsome := (triple_setupVerity hc).error rfl hout
        rw [h hc.2.2.2.2.2] at hsome
        cases hsome
    · intro hc
      cases r with
      | ok path => exact (triple_setupVerity_or.ok rfl hout).elim
      | error e =>
        intro hnone
        rcases triple_setupVerity_or.error rfl hout with heq | hcreates
        · rwa [heq]
        · exact absurd hcreates hc

/-- The device outlives a removal that comes through. -/
theorem triple_removeVerity : Triple (· = devs) (removeVerity sys name)
    (fun _ t => Resumes sys devs name ∧ (t (newDmIoctl name).name).isSome) fun _ _ => True := by
  unfold removeVerity
  refine triple_bind (Q := fun _ t => t = devs ∧ sys.openControl = .ok ())
    (triple_mapErr (triple_answer (E := fun _ _ => True) (fun _ _ hs hr => ⟨hs, hr⟩)
      fun _ _ _ _ => trivial) fun _ _ _ => trivial) fun _ => ?_
  refine triple_mapErr (E := fun _ _ => True) (triple_ioctl ?_ fun _ _ _ => trivial)
    fun _ _ _ => trivial
  rintro s t ⟨rfl, hopen⟩ ht
  have hc : devSuspend (newDmIoctl name) s = .ok t := ht.2
  exact ⟨⟨hopen, ht.1, (devSuspend_comes_through rfl).mp ⟨t, hc⟩⟩,
    isSome_of_devSuspend rfl hc⟩

theorem triple_removeVerity_of_resumes (h : Resumes sys devs name) :
    Triple (· = devs) (removeVerity sys name) (fun _ _ => True) fun _ _ => False := by
  obtain ⟨hopen, hrefusal, hd⟩ := h
  obtain ⟨after, hc⟩ : ∃ after, devSuspend (newDmIoctl name) devs = .ok after :=
    (devSuspend_comes_through rfl).mpr hd
  unfold removeVerity
  refine triple_bind (triple_mapErr_never (triple_answer_ok hopen)) fun _ => ?_
  exact triple_mapErr_never ((triple_ioctl_accepted ⟨hrefusal, hc⟩).mono (fun _ hs => hs)
    (fun _ _ _ => trivial) fun _ _ hf => hf)

theorem removeLaw_iff : RemoveLaw sys devs name ↔ ¬Resumes sys devs name := by
  unfold RemoveLaw
  cases hout : outcome (removeVerity sys name) devs with
  | mk r after =>
    constructor
    · intro h hc
      cases r with
      | ok u =>
        have hsome := (triple_removeVerity.ok rfl hout).2
        rw [h] at hsome
        cases hsome
      | error e => exact (triple_removeVerity_of_resumes hc).error rfl hout
    · intro hc
      cases r with
      | ok u => exact absurd (triple_removeVerity.ok rfl hout).1 hc
      | error e => trivial

/-- The activation does what is expected of it just when it does not get as far as the creation, and
the removal just when it cannot do what a resumption does. -/
theorem verity_iff (sys : System) (devs : Devices) (cfg : VerityConfig) (name : String) :
    (SetupLaw sys devs cfg ↔ ¬Creates sys devs cfg) ∧
      (RemoveLaw sys devs name ↔ ¬Resumes sys devs name) :=
  ⟨setupLaw_iff, removeLaw_iff⟩

def bootConfig : VerityConfig where
  dataDevice := "/dev/sda2"
  hashDevice := "/dev/sda3"
  roothash := Vector.replicate 32 0
  hashOffset := 0
  dmName := "zainium-verity"

def idle : System := { sectors := fun _ => .ok 80 }

/-- Where nothing is refused, the set-up fails and leaves the new device, and the removal of a
device that works comes through without any effect. -/
theorem verity_left_behind :
    ¬SetupLaw idle (fun _ => none) bootConfig ∧
      ¬RemoveLaw idle (fun _ => some { live := some [verityTarget bootConfig 80] })
        "zainium-verity" := by
  have hname : (newDmIoctl "zainium-verity").name ≠ [] ∧
      validName (newDmIoctl "zainium-verity").name := by decide
  constructor
  · rw [setupLaw_iff, not_not]
    exact ⟨rfl, rfl, rfl, rfl, hname, rfl⟩
  · rw [removeLaw_iff, not_not]
    exact ⟨rfl, rfl, _, find_eq_ok.mpr ⟨hname.1, rfl⟩, .inr (.inr rfl)⟩

end Setup

end Quantra.Verity
