import Quantra.Lib.Plans
import Quantra.Ramfs.RootMount

/-! Whether the root comes to be mounted by the strategy of its class, where every call has one
answer. -/
namespace Quantra.RootMount
open Calls Calls.Prog Text

/-- The call goes well. -/
def answered (env : Call → Reply) (c : Call) : Bool :=
  match c with
  | .exists_ _ => (env c).holds
  | _ => (env c).result.isOk

/-- The specification names a file that starts as an encrypted device does. -/
def IsLuks (env : Call → Reply) (device : String) : Prop :=
  answered env (.open_ device) ∧ answered env (.readExact device 6) ∧
    (env (.readExact device 6)).data = luksMagic

/-! What is documented of the classes. -/

def typedMount (device target : String) (fstype : Option String) : Call :=
  .mount { source := device, target, fstype }

/-- The types in turn and last the one that the kernel detects. -/
def typedPlans (device target : String) (fstypes : List String) : List (List Call) :=
  fstypes.map (fun fstype => [typedMount device target (some fstype)]) ++
    [[typedMount device target none]]

def isoMount (device target : String) : Call :=
  .mount { source := device, target, fstype := some "iso9660", readOnly := true }

/-- An image on a disc: the disc is mounted, and the image on it is attached and mounted. -/
def loopPlan (env : Call → Reply) (device target loopImage : String)
    (loopFstype : Option String) : List Call :=
  [isoMount device isoMountPath, .exists_ (isoMountPath ++ loopImage),
    .setupLoopIoctl (isoMountPath ++ loopImage),
    .mount
      { source := (env (.setupLoopIoctl (isoMountPath ++ loopImage))).device, target
        fstype := some (loopMountFstype loopFstype loopImage), readOnly := true }]

def btrfsMount (device target : String) (rootFlags : Option String) : Call :=
  .mount { source := device, target, fstype := some "btrfs", data := some (rootFlags.getD "subvol=@") }

/-- The strategies for a root, in the order of preference. -/
def strategies (env : Call → Reply) (device : String) (cmdline : Cmdline) (target : String) :
    List (List Call) :=
  match deviceType device with
  | .nfs => [[typedMount device target (some "nfs")]]
  | .isoCdrom =>
    match cmdline.loopImage with
    | some loopImage => [loopPlan env device target loopImage cmdline.loopFstype]
    | none => [[isoMount device target]]
  | .ramdisk => typedPlans device target (cmdline.rootFstype.toList ++ ramdiskFallback)
  | .partition | .unknown =>
    if cmdline.rootFstype = some "btrfs" then
      [btrfsMount device target cmdline.rootFlags] :: typedPlans device target partitionFallback
    else typedPlans device target (cmdline.rootFstype.toList ++ partitionFallback)

/-- The root is mounted by the first strategy that works, and given up only after all have been
tried. -/
structure Mounted (env : Call → Reply) (device : String) (cmdline : Cmdline) (target : String) :
    Prop where
  complete : ∀ plan, (strategies env device cmdline target).find? (works (answered env)) =
      some plan →
    (mountRootImpl device cmdline target).value env = .ok () ∧
      ∃ m, plan.getLast? = some (.mount m) ∧ m.target = target ∧
        ((mountRootImpl device cmdline target).trace env).getLast? = some (.mount m)
  exhaustive : ∀ e, (mountRootImpl device cmdline target).value env = .error e →
    ∀ plan ∈ strategies env device cmdline target,
      Tried (answered env) ((mountRootImpl device cmdline target).trace env) plan

/-- Nothing ends the mount before its strategies: the calls that come before them go well, and a btrfs
root is not in need of another type. -/
structure Unhindered (env : Call → Reply) (device : String) (cmdline : Cmdline) (target : String) :
    Prop where
  created : answered env (.createDirAll target)
  opened : answered env (.open_ device)
  read : answered env (.readExact device 6)
  disc : deviceType device = .isoCdrom → cmdline.loopImage.isSome →
    answered env (.createDirAll isoMountPath)
  btrfs : deviceType device = .partition ∨ deviceType device = .unknown →
    cmdline.rootFstype = some "btrfs" → answered env (btrfsMount device target cmdline.rootFlags)

section Calls
variable {env : Call → Reply} {α : Type}

@[simp] theorem value_ask (c : Call) (part : Reply → α) :
    (ask c part).value env = part (env c) := rfl

@[simp] theorem trace_ask (c : Call) (part : Reply → α) : (ask c part).trace env = [c] := rfl

@[simp] theorem trace_attempt (c : Call) (err : String → String) :
    (attempt c err).trace env = [c] := rfl

@[simp] theorem trace_fetch (c : Call) (part : Reply → α) (err : String → String) :
    (fetch c part err).trace env = [c] := rfl

theorem attempt_isOk (c : Call) (err : String → String) :
    ((attempt c err).value env).isOk = (env c).result.isOk := by
  show ((env c).result.mapError err).isOk = _
  cases (env c).result <;> rfl

theorem value_of_isOk {x : Except String Unit} (h : x.isOk = true) : x = .ok () := by
  cases x with
  | ok u => rfl
  | error e => cases h

theorem value_of_not_isOk {β : Type} {x : Except String β} (h : x.isOk = false) :
    ∃ e, x = .error e := by
  cases x with
  | ok b => cases h
  | error e => exact ⟨e, rfl⟩

theorem attempt_ok {c : Call} (err : String → String) (h : (env c).result.isOk = true) :
    (attempt c err).value env = .ok () :=
  value_of_isOk ((attempt_isOk c err).trans h)

theorem attempt_error {c : Call} (err : String → String) (h : (env c).result.isOk = false) :
    ∃ e, (attempt c err).value env = .error e :=
  value_of_not_isOk ((attempt_isOk c err).trans h)

theorem fetch_ok {c : Call} (part : Reply → α) (err : String → String)
    (h : (env c).result.isOk = true) : (fetch c part err).value env = .ok (part (env c)) := by
  show ((env c).result.mapError err).map _ = _
  rw [value_of_isOk h]
  rfl

theorem fetch_error {c : Call} (part : Reply → α) (err : String → String)
    (h : (env c).result.isOk = false) : ∃ e, (fetch c part err).value env = .error e := by
  obtain ⟨e, he⟩ := value_of_not_isOk h
  refine ⟨err e, ?_⟩
  show ((env c).result.mapError err).map _ = _
  rw [he]
  rfl

end Calls

section Strategies
variable {env : Call → Reply} {device target : String} {cmdline : Cmdline}

/-- What a program makes of the strategies. -/
def ServedBy (env : Call → Reply) (plans : List (List Call)) (p : Init (Except String Unit)) : Prop :=
  Serves (answered env) plans (p.value env).isOk (p.trace env)

theorem servedBy_mount (m : Mount) (err : String → String) :
    ServedBy env [[.mount m]] (attempt (.mount m) err) := by
  unfold ServedBy
  rw [attempt_isOk, trace_attempt]
  exact serves_call (Call.mount m)

theorem value_tryMounts_cons (fstype : String) (rest : List String) :
    (tryMounts device target (fstype :: rest)).value env =
      if answered env (typedMount device target (some fstype)) then true
      else (tryMounts device target rest).value env := by
  rw [tryMounts, value_bind, value_ask]
  show (if answered env (typedMount device target (some fstype)) = true then ret true
    else tryMounts device target rest).value env = _
  split <;> rfl

theorem trace_tryMounts_cons (fstype : String) (rest : List String) :
    (tryMounts device target (fstype :: rest)).trace env =
      typedMount device target (some fstype) ::
        if answered env (typedMount device target (some fstype)) then []
        else (tryMounts device target rest).trace env := by
  rw [tryMounts, trace_bind, value_ask, trace_ask]
  show [typedMount device target (some fstype)] ++
    (if answered env (typedMount device target (some fstype)) = true then ret true
      else tryMounts device target rest).trace env = _
  split <;> rfl

theorem serves_tryMounts (device target : String) (fstypes : List String) :
    Serves (answered env) (typedPlans device target fstypes)
      ((tryMounts device target fstypes).value env)
      ((tryMounts device target fstypes).trace env) := by
  induction fstypes with
  | nil => exact serves_call (typedMount device target none)
  | cons fstype rest ih =>
    rw [value_tryMounts_cons, trace_tryMounts_cons]
    cases hmount : answered env (typedMount device target (some fstype)) with
    | true => exact serves_cons_of_ok (typedPlans device target rest) hmount
    | false => exact serves_cons_of_fail hmount ih

/-- To try a type once only makes no difference. -/
theorem serves_candidates (env : Call → Reply) (device target : String) (explicit : Option String)
    (fallback : List String) :
    Serves (answered env) (typedPlans device target (explicit.toList ++ fallback))
      ((tryMountRootCandidates device explicit target fallback).value env)
      ((tryMountRootCandidates device explicit target fallback).trace env) := by
  refine (serves_tryMounts device target (candidates explicit fallback)).congr ?_ ?_
  · unfold typedPlans candidates
    rw [List.find?_append, List.find?_append, List.find?_map, List.find?_map, find?_firsts]
  · intro plan hplan
    unfold typedPlans candidates at *
    rw [List.mem_append, List.mem_map] at hplan ⊢
    obtain ⟨fstype, hmem, hplan⟩ | hlast := hplan
    · exact .inl ⟨fstype, (mem_firsts _ _ fstype).2 hmem, hplan⟩
    · exact .inr hlast

theorem servedBy_candidates (explicit : Option String) (fallback : List String) (e : String) :
    ServedBy env (typedPlans device target (explicit.toList ++ fallback))
      ((tryMountRootCandidates device explicit target fallback).bind fun ok =>
        if ok then done else ret (.error e)) := by
  have hserves := serves_candidates env device target explicit fallback
  unfold ServedBy
  rw [value_bind, trace_bind]
  cases hvalue : (tryMountRootCandidates device explicit target fallback).value env with
  | true =>
    rw [hvalue] at hserves
    rw [if_pos rfl, done, trace_ret, List.append_nil]
    exact hserves
  | false =>
    rw [hvalue] at hserves
    rw [if_neg Bool.false_ne_true, trace_ret, List.append_nil]
    exact hserves

/-- The calls before the image itself is mounted: one of them fails and ends the setup, or all of them
go well. -/
theorem setupLoopDevice_cases (device image : String)
    (hdir : answered env (.createDirAll isoMountPath)) :
    ((∃ e, (setupLoopDevice device isoMountPath image).value env = .error e) ∧
      ∃ before c rest,
        [isoMount device isoMountPath, .exists_ (isoMountPath ++ image),
          .setupLoopIoctl (isoMountPath ++ image)] = before ++ c :: rest ∧
        answered env c = false ∧
        before ++ [c] ⊆ (setupLoopDevice device isoMountPath image).trace env) ∨
    ((setupLoopDevice device isoMountPath image).value env =
        .ok (env (.setupLoopIoctl (isoMountPath ++ image))).device ∧
      (setupLoopDevice device isoMountPath image).trace env =
        [.createDirAll isoMountPath, isoMount device isoMountPath, .exists_ (isoMountPath ++ image),
          .setupLoopIoctl (isoMountPath ++ image)]) := by
  unfold setupLoopDevice
  rw [value_check_ok (attempt_ok _ hdir), trace_check_ok (attempt_ok _ hdir), trace_attempt]
  cases hiso : answered env (isoMount device isoMountPath) with
  | false =>
    obtain ⟨e, he⟩ := attempt_error (fun e => "mount ISO failed: " ++ e) hiso
    unfold isoMount at he
    rw [value_check_error he, trace_check_error he, trace_attempt]
    exact .inl ⟨⟨e, rfl⟩, [], _, _, rfl, hiso, by simp [isoMount]⟩
  | true =>
    have hok := attempt_ok (fun e => "mount ISO failed: " ++ e) hiso
    unfold isoMount at hok
    rw [value_check_ok hok, trace_check_ok hok, trace_attempt, value_bind, trace_bind, value_ask,
      trace_ask]
    cases hfound : answered env (.exists_ (isoMountPath ++ image)) with
    | false =>
      have hmissing : (env (.exists_ (isoMountPath ++ image))).holds = false := hfound
      rw [hmissing, if_neg Bool.false_ne_true]
      exact .inl ⟨⟨_, rfl⟩, [_], _, _, rfl, hfound, by simp [isoMount]⟩
    | true =>
      have hthere : (env (.exists_ (isoMountPath ++ image))).holds = true := hfound
      rw [hthere, if_pos rfl]
      cases hsetup : answered env (.setupLoopIoctl (isoMountPath ++ image)) with
      | false =>
        obtain ⟨e, he⟩ := fetch_error Reply.device
          (fun e => "loop device setup failed: " ++ e) hsetup
        rw [value_check_error he, trace_check_error he, trace_fetch]
        exact .inl ⟨⟨e, rfl⟩, [_, _], _, _, rfl, hsetup, by simp [isoMount]⟩
      | true =>
        have hdevice := fetch_ok Reply.device (fun e => "loop device setup failed: " ++ e) hsetup
        rw [value_check_ok hdevice, trace_check_ok hdevice, trace_fetch]
        exact .inr ⟨rfl, rfl⟩

/-- The mount of an image: what is not part of the plan is the directory for the disc, and the disc is
taken out again where the image is not to be had. -/
theorem servedBy_loop {loopImage : String} (himage : cmdline.loopImage = some loopImage)
    (hdir : answered env (.createDirAll isoMountPath)) :
    ServedBy env [loopPlan env device target loopImage cmdline.loopFstype]
      (mountIso device cmdline target) := by
  unfold ServedBy mountIso
  rw [himage]
  obtain ⟨⟨e, herror⟩, before, c, rest, hsplit, hfail, hlog⟩ | ⟨hvalue, htrace⟩ :=
    setupLoopDevice_cases device loopImage hdir
  · have hplan : loopPlan env device target loopImage cmdline.loopFstype =
        [isoMount device isoMountPath, .exists_ (isoMountPath ++ loopImage),
          .setupLoopIoctl (isoMountPath ++ loopImage)] ++ [_] := rfl
    dsimp only
    rw [value_check_error herror, trace_check_error herror, trace_ret, List.append_nil, value_ret,
      hplan, hsplit, List.append_assoc, List.cons_append]
    exact serves_of_cut before hlog hfail
  · dsimp only
    rw [value_check_ok hvalue, trace_check_ok hvalue, htrace, attempt_isOk, trace_attempt]
    refine serves_of_end [_, _, _] ?_ rfl
    simp [isoMount]

/-- A btrfs root is tried once and for one type only. -/
theorem servedBy_btrfs {plans : List (List Call)}
    (h : answered env (btrfsMount device target cmdline.rootFlags)) :
    ServedBy env ([btrfsMount device target cmdline.rootFlags] :: plans)
      (mountBtrfsSubvol device target cmdline.rootFlags) := by
  have hvalue : ((mountBtrfsSubvol device target cmdline.rootFlags).value env).isOk = true :=
    (attempt_isOk _ _).trans h
  unfold ServedBy
  rw [hvalue]
  exact serves_cons_of_ok plans h

theorem servedBy_mountActual
    (hdisc : deviceType device = .isoCdrom → cmdline.loopImage.isSome →
      answered env (.createDirAll isoMountPath))
    (hbtrfs : deviceType device = .partition ∨ deviceType device = .unknown →
      cmdline.rootFstype = some "btrfs" → answered env (btrfsMount device target cmdline.rootFlags)) :
    ServedBy env (strategies env device cmdline target)
      (mountActual device device cmdline target) := by
  unfold strategies mountActual
  cases hclass : deviceType device with
  | nfs => exact servedBy_mount _ _
  | isoCdrom =>
    cases himage : cmdline.loopImage with
    | none =>
      dsimp only
      unfold mountIso
      rw [himage]
      exact servedBy_mount _ _
    | some loopImage => exact servedBy_loop himage (hdisc hclass (by rw [himage]; rfl))
  | ramdisk => exact servedBy_candidates _ _ _
  | partition | unknown =>
    by_cases hexplicit : cmdline.rootFstype = some "btrfs"
    · dsimp only
      rw [if_pos hexplicit, if_pos hexplicit]
      exact servedBy_btrfs (hbtrfs (by simp [hclass]) hexplicit)
    · dsimp only
      rw [if_neg hexplicit, if_neg hexplicit]
      exact servedBy_candidates _ _ _

/-- The program fails without a call by which one of the plans starts. -/
def Skips (env : Call → Reply) (plans : List (List Call)) (p : Init (Except String Unit)) : Prop :=
  (p.value env).isOk = false ∧ ∃ m rest, .mount m :: rest ∈ plans ∧ .mount m ∉ p.trace env

theorem not_servedBy_of_skips {plans : List (List Call)} {p : Init (Except String Unit)}
    (h : Skips env plans p) : ¬ServedBy env plans p := by
  obtain ⟨hfail, m, rest, hplan, hlog⟩ := h
  unfold ServedBy
  rw [hfail]
  exact not_serves hplan hlog

theorem skips_iso {loopImage : String} (himage : cmdline.loopImage = some loopImage)
    (hdir : answered env (.createDirAll isoMountPath) = false) :
    Skips env [loopPlan env device target loopImage cmdline.loopFstype]
      (mountIso device cmdline target) := by
  obtain ⟨e, he⟩ := attempt_error (fun _ => "create ISO mount dir failed") hdir
  unfold Skips mountIso
  rw [himage]
  have hvalue : (setupLoopDevice device isoMountPath loopImage).value env = .error e := by
    unfold setupLoopDevice
    rw [value_check_error he, value_ret]
  have htrace : (setupLoopDevice device isoMountPath loopImage).trace env =
      [.createDirAll isoMountPath] := by
    unfold setupLoopDevice
    rw [trace_check_error he, trace_attempt, trace_ret, List.append_nil]
  dsimp only
  rw [value_check_error hvalue, trace_check_error hvalue, htrace]
  exact ⟨rfl, _, _, List.mem_singleton_self _, by simp⟩

theorem skips_btrfs (h : answered env (btrfsMount device target cmdline.rootFlags) = false) :
    Skips env
      ([btrfsMount device target cmdline.rootFlags] :: typedPlans device target partitionFallback)
      (mountBtrfsSubvol device target cmdline.rootFlags) := by
  unfold Skips mountBtrfsSubvol
  dsimp only
  rw [attempt_isOk, trace_attempt]
  refine ⟨h, { source := device, target, fstype := some "ext4" }, [], ?_, by simp⟩
  simp [typedPlans, typedMount, partitionFallback]

theorem skips_mountActual (hclear : ¬((deviceType device = .isoCdrom → cmdline.loopImage.isSome →
      answered env (.createDirAll isoMountPath)) ∧
    (deviceType device = .partition ∨ deviceType device = .unknown →
      cmdline.rootFstype = some "btrfs" →
        answered env (btrfsMount device target cmdline.rootFlags)))) :
    Skips env (strategies env device cmdline target)
      (mountActual device device cmdline target) := by
  unfold strategies mountActual
  cases hclass : deviceType device with
  | nfs => exact absurd ⟨by simp [hclass], by simp [hclass]⟩ hclear
  | ramdisk => exact absurd ⟨by simp [hclass], by simp [hclass]⟩ hclear
  | isoCdrom =>
    simp only [hclass, reduceCtorEq, or_self, false_implies, and_true, true_implies] at hclear
    obtain ⟨himage, hdir⟩ := Classical.not_imp.1 hclear
    obtain ⟨loopImage, himage⟩ := Option.isSome_iff_exists.1 himage
    dsimp only
    rw [himage]
    exact skips_iso himage (Bool.eq_false_iff.2 hdir)
  | partition | unknown =>
    simp only [hclass, reduceCtorEq, or_true, true_or, false_implies, true_and, true_implies]
      at hclear
    obtain ⟨hexplicit, hmount⟩ := Classical.not_imp.1 hclear
    dsimp only
    rw [if_pos hexplicit, if_pos hexplicit]
    exact skips_btrfs (Bool.eq_false_iff.2 hmount)

/-! Before the strategies: the directory and the look at the device. -/

theorem value_isLuksDevice (hopen : answered env (.open_ device))
    (hread : answered env (.readExact device 6)) :
    (isLuksDevice device).value env = .ok ((env (.readExact device 6)).data == luksMagic) := by
  unfold isLuksDevice
  rw [value_check_ok (attempt_ok _ hopen), fetch_ok _ _ hread]

theorem trace_isLuksDevice (hopen : answered env (.open_ device)) :
    (isLuksDevice device).trace env = [.open_ device, .readExact device 6] := by
  unfold isLuksDevice
  rw [trace_check_ok (attempt_ok _ hopen), trace_attempt, trace_fetch]
  rfl

/-- A device that can be read and is not encrypted is mounted as it is. -/
theorem mountRootImpl_plain (cmdline : Cmdline) (hcreate : answered env (.createDirAll target))
    (hopen : answered env (.open_ device)) (hread : answered env (.readExact device 6))
    (hplain : ¬IsLuks env device) :
    (mountRootImpl device cmdline target).value env =
        (mountActual device device cmdline target).value env ∧
      (mountRootImpl device cmdline target).trace env =
        [Call.createDirAll target, .open_ device, .readExact device 6] ++
          (mountActual device device cmdline target).trace env := by
  have hmagic : ((env (.readExact device 6)).data == luksMagic) = false :=
    beq_eq_false_iff_ne.2 fun hdata => hplain ⟨hopen, hread, hdata⟩
  have hluks := value_isLuksDevice hopen hread
  rw [hmagic] at hluks
  have hvalue : (actualDevice device cmdline).value env = .ok device := by
    unfold actualDevice
    rw [value_check_ok hluks, if_neg Bool.false_ne_true, value_ret]
  have htrace : (actualDevice device cmdline).trace env = [.open_ device, .readExact device 6] := by
    unfold actualDevice
    rw [trace_check_ok hluks, trace_isLuksDevice hopen, if_neg Bool.false_ne_true, trace_ret,
      List.append_nil]
  unfold mountRootImpl
  rw [value_check_ok (attempt_ok _ hcreate), trace_check_ok (attempt_ok _ hcreate),
    value_check_ok hvalue, trace_check_ok hvalue, htrace, trace_attempt]
  exact ⟨rfl, rfl⟩

/-- Where the directory or the device is not to be had, nothing is mounted. -/
theorem mountRootImpl_blocked (cmdline : Cmdline) (h : ¬(answered env (.createDirAll target) ∧
    answered env (.open_ device) ∧ answered env (.readExact device 6))) :
    ((mountRootImpl device cmdline target).value env).isOk = false ∧
      ∀ m, .mount m ∉ (mountRootImpl device cmdline target).trace env := by
  unfold mountRootImpl
  cases hcreate : answered env (.createDirAll target) with
  | false =>
    obtain ⟨e, he⟩ := attempt_error (fun e => "create '" ++ target ++ "' failed: " ++ e) hcreate
    rw [value_check_error he, trace_check_error he, trace_attempt]
    exact ⟨rfl, by simp⟩
  | true =>
    rw [value_check_ok (attempt_ok _ hcreate), trace_check_ok (attempt_ok _ hcreate), trace_attempt]
    have hluks : ∃ e, (isLuksDevice device).value env = .error e ∧
        ∀ m, .mount m ∉ (isLuksDevice device).trace env := by
      unfold isLuksDevice
      cases hopen : answered env (.open_ device) with
      | false =>
        obtain ⟨e, he⟩ :=
          attempt_error (fun e => "Cannot open device " ++ device ++ ": " ++ e) hopen
        rw [value_check_error he, trace_check_error he, trace_attempt]
        exact ⟨e, rfl, by simp⟩
      | true =>
        have hread : answered env (.readExact device 6) = false :=
          Bool.eq_false_iff.2 fun hread => h ⟨hcreate, hopen, hread⟩
        obtain ⟨e, he⟩ := fetch_error (fun r => r.data == luksMagic)
          (fun e => "Cannot read device " ++ device ++ ": " ++ e) hread
        rw [value_check_ok (attempt_ok _ hopen), trace_check_ok (attempt_ok _ hopen), he,
          trace_attempt, trace_fetch]
        exact ⟨e, rfl, by simp⟩
    obtain ⟨e, hvalue, htrace⟩ := hluks
    have hactual : (actualDevice device cmdline).value env = .error e := by
      unfold actualDevice
      rw [value_check_error hvalue, value_ret]
    rw [value_check_error hactual, trace_check_error hactual]
    unfold actualDevice
    rw [trace_check_error hvalue]
    exact ⟨rfl, by simpa using htrace⟩

/-! The strategies as such. -/

theorem typedPlans_target {fstypes : List String} {plan : List Call}
    (h : plan ∈ typedPlans device target fstypes) :
    ∃ m, plan.getLast? = some (.mount m) ∧ m.target = target := by
  unfold typedPlans at h
  rw [List.mem_append, List.mem_map, List.mem_singleton] at h
  obtain ⟨fstype, -, rfl⟩ | rfl := h
  · exact ⟨_, rfl, rfl⟩
  · exact ⟨_, rfl, rfl⟩

/-- Every strategy ends with a mount at the target. -/
theorem strategies_target {plan : List Call} (h : plan ∈ strategies env device cmdline target) :
    ∃ m, plan.getLast? = some (.mount m) ∧ m.target = target := by
  unfold strategies at h
  split at h
  · obtain rfl := List.mem_singleton.1 h
    exact ⟨_, rfl, rfl⟩
  · split at h
    all_goals
      obtain rfl := List.mem_singleton.1 h
      exact ⟨_, rfl, rfl⟩
  · exact typedPlans_target h
  all_goals
    split at h
    · rcases List.mem_cons.1 h with rfl | h
      · exact ⟨_, rfl, rfl⟩
      · exact typedPlans_target h
    · exact typedPlans_target h

/-- There is a strategy, and it starts with a mount. -/
theorem exists_strategy (env : Call → Reply) (device : String) (cmdline : Cmdline)
    (target : String) : ∃ m rest, .mount m :: rest ∈ strategies env device cmdline target := by
  have htyped : ∀ fstypes, ∃ m rest, .mount m :: rest ∈ typedPlans device target fstypes :=
    fun fstypes => ⟨_, [], List.mem_append_right _ (List.mem_singleton_self _)⟩
  unfold strategies
  split
  · exact ⟨_, _, List.mem_singleton_self _⟩
  · split
    · exact ⟨_, _, List.mem_singleton_self _⟩
    · exact ⟨_, _, List.mem_singleton_self _⟩
  · exact htyped _
  all_goals
    split
    · exact ⟨_, _, List.mem_cons_self⟩
    · exact htyped _

theorem mounted_iff_servedBy : Mounted env device cmdline target ↔
    ServedBy env (strategies env device cmdline target) (mountRootImpl device cmdline target) := by
  constructor
  · rintro ⟨hcomplete, hexhaustive⟩
    constructor
    · intro plan hplan
      obtain ⟨hok, m, hlast, -, htrace⟩ := hcomplete plan hplan
      exact ⟨by rw [hok]; rfl, _, hlast, htrace⟩
    · intro hfail
      obtain ⟨e, he⟩ := value_of_not_isOk hfail
      exact hexhaustive e he
  · rintro ⟨hcomplete, hexhaustive⟩
    constructor
    · intro plan hplan
      obtain ⟨hok, c, hlast, htrace⟩ := hcomplete plan hplan
      obtain ⟨m, hmount, htarget⟩ := strategies_target (List.mem_of_find?_eq_some hplan)
      obtain rfl : c = .mount m := Option.some.inj (hlast.symm.trans hmount)
      exact ⟨value_of_isOk hok, m, hmount, htarget, htrace⟩
    · intro e he
      exact hexhaustive (by rw [he]; rfl)

theorem Skips.prepend {plans : List (List Call)} {p q : Init (Except String Unit)}
    (before : List Call) (hvalue : q.value env = p.value env)
    (htrace : q.trace env = before ++ p.trace env) (hbefore : ∀ m, .mount m ∉ before)
    (h : Skips env plans p) : Skips env plans q := by
  obtain ⟨hfail, m, rest, hplan, hlog⟩ := h
  unfold Skips
  rw [hvalue, htrace]
  refine ⟨hfail, m, rest, hplan, ?_⟩
  rw [List.mem_append]
  exact not_or_intro (hbefore m) hlog

end Strategies

/-- A root that is not encrypted is mounted by the strategies of its class exactly if nothing ends the
mount before. -/
theorem mounted_iff_unhindered (env : Call → Reply) (device : String) (cmdline : Cmdline)
    (target : String) (h : ¬IsLuks env device) :
    Mounted env device cmdline target ↔ Unhindered env device cmdline target := by
  rw [mounted_iff_servedBy]
  by_cases hfront : answered env (.createDirAll target) ∧ answered env (.open_ device) ∧
      answered env (.readExact device 6)
  · obtain ⟨hcreate, hopen, hread⟩ := hfront
    obtain ⟨hvalue, htrace⟩ := mountRootImpl_plain cmdline hcreate hopen hread h
    constructor
    · intro hserved
      by_contra hhindered
      refine not_servedBy_of_skips ((skips_mountActual ?_).prepend _ hvalue htrace (by simp)) hserved
      rintro ⟨hdisc, hbtrfs⟩
      exact hhindered ⟨hcreate, hopen, hread, hdisc, hbtrfs⟩
    · rintro ⟨-, -, -, hdisc, hbtrfs⟩
      unfold ServedBy
      rw [hvalue, htrace]
      exact (servedBy_mountActual hdisc hbtrfs).prepend _
  · obtain ⟨hfail, hlog⟩ := mountRootImpl_blocked cmdline hfront
    obtain ⟨m, rest, hplan⟩ := exists_strategy env device cmdline target
    have hskips : Skips env (strategies env device cmdline target)
        (mountRootImpl device cmdline target) := ⟨hfail, m, rest, hplan, hlog m⟩
    refine iff_of_false (not_servedBy_of_skips hskips) ?_
    rintro ⟨hcreate, hopen, hread, -, -⟩
    exact hfront ⟨hcreate, hopen, hread⟩

/-- A share on a server is no file, and everything else goes well. -/
def withShare (c : Call) : Reply :=
  match c with
  | .open_ _ => { result := .error "No such file or directory (os error 2)" }
  | _ => {}

/-- Everything but a mount as btrfs goes well. -/
def withExt4 (c : Call) : Reply :=
  match c with
  | .mount m => if m.fstype = some "btrfs" then { result := .error "EINVAL" } else {}
  | _ => {}

/-- Nothing is said of the type of the partition. -/
theorem mounted_partition :
    ¬IsLuks withExt4 "/dev/sda2" ∧ Mounted withExt4 "/dev/sda2" {} "/zairoot" := by
  have hplain : ¬IsLuks withExt4 "/dev/sda2" := fun h => absurd h.2.2 (by decide)
  refine ⟨hplain, (mounted_iff_unhindered withExt4 "/dev/sda2" {} "/zairoot" hplain).2 ?_⟩
  exact ⟨rfl, rfl, rfl, fun hdisc => absurd hdisc (by decide), fun _ hbtrfs => by cases hbtrfs⟩

/-- A network share is not mounted though the mount would succeed, and neither is a partition whose
type is wrongly given as btrfs. -/
theorem root_not_mounted :
    (¬IsLuks withShare "server:/export" ∧
      ¬Mounted withShare "server:/export" {} "/zairoot") ∧
    (¬IsLuks withExt4 "/dev/sda2" ∧
      ¬Mounted withExt4 "/dev/sda2" { rootFstype := some "btrfs" } "/zairoot") := by
  constructor
  · refine ⟨fun h => absurd h.1 (by decide), fun h => ?_⟩
    obtain ⟨hok, -⟩ := h.complete [typedMount "server:/export" "/zairoot" (some "nfs")] (by decide)
    exact absurd hok (by decide)
  · refine ⟨fun h => absurd h.2.2 (by decide), fun h => ?_⟩
    obtain ⟨hok, -⟩ := h.complete [typedMount "/dev/sda2" "/zairoot" (some "ext4")] (by decide)
    exact absurd hok (by decide)

end Quantra.RootMount
