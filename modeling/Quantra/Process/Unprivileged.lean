import Quantra.Process.Credentials

/-! The child behind its filter without privileges: every namespace, mount and `chroot` is refused,
and the sandbox ends at the first that it insists on. -/
namespace Quantra.Process
open Calls Calls.Prog Quantra.Sandbox Quantra.Services

/-- The answers that a child without capabilities is sure of. -/
abbrev bare : ChildCall → Option Outcome := refusedTo ∅

theorem given_unshare (flag : CloneFlag) :
    (sys (.unshare flag)).given bare = .call (.unshare flag) fun _ => .ret notPermitted := rfl

theorem given_sys_mount (m : Mount) :
    (sys (.mount m)).given bare = .call (.mount m) fun _ => .ret notPermitted := rfl

theorem given_sys_chroot (path : String) :
    (sys (.chroot path)).given bare = .call (.chroot path) fun _ => .ret notPermitted := rfl

theorem given_lib (op : LibOp) : (sys (.lib op)).given bare = sys (.lib op) := rfl

theorem given_log : log.given bare = log := rfl

theorem given_orFail (p : Child Outcome) (context : String) :
    (orFail p context).given bare = orFail (p.given bare) context := by
  unfold orFail
  rw [given_check]
  rfl

theorem given_seq (s : Setup) (ss : List Setup) :
    (seq (s :: ss)).given bare = (s.given bare).andThen ((seq ss).given bare) := given_andThen _ _

theorem given_ifExists (path : String) (yes no : Setup) :
    (ifExists path yes no).given bare = ifExists path (yes.given bare) (no.given bare) := by
  unfold ifExists
  split
  · rw [given_check]
    rfl
  · rfl

/-- A step of the sandbox that comes to an `unshare` if `u`, to no mount, and may be got through if
`r`. What cannot be got through has been stopped by an `unshare`. -/
structure Barred (s : Setup) (u r : Prop) : Prop where
  makes : ∀ {bad : ChildCall → Prop} {U M : Prop}, Judged bad U M →
    ((s.given bare).Makes bad ↔ U ∧ u)
  succeeds : (s.given bare).Succeeds ↔ r
  stops : ¬r → u

namespace Barred
variable {s : Setup} {ss : List Setup} {u r u' r' : Prop} {b : Bool}

theorem congr (h : Barred s u r) (hu : u ↔ u') (hr : r ↔ r') : Barred s u' r' :=
  ⟨fun hbad => by rw [h.makes hbad, hu], by rw [h.succeeds, hr], by rw [← hu, ← hr]; exact h.stops⟩

/-- Steps that ask for no privilege. -/
theorem of_touches (hgiven : s.given bare = s) (h : Touches s False False) : Barred s False True :=
  ⟨fun hbad => by simp [hgiven, h.makes hbad], by simp [hgiven, h.succeeds], fun hr => hr trivial⟩

theorem done : Barred .done False True := of_touches rfl .done

theorem nil : Barred (seq []) False True := done

theorem cons (hs : Barred s u r) (hss : Barred (seq ss) u' r') :
    Barred (seq (s :: ss)) (u ∨ u') (r ∧ r') := by
  have hstops := hs.stops
  have hstops' := hss.stops
  refine ⟨fun hbad => ?_, ?_, ?_⟩
  · rw [given_seq, makes_andThen, hs.makes hbad, hs.succeeds, hss.makes hbad]
    tauto
  · rw [given_seq, succeeds_andThen, hs.succeeds, hss.succeeds]
  · tauto

theorem when (hs : Barred s u r) : Barred (Prog.when b s) (b ∧ u) (b → r) := by
  cases b with
  | false => exact done.congr (by simp) (by simp)
  | true => exact hs.congr (by simp) (by simp)

/-- Whatever follows an `unshare` is not come to. -/
theorem unshare (flag : CloneFlag) (context : String) (ss : List Setup) :
    Barred (seq (orFail (sys (.unshare flag)) context :: ss)) True False := by
  have hfails : ¬(orFail ((sys (.unshare flag)).given bare) context).Succeeds := by
    simp [given_unshare, notPermitted]
  refine ⟨fun hbad => ?_, ?_, fun _ => trivial⟩
  · rw [given_seq, given_orFail, makes_andThen, makes_orFail, given_unshare, makes_call,
      hbad.unshare]
    simp [notPermitted]
  · rw [given_seq, given_orFail, succeeds_andThen]
    exact iff_of_false (fun h => hfails h.1) id

end Barred

/-! The functions of the module. -/

theorem barred_unshareNs (reason : String) (ss : List Setup) :
    Barred (seq (unshareNs reason :: ss)) True False := .unshare .newNs _ ss

theorem barred_log : Barred log False True := .of_touches given_log touches_log

theorem barred_thenLog_prctl (option arg : ℕ) :
    Barred (thenLog (sys (.prctl option arg))) False True :=
  .of_touches rfl (touches_thenLog_prctl option arg)

theorem barred_setupProtectHome (mode : ProtectHome) :
    Barred (setupProtectHome mode) (mode ≠ .no) (mode = .no) := by
  unfold setupProtectHome
  split
  · rename_i hmode
    exact Barred.done.congr (by simp [hmode]) (by simp [hmode])
  · rename_i hmode
    exact (barred_unshareNs "protect_home" _).congr (by simp [hmode]) (by simp [hmode])

theorem barred_setupProtectProc (mode : ProtectProc) :
    Barred (setupProtectProc mode) (mode ≠ .default) (mode = .default) := by
  cases mode with
  | default => exact Barred.done.congr (by simp) (by simp)
  | invisible | noaccess | ptraceable =>
    exact (barred_unshareNs "protect_proc" _).congr (by simp) (by simp)

/-- A step that enters a namespace only where a path is there. -/
theorem barred_ifExists {path reason : String} {ss : List Setup} (hpath : Text.isCString path) :
    Barred (seq [ifExists path (seq (unshareNs reason :: ss)) done, log]) True True := by
  have hinner : Barred (ifExists path (seq (unshareNs reason :: ss)) done) True True := by
    refine ⟨fun hbad => ?_, ?_, fun hr => trivial⟩
    · rw [given_ifExists, makes_ifExists hbad, (barred_unshareNs reason ss).makes hbad]
      simp [hpath]
    · rw [given_ifExists]
      exact iff_true_intro (succeeds_ifExists succeeds_done)
  exact (hinner.cons (barred_log.cons .nil)).congr (by simp) (by simp)

/-- A function over a list that enters a mount namespace unless the list is empty. -/
theorem barred_unlessNil {α : Type} (xs : List α) (reason : String) (s : Setup) :
    Barred (if xs = [] then done else seq [unshareNs reason, s]) (xs ≠ []) (xs = []) := by
  split
  · rename_i hnil
    exact Barred.done.congr (by simp [hnil]) (by simp [hnil])
  · rename_i hxs
    exact (barred_unshareNs reason [s]).congr (by simp [hxs]) (by simp [hxs])

theorem barred_setupLockPersonality : Barred setupLockPersonality False True := by
  refine .of_touches ?_ touches_setupLockPersonality
  unfold setupLockPersonality
  rw [given_check]
  rfl

theorem barred_setupRestrictAddressFamilies (families : List String) :
    Barred (setupRestrictAddressFamilies families) False True := by
  refine .of_touches ?_ (touches_setupRestrictAddressFamilies families)
  unfold setupRestrictAddressFamilies
  split
  · rfl
  · simp only [given_seq, given_each, given_when, given_log]
    rfl

/-! `apply_sandbox`. -/

/-- Options that enter a namespace whatever is there. -/
def Enters (svc : Service) : Prop :=
  svc.privateNetwork ∨ svc.privateIpc ∨ svc.protectHostname ∨ svc.privateDevices ∨
    svc.protectHome ≠ .no ∨ svc.protectProc ≠ .default ∨ svc.protectKernelTunables ∨
    svc.inaccessiblePaths ≠ [] ∨ svc.readOnlyPaths ≠ [] ∨ svc.bindPaths ≠ [] ∨
    svc.bindReadOnlyPaths ≠ []

theorem barred_namespaceSteps (svc : Service) :
    Barred (seq (namespaceSteps svc)) (StepsUnshare svc) (¬ Enters svc) := by
  have hnetwork : Barred setupPrivateNetwork True False := .unshare .newNet _ _
  have hipc : Barred setupPrivateIpc True False := .unshare .newIpc _ _
  have hhostname : Barred setupProtectHostname True False := .unshare .newUts _ _
  have hdevices : Barred setupPrivateDevices True False := barred_unshareNs _ _
  have htunables : Barred setupProtectKernelTunables True False := barred_unshareNs _ _
  have hlogs : Barred setupProtectKernelLogs True True := barred_ifExists (by decide)
  have hcgroups : Barred setupProtectControlGroups True True := barred_ifExists (by decide)
  have hinaccessible : Barred (setupInaccessiblePaths svc.inaccessiblePaths) _ _ :=
    barred_unlessNil _ _ _
  have hreadOnly : Barred (setupReadOnlyPaths svc.readOnlyPaths) _ _ := barred_unlessNil _ _ _
  have hbind : ∀ specs readOnly, Barred (setupBindPaths specs readOnly) (specs ≠ []) (specs = []) :=
    fun specs readOnly => barred_unlessNil _ _ _
  have hsteps := hnetwork.when (b := svc.privateNetwork) |>.cons <|
    hipc.when (b := svc.privateIpc) |>.cons <|
    hhostname.when (b := svc.protectHostname) |>.cons <|
    hdevices.when (b := svc.privateDevices) |>.cons <|
    (barred_setupProtectHome svc.protectHome).cons <|
    (barred_setupProtectProc svc.protectProc).cons <|
    htunables.when (b := svc.protectKernelTunables) |>.cons <|
    hlogs.when (b := svc.protectKernelLogs) |>.cons <|
    hcgroups.when (b := svc.protectControlGroups) |>.cons <|
    hinaccessible.cons <|
    hreadOnly.cons <|
    (hbind svc.bindPaths false).cons <|
    (hbind svc.bindReadOnlyPaths true).cons <|
    (barred_thenLog_prctl prSetMdwe procMdweRefuseExecGain).when
      (b := svc.memoryDenyWriteExecute) |>.cons <|
    (barred_thenLog_prctl prSetSecurebits secureAllBits).when
      (b := svc.restrictSuidSgid) |>.cons .nil
  apply hsteps.congr
  · simp only [StepsUnshare, Hides, and_true, and_false, or_false, or_assoc]
  · simp only [Enters, not_or, not_not, imp_false, implies_true, true_and, and_true, ne_eq]

section Root
variable {bad : ChildCall → Prop} {U M : Prop}

theorem fails_setupRootDirectory (path : String) :
    ¬((setupRootDirectory path).given bare).Succeeds := by
  unfold setupRootDirectory chroot
  rw [given_seq, given_orFail, succeeds_andThen, succeeds_orFail]
  split <;> simp [given_sys_chroot, notPermitted, einval]

theorem makes_bareRootDirectory (h : Judged bad U M) (path : String) :
    ¬((setupRootDirectory path).given bare).Makes bad := by
  have hfails := fails_setupRootDirectory path
  unfold setupRootDirectory chroot at *
  rw [given_seq, given_orFail] at *
  rw [makes_andThen, makes_orFail]
  rw [succeeds_andThen, succeeds_orFail] at hfails
  split <;> simp [given_sys_chroot, h.chroot, notPermitted, einval]

theorem fails_bareMountImage (imagePath loopDev : String) (fstypes : List String) :
    ¬((mountImage imagePath loopDev fstypes).given bare).Succeeds := by
  induction fstypes with
  | nil => simp [mountImage, Succeeds]
  | cons fstype rest ih =>
    rw [mountImage, given_check, given_sys_mount]
    unfold Succeeds at *
    simpa [notPermitted] using ih

theorem makes_bareMountImage (h : Judged bad U M) {imagePath loopDev fstype : String}
    {rest : List String} :
    ((mountImage imagePath loopDev (fstype :: rest)).given bare).Makes bad ↔ M := by
  have hrest : ∀ fstypes, ((mountImage imagePath loopDev fstypes).given bare).Makes bad → M := by
    intro fstypes
    induction fstypes with
    | nil => simp [mountImage]
    | cons fstype rest ih =>
      rw [mountImage, given_check, given_sys_mount]
      simp only [makes_check, makes_call, h.mount, makes_ret, exists_false, or_false, returns_call,
        returns_ret, exists_const, notPermitted, reduceCtorEq, false_and, false_or]
      rintro (hM | ⟨e, -, hmakes⟩)
      · exact hM
      · exact ih hmakes
  refine ⟨hrest _, fun hM => ?_⟩
  rw [mountImage, given_check, given_sys_mount]
  simp [h.mount, hM]

theorem given_closeThen (fd : ℕ) (next : Outcome → Setup) :
    (closeThen fd next).given bare = closeThen fd fun o => (next o).given bare := given_bind

theorem makes_bareAttachImage (h : Judged bad U M) {imagePath loopDev : String}
    {loopFd imgFd : ℕ} :
    ((attachImage imagePath loopDev loopFd imgFd).given bare).Makes bad ↔ M := by
  have hioctl : ∀ request arg,
      (sys (.ioctl loopFd request arg)).given bare = sys (.ioctl loopFd request arg) :=
    fun _ _ => rfl
  have htarget : (orFail (createDirAll rootImageTarget) ("create root image mount target '" ++
      rootImageTarget ++ "'")).given bare = orFail (createDirAll rootImageTarget)
        ("create root image mount target '" ++ rootImageTarget ++ "'") := by
    rw [given_orFail]
    rfl
  have hcString : Text.isCString rootImageTarget = true := by decide
  unfold attachImage
  rw [given_check, hioctl]
  simp [given_closeThen, htarget, makes_closeThen h, h.ioctl, makes_createDirAll h,
    makes_bareMountImage h, hcString, seq]

theorem fails_bareAttachImage {imagePath loopDev : String} {loopFd imgFd : ℕ} :
    ¬((attachImage imagePath loopDev loopFd imgFd).given bare).Succeeds := by
  unfold attachImage Succeeds
  rw [given_check]
  simp only [given_closeThen, given_seq, given_ret, returns_check, returns_closeThen, returns_ret]
  rintro (⟨_, -, _, _, hseq⟩ | ⟨_, -, _, _, hno⟩)
  · have hmount := (succeeds_andThen.1 hseq).2
    exact fails_bareMountImage _ _ _ (succeeds_andThen.1 hmount).1
  · cases hno

theorem bareRootImage (h : Judged bad U M) (imagePath : String) :
    (((setupRootImage imagePath).given bare).Makes bad ↔ Text.isCString imagePath ∧ M) ∧
      ¬((setupRootImage imagePath).given bare).Succeeds := by
  have hopen : ∀ loopDev, (((openImage imagePath loopDev).given bare).Makes bad ↔
      Text.isCString imagePath ∧ M) ∧ ¬((openImage imagePath loopDev).given bare).Returns (.ok ()) := by
    intro loopDev
    have hattach : ∀ loopFd imgFd,
        ¬((attachImage imagePath loopDev loopFd imgFd).given bare).Returns (.ok ()) :=
      fun _ _ => fails_bareAttachImage
    unfold openImage
    split
    · rename_i himage
      simp [given_lib, given_closeThen, himage, h.lib, makes_bareAttachImage h, makes_closeThen h,
        hattach]
    · rename_i himage
      simp [given_lib, himage, h.lib]
  have hioctl : ∀ fd request arg,
      (sys (.ioctl fd request arg)).given bare = sys (.ioctl fd request arg) := fun _ _ _ => rfl
  unfold Succeeds setupRootImage
  simp [given_lib, given_closeThen, hioctl, h.lib, h.ioctl, makes_closeThen h, hopen]

theorem makes_bareRoot (h : Judged bad U M) (svc : Service) :
    ((setupRoot svc).given bare).Makes bad ↔
      M ∧ ∃ image, svc.rootImage = some image ∧ Text.isCString image := by
  unfold setupRoot
  cases svc.rootImage with
  | some image =>
    dsimp only
    rw [(bareRootImage h image).1, and_comm]
    simp
  | none =>
    cases svc.rootDirectory with
    | some root => simp [makes_bareRootDirectory h]
    | none => simp

theorem succeeds_bareRoot (svc : Service) : ((setupRoot svc).given bare).Succeeds ↔
    svc.rootImage = none ∧ svc.rootDirectory = none := by
  have hjudged : Judged (fun _ => False) False False := by constructor <;> simp
  unfold setupRoot
  cases svc.rootImage with
  | some image => simpa using (bareRootImage hjudged image).2
  | none =>
    cases svc.rootDirectory with
    | some root => simpa using fails_setupRootDirectory root
    | none => simp

theorem makes_bareSandboxExtended (h : Judged bad U M) (svc : Service) :
    ((applySandboxExtended svc).given bare).Makes bad ↔ U ∧ ExtendedUnshares svc := by
  have htmpfs : Barred (setupTemporaryFilesystems svc.temporaryFilesystems) _ _ :=
    barred_unlessNil _ _ _
  have hvfs : Barred setupMountApiVfs True False := barred_unshareNs _ _
  have hproc : Barred setupProcSubsetPid True False := barred_unshareNs _ _
  have harch : Barred setupSystemCallArchitecturesNative False True := barred_log
  have hsteps : Barred (applySandboxExtended svc) _ _ := htmpfs.cons <|
    hvfs.when (b := svc.mountApiVfs) |>.cons <|
    hproc.when (b := svc.procSubsetPid) |>.cons <|
    (barred_thenLog_prctl prSetTimerslack 50000).when (b := svc.restrictRealtime) |>.cons <|
    barred_setupLockPersonality.when (b := svc.lockPersonality) |>.cons <|
    (barred_setupRestrictAddressFamilies svc.restrictAddressFamilies).cons <|
    harch.when (b := svc.systemCallArchitecturesNative) |>.cons .nil
  rw [hsteps.makes h]
  simp only [ExtendedUnshares, and_true, and_false, or_false]

/-- The `unshare` that a child without privileges may come to: one, of the steps before the root or
behind it. -/
def BareUnshares (svc : Service) : Prop :=
  StepsUnshare svc ∨ (svc.rootImage = none ∧ svc.rootDirectory = none ∧ ExtendedUnshares svc)

/-- The mounts that it may come to: those of a root image. -/
def BareMounts (svc : Service) : Prop :=
  ¬ Enters svc ∧ ∃ image, svc.rootImage = some image ∧ Text.isCString image

private theorem bareSandbox_iff {U M S E I R D X : Prop} (hstops : E → S) :
    (U ∧ S) ∨ (¬E ∧ ((M ∧ I) ∨ ((R ∧ D) ∧ U ∧ X))) ↔
      (U ∧ (S ∨ (R ∧ D ∧ X))) ∨ (M ∧ ¬E ∧ I) := by
  tauto

theorem makes_bareSandbox (h : Judged bad U M) (svc : Service) :
    ((applySandbox svc).given bare).Makes bad ↔ (U ∧ BareUnshares svc) ∨ (M ∧ BareMounts svc) := by
  have hsteps := barred_namespaceSteps svc
  unfold applySandbox BareUnshares BareMounts
  rw [given_andThen, given_andThen, makes_andThen, makes_andThen, hsteps.makes h, hsteps.succeeds,
    makes_bareRoot h, succeeds_bareRoot, makes_bareSandboxExtended h]
  exact bareSandbox_iff fun henters => hsteps.stops (not_not_intro henters)

end Root

/-! The child. -/

section Child
variable {bad : ChildCall → Prop} {U M L : Prop}

theorem given_childErr (msg : String) : (childErr msg).given bare = childErr msg := rfl

theorem given_applyLimits (limits : Option ResourceLimits) :
    (applyLimits limits).given bare = applyLimits limits := by
  have hset : ∀ resource limit, (setRlimit resource limit).given bare = setRlimit resource limit := by
    intro resource limit
    cases limit <;> rfl
  cases limits with
  | none => rfl
  | some rl =>
    simp only [applyLimits, given_seq, hset]
    rfl

theorem given_applyLandlock (paths : List String) :
    (applyLandlock paths).given bare = applyLandlock paths := by
  have hpath : ∀ rulesetFd path,
      (landlockPath rulesetFd path).given bare = landlockPath rulesetFd path := by
    intro rulesetFd path
    unfold landlockPath
    split
    · rw [given_check]
      rfl
    · rfl
  unfold applyLandlock
  rw [given_check]
  simp only [given_seq, given_each, hpath]
  rfl

theorem makes_bareIsolateMounts (h : Judged bad U M) (cfg : ServiceLaunch) :
    ((isolateMounts cfg).given bare).Makes bad ↔ U ∧ (cfg.privateTmp ∨ cfg.protectSystem) := by
  unfold isolateMounts
  rw [given_when, given_check, given_unshare]
  simp [h.unshare, given_childErr, (touches_childErr _).makes h, notPermitted, and_comm]

theorem succeeds_bareIsolateMounts (cfg : ServiceLaunch) :
    ((isolateMounts cfg).given bare).Succeeds := by
  unfold isolateMounts
  rw [given_when, given_check, given_unshare, succeeds_when]
  intro _
  exact returns_check.2 (.inr ⟨"EPERM: Operation not permitted",
    (returns_call _ _ _).2 ⟨.ok 0, (returns_ret _ _).2 rfl⟩, (touches_childErr _).succeeds⟩)

theorem given_report (e : String) :
    (seq [childErr "[zai-init] sandbox::apply_sandbox failed\n", childErr e]).given bare =
      seq [childErr "[zai-init] sandbox::apply_sandbox failed\n", childErr e] := rfl

theorem makes_bareSandboxOrReport (h : Judged bad U M) (svc : Service) :
    ((sandboxOrReport (some svc)).given bare).Makes bad ↔
      (U ∧ BareUnshares svc) ∨ (M ∧ BareMounts svc) := by
  unfold sandboxOrReport
  rw [given_check, makes_check, makes_bareSandbox h]
  simp [given_report, (touches_childErr _).makes h]

theorem succeeds_bareSandboxOrReport (svc : Service) :
    ((sandboxOrReport (some svc)).given bare).Succeeds := by
  obtain ⟨o, ho⟩ := exists_returns ((applySandbox svc).given bare)
  unfold sandboxOrReport
  rw [given_check]
  refine returns_check.2 ?_
  cases o with
  | ok _ => exact .inl ⟨(), ho, succeeds_done⟩
  | error e =>
    refine .inr ⟨e, ho, ?_⟩
    rw [given_report]
    exact succeeds_andThen.2 ⟨(touches_childErr _).succeeds,
      succeeds_andThen.2 ⟨(touches_childErr _).succeeds, succeeds_done⟩⟩

/-- Landlock apart, the child comes to an `unshare` that its launch or its sandbox asks for, and to
a mount for a root image only. -/
theorem makes_bareChildAfterFilter (h : Judged bad U M) (hlandlock : JudgedLandlock bad L)
    {cfg : ServiceLaunch} {svc : Service} (hsvc : cfg.serviceForSandbox = some svc) :
    ((childAfterFilter cfg).given bare).Makes bad ↔
      (U ∧ ((cfg.privateTmp ∨ cfg.protectSystem) ∨ BareUnshares svc)) ∨ (M ∧ BareMounts svc) ∨
      (L ∧ cfg.landlockPaths ≠ []) := by
  have hlimits := touches_applyLimits cfg.rlimit
  have hheap : (ignore (sys (.lib .heap))).given bare = ignore (sys (.lib .heap)) := rfl
  have hexecve : (ignore (sys (.execve cfg.cmd cfg.args))).given bare =
      ignore (sys (.execve cfg.cmd cfg.args)) := rfl
  have hnil : (seq []).given bare = done := rfl
  unfold childAfterFilter confineChild
  rw [given_bind, makes_bind, hsvc]
  simp only [given_seq, hnil, hheap, hexecve, given_applyLimits, given_when, given_applyLandlock,
    makes_andThen, hlimits.makes h, hlimits.succeeds, makes_bareIsolateMounts h,
    succeeds_bareIsolateMounts, makes_when, makes_applyLandlock h hlandlock, succeeds_when,
    succeeds_applyLandlock, makes_bareSandboxOrReport h, succeeds_bareSandboxOrReport, makes_ignore,
    makes_sys, h.lib, h.execve, makes_done, decide_eq_true_eq, implies_true, true_and, and_false,
    or_false, false_or, exists_false, or_self]
  tauto

end Child

end Quantra.Process
