import Quantra.Process.Sandbox
import Mathlib.Tactic.Tauto

/-! Which of the calls that a filter may refuse the sandbox can come to, for each option of a
service. -/
namespace Quantra.Sandbox
open Calls Calls.Prog Quantra.Services

/-- Calls judged by their name: `U` says whether `unshare` is bad and `M` whether `mount` is, and
none of the others is bad, Landlock apart. -/
structure Judged (bad : ChildCall → Prop) (U M : Prop) : Prop where
  unshare : ∀ flag, bad (.unshare flag) ↔ U
  mount : ∀ m, bad (.mount m) ↔ M
  lib : ∀ op, ¬bad (.lib op)
  write : ∀ text, ¬bad (.write text)
  prctl : ∀ option arg, ¬bad (.prctl option arg)
  personality : ∀ persona, ¬bad (.personality persona)
  chroot : ∀ path, ¬bad (.chroot path)
  chdir : ∀ path, ¬bad (.chdir path)
  ioctl : ∀ fd request arg, ¬bad (.ioctl fd request arg)
  close : ∀ fd, ¬bad (.close fd)
  execve : ∀ cmd args, ¬bad (.execve cmd args)

section Steps
variable {bad : ChildCall → Prop} {U M : Prop} {p : Child Outcome} {yes no : Setup}
  {path context : String}

@[simp] theorem makes_sys (c : ChildCall) : (sys c).Makes bad ↔ bad c := by
  simp [sys]

@[simp] theorem returns_sys (c : ChildCall) (o : Outcome) : (sys c).Returns o := by
  simp [sys]

@[simp] theorem makes_ignore : (ignore p).Makes bad ↔ p.Makes bad := by
  simp [ignore, makes_bind]

@[simp] theorem succeeds_ignore : (ignore p).Succeeds := by
  obtain ⟨o, ho⟩ := exists_returns p
  exact returns_bind.2 ⟨o, ho, succeeds_done⟩

@[simp] theorem makes_log : log.Makes bad ↔ bad (.lib .log) := by
  simp [log]

@[simp] theorem succeeds_log : log.Succeeds := succeeds_ignore

@[simp] theorem makes_orFail : (orFail p context).Makes bad ↔ p.Makes bad := by
  simp [orFail]

@[simp] theorem succeeds_orFail : (orFail p context).Succeeds ↔ ∃ n, p.Returns (.ok n) := by
  unfold orFail Succeeds done
  simp

theorem makes_orLog (h : Judged bad U M) : (orLog p).Makes bad ↔ p.Makes bad := by
  simp [orLog, h.lib]

@[simp] theorem succeeds_orLog : (orLog p).Succeeds := by
  obtain ⟨o, ho⟩ := exists_returns p
  refine returns_check.2 ?_
  cases o with
  | ok n => exact .inl ⟨n, ho, succeeds_done⟩
  | error e => exact .inr ⟨e, ho, succeeds_log⟩

theorem makes_thenLog (h : Judged bad U M) : (thenLog p).Makes bad ↔ p.Makes bad := by
  simp [thenLog, makes_bind, h.lib]

@[simp] theorem succeeds_thenLog : (thenLog p).Succeeds := by
  obtain ⟨o, ho⟩ := exists_returns p
  exact returns_bind.2 ⟨o, ho, succeeds_log⟩

theorem makes_mount (h : Judged bad U M) (m : Mount) :
    (mount m).Makes bad ↔ m.isCString ∧ M := by
  unfold mount
  split
  · rename_i hm
    simp [h.mount, hm]
  · rename_i hm
    simp [hm]

@[simp] theorem returns_mount (m : Mount) : (∃ n, (mount m).Returns (.ok n)) ↔ m.isCString := by
  unfold mount
  split
  · rename_i hm
    simp [hm]
  · rename_i hm
    simp [hm, einval]

theorem makes_chroot (h : Judged bad U M) : ¬(chroot path).Makes bad := by
  unfold chroot
  split
  · simp [h.chroot]
  · simp

@[simp] theorem returns_chroot : (∃ n, (chroot path).Returns (.ok n)) ↔ Text.isCString path := by
  unfold chroot
  split
  · rename_i hpath
    simp [hpath]
  · rename_i hpath
    simp [hpath, einval]

theorem makes_createDirAll (h : Judged bad U M) : ¬(createDirAll path).Makes bad := by
  unfold createDirAll
  split
  · simp [h.lib]
  · simp

@[simp] theorem returns_createDirAll :
    (∃ n, (createDirAll path).Returns (.ok n)) ↔ Text.isCString path := by
  unfold createDirAll
  split
  · rename_i hpath
    simp [hpath]
  · rename_i hpath
    simp [hpath, einval]

theorem makes_ifExists (h : Judged bad U M) :
    (ifExists path yes no).Makes bad ↔ (Text.isCString path ∧ yes.Makes bad) ∨ no.Makes bad := by
  unfold ifExists
  split
  · rename_i hpath
    simp [h.lib, hpath]
  · rename_i hpath
    simp [hpath]

/-- A file that is missing leaves the other branch. -/
theorem succeeds_ifExists (h : no.Succeeds) : (ifExists path yes no).Succeeds := by
  unfold ifExists
  split
  · exact returns_check.2 (.inr ⟨"", returns_sys _ _, h⟩)
  · exact h

theorem makes_unshareNs (h : Judged bad U M) (reason : String) :
    (unshareNs reason).Makes bad ↔ U := by
  simp [unshareNs, h.unshare]

@[simp] theorem succeeds_unshareNs (reason : String) : (unshareNs reason).Succeeds := by
  simp [unshareNs]

@[simp] theorem makes_seq_cons (s : Setup) (ss : List Setup) :
    (seq (s :: ss)).Makes bad ↔ s.Makes bad ∨ (s.Succeeds ∧ (seq ss).Makes bad) := makes_andThen

@[simp] theorem makes_seq_nil : ¬(seq []).Makes bad := makes_ret _

@[simp] theorem succeeds_seq_cons (s : Setup) (ss : List Setup) :
    (seq (s :: ss)).Succeeds ↔ s.Succeeds ∧ (seq ss).Succeeds := succeeds_andThen

@[simp] theorem succeeds_seq_nil : (seq []).Succeeds := succeeds_done

@[simp] theorem isCString_bindNull (target : String) :
    (bindNull target).isCString = Text.isCString target := by
  have hnull : Text.isCString "/dev/null" = true := by decide
  simp [bindNull, Mount.isCString, hnull]

@[simp] theorem isCString_bindMount (source target : String) :
    (bindMount source target).isCString = (Text.isCString source && Text.isCString target) := by
  simp [bindMount, Mount.isCString]

@[simp] theorem isCString_bindReadOnly (source target : String) :
    (bindReadOnly source target).isCString = (Text.isCString source && Text.isCString target) := by
  simp [bindReadOnly, Mount.isCString]

end Steps

/-- A step that can be gone through to its end, and that can come to an `unshare` if `u` and to a
`mount` if `m`. -/
structure Touches (s : Setup) (u m : Prop) : Prop where
  succeeds : s.Succeeds
  makes : ∀ {bad : ChildCall → Prop} {U M : Prop}, Judged bad U M →
    (s.Makes bad ↔ (U ∧ u) ∨ (M ∧ m))

namespace Touches
variable {s t : Setup} {ss : List Setup} {u m u' m' : Prop} {b : Bool}

theorem congr (h : Touches s u m) (hu : u ↔ u') (hm : m ↔ m') : Touches s u' m' :=
  ⟨h.succeeds, fun hbad => by rw [h.makes hbad, hu, hm]⟩

theorem done : Touches .done False False :=
  ⟨succeeds_done, fun _ => by simp⟩

theorem nil : Touches (seq []) False False := done

theorem cons (hs : Touches s u m) (hss : Touches (seq ss) u' m') :
    Touches (seq (s :: ss)) (u ∨ u') (m ∨ m') := by
  refine ⟨succeeds_andThen.2 ⟨hs.succeeds, hss.succeeds⟩, fun hbad => ?_⟩
  rw [makes_seq_cons, and_iff_right hs.succeeds, hs.makes hbad, hss.makes hbad, and_or_left,
    and_or_left]
  exact or_or_or_comm

theorem when (hs : Touches s u m) : Touches (when b s) (b ∧ u) (b ∧ m) := by
  cases b with
  | false => exact done.congr (by simp) (by simp)
  | true => exact hs.congr (by simp) (by simp)

theorem each {α : Type} {xs : List α} {step : α → Setup} {u m : α → Prop}
    (h : ∀ x ∈ xs, Touches (step x) (u x) (m x)) :
    Touches (each xs step) (∃ x ∈ xs, u x) (∃ x ∈ xs, m x) := by
  have hall : ∀ x ∈ xs, (step x).Succeeds := fun x hx => (h x hx).succeeds
  refine ⟨succeeds_each.2 hall, fun hbad => ?_⟩
  rw [makes_each hall]
  constructor
  · intro hmakes
    obtain ⟨x, hx, hbadx⟩ := hmakes
    obtain ⟨hU, hu⟩ | ⟨hM, hm⟩ := ((h x hx).makes hbad).1 hbadx
    · exact .inl ⟨hU, x, hx, hu⟩
    · exact .inr ⟨hM, x, hx, hm⟩
  · intro hsome
    obtain ⟨hU, x, hx, hu⟩ | ⟨hM, x, hx, hm⟩ := hsome
    · exact ⟨x, hx, ((h x hx).makes hbad).2 (.inl ⟨hU, hu⟩)⟩
    · exact ⟨x, hx, ((h x hx).makes hbad).2 (.inr ⟨hM, hm⟩)⟩

theorem ifExists {path : String} (hno : Touches t False False)
    (hyes : Text.isCString path → Touches s u m) :
    Touches (ifExists path s t) (Text.isCString path ∧ u) (Text.isCString path ∧ m) := by
  refine ⟨succeeds_ifExists hno.succeeds, fun hbad => ?_⟩
  rw [makes_ifExists hbad, hno.makes hbad]
  by_cases hpath : Text.isCString path
  · simp [hpath, (hyes hpath).makes hbad]
  · simp [hpath]

/-- A loop that mounts over the paths that are there. -/
theorem eachExists {paths : List String} {step : String → Setup} (hno : Touches t False False)
    (hstep : ∀ path, Text.isCString path → Touches (step path) False True) :
    Touches (Prog.each paths fun path => Sandbox.ifExists path (step path) t) False
      (∃ path ∈ paths, Text.isCString path) := by
  have hall : Touches (Prog.each paths fun path => Sandbox.ifExists path (step path) t) _ _ :=
    each fun path _ => ifExists hno (hstep path)
  exact hall.congr (by simp) (by simp)

end Touches

/-! Single calls. -/

theorem touches_lib (op : LibOp) : Touches (ignore (sys (.lib op))) False False :=
  ⟨succeeds_ignore, fun h => by simp [h.lib]⟩

theorem touches_log : Touches log False False := touches_lib .log

theorem touches_unshare (flag : CloneFlag) (context : String) :
    Touches (orFail (sys (.unshare flag)) context) True False :=
  ⟨by simp, fun h => by simp [h.unshare]⟩

theorem touches_unshareNs (reason : String) : Touches (unshareNs reason) True False :=
  touches_unshare .newNs _

theorem touches_mount {m : Mount} (hm : m.isCString) (context : String) :
    Touches (orFail (mount m) context) False True :=
  ⟨by simp [hm], fun h => by simp [makes_mount h, hm]⟩

theorem touches_ignore_mount (m : Mount) : Touches (ignore (mount m)) False m.isCString :=
  ⟨succeeds_ignore, fun h => by simp [makes_mount h, and_comm]⟩

theorem touches_orLog_mount (m : Mount) : Touches (orLog (mount m)) False m.isCString :=
  ⟨succeeds_orLog, fun h => by simp [makes_orLog h, makes_mount h, and_comm]⟩

theorem touches_thenLog_mount (m : Mount) : Touches (thenLog (mount m)) False m.isCString :=
  ⟨succeeds_thenLog, fun h => by simp [makes_thenLog h, makes_mount h, and_comm]⟩

theorem touches_thenLog_prctl (option arg : ℕ) :
    Touches (thenLog (sys (.prctl option arg))) False False :=
  ⟨succeeds_thenLog, fun h => by simp [makes_thenLog h, h.prctl]⟩

/-! The functions of the module. -/

theorem touches_setupPrivateNetwork : Touches setupPrivateNetwork True False := by
  have hsteps : Touches setupPrivateNetwork _ _ := (touches_unshare .newNet _).cons <|
    (touches_lib (.command ["ip", "link", "set", "lo", "up"])).cons <| touches_log.cons .nil
  exact hsteps.congr (by simp) (by simp)

theorem touches_setupPrivateIpc : Touches setupPrivateIpc True False := by
  have hsteps : Touches setupPrivateIpc _ _ := (touches_unshare .newIpc _).cons <| touches_log.cons .nil
  exact hsteps.congr (by simp) (by simp)

theorem touches_setupProtectHostname : Touches setupProtectHostname True False := by
  have hsteps : Touches setupProtectHostname _ _ := (touches_unshare .newUts _).cons <| touches_log.cons .nil
  exact hsteps.congr (by simp) (by simp)

theorem touches_setupPrivateDevices : Touches setupPrivateDevices True True := by
  have hdevices : Touches (each rawDevices fun dev =>
      ifExists dev (orLog (mount (bindNull dev))) done) False
      (∃ dev ∈ rawDevices, Text.isCString dev) := by
    apply Touches.eachExists .done
    intro dev hdev
    exact (touches_orLog_mount _).congr (by simp) (by simp [hdev])
  have hkmsg : Touches (ifExists "/dev/kmsg" (ignore (mount (bindNull "/dev/kmsg"))) done) _ _ :=
    .ifExists .done fun _ => touches_ignore_mount _
  have hsteps := (touches_unshareNs "private_devices").cons <| hdevices.cons <| hkmsg.cons <|
    touches_log.cons .nil
  have hsome : ∃ dev ∈ rawDevices, Text.isCString dev := by decide
  exact hsteps.congr (by simp) (by simp [hsome])

theorem touches_protectHomePath {mode : ProtectHome} (hmode : mode ≠ .no) {path : String}
    (hpath : Text.isCString path) : Touches (protectHomePath mode path) False True := by
  have htmpfs : Text.isCString "tmpfs" = true := by decide
  have hopen : Text.isCString "mode=0755" = true := by decide
  have hclosed : Text.isCString "mode=0000" = true := by decide
  cases mode with
  | no => exact absurd rfl hmode
  | readOnly =>
    have hbind : (bindMount path path).isCString := by simp [hpath]
    have hremount : (bindReadOnly path path).isCString := by simp [hpath]
    have hsteps : Touches (protectHomePath .readOnly path) _ _ := (touches_mount hbind _).cons <| (touches_mount hremount _).cons .nil
    exact hsteps.congr (by simp) (by simp)
  | tmpfs => exact touches_mount (by simp [Mount.isCString, hpath, htmpfs, hopen]) _
  | yes => exact touches_mount (by simp [Mount.isCString, hpath, htmpfs, hclosed]) _

theorem touches_setupProtectHome (mode : ProtectHome) :
    Touches (setupProtectHome mode) (mode ≠ .no) (mode ≠ .no) := by
  unfold setupProtectHome
  split
  · rename_i hmode
    exact Touches.done.congr (by simp [hmode]) (by simp [hmode])
  · rename_i hmode
    have hpaths : Touches (each homePaths fun path =>
        ifExists path (protectHomePath mode path) done) False
        (∃ path ∈ homePaths, Text.isCString path) :=
      Touches.eachExists .done fun path hpath => touches_protectHomePath hmode hpath
    have hsteps := (touches_unshareNs "protect_home").cons <| hpaths.cons <| touches_log.cons .nil
    have hsome : ∃ path ∈ homePaths, Text.isCString path := by decide
    exact hsteps.congr (by simp [hmode]) (by simp [hmode, hsome])

private theorem touches_remountProc {hidepid : String} (hhide : Text.isCString hidepid) :
    Touches (setupProtectProc.remount hidepid) True True := by
  have hproc : Text.isCString "proc" = true := by decide
  have hpath : Text.isCString "/proc" = true := by decide
  have hmount : (⟨some "proc", "/proc", some "proc", [.nosuid, .nodev, .noexec],
      some hidepid⟩ : Mount).isCString := by
    simp [Mount.isCString, hproc, hpath, hhide]
  have hsteps : Touches (setupProtectProc.remount hidepid) _ _ := (touches_unshareNs "protect_proc").cons <| (touches_mount hmount _).cons <|
    touches_log.cons .nil
  exact hsteps.congr (by simp) (by simp)

theorem touches_setupProtectProc (mode : ProtectProc) :
    Touches (setupProtectProc mode) (mode ≠ .default) (mode ≠ .default) := by
  cases mode with
  | default => exact Touches.done.congr (by simp) (by simp)
  | invisible | noaccess | ptraceable =>
    exact (touches_remountProc (by decide)).congr (by simp) (by simp)

theorem touches_readOnlyPath {path : String} (hpath : Text.isCString path) :
    Touches (readOnlyPath path) False True := by
  have hsteps := (touches_ignore_mount (bindMount path path)).cons <|
    (touches_orLog_mount (bindReadOnly path path)).cons .nil
  exact hsteps.congr (by simp) (by simp [hpath])

theorem touches_eachReadOnly (paths : List String) :
    Touches (each paths fun path => ifExists path (readOnlyPath path) done) False
      (∃ path ∈ paths, Text.isCString path) :=
  Touches.eachExists .done fun _ => touches_readOnlyPath

theorem touches_setupProtectKernelTunables : Touches setupProtectKernelTunables True True := by
  have hsteps := (touches_unshareNs "protect_kernel_tunables").cons <|
    (touches_eachReadOnly tunablePaths).cons <| touches_log.cons .nil
  have hsome : ∃ path ∈ tunablePaths, Text.isCString path := by decide
  exact hsteps.congr (by simp) (by simp [hsome])

theorem touches_setupProtectKernelLogs : Touches setupProtectKernelLogs True True := by
  have hkmsg : Text.isCString "/dev/kmsg" = true := by decide
  have hnull : (bindNull "/dev/kmsg").isCString := by simp [hkmsg]
  have hinner := (touches_unshareNs "protect_kernel_logs").cons <|
    (touches_mount hnull "bind /dev/null over /dev/kmsg").cons .nil
  have hsteps : Touches setupProtectKernelLogs _ _ :=
    (Touches.ifExists .done fun _ => hinner).cons <| touches_log.cons .nil
  exact hsteps.congr (by simp [hkmsg]) (by simp [hkmsg])

theorem touches_setupProtectControlGroups : Touches setupProtectControlGroups True True := by
  have hcgroup : Text.isCString "/sys/fs/cgroup" = true := by decide
  have hremount : (bindReadOnly "/sys/fs/cgroup" "/sys/fs/cgroup").isCString := by simp [hcgroup]
  have hinner := (touches_unshareNs "protect_control_groups").cons <|
    (touches_ignore_mount (bindMount "/sys/fs/cgroup" "/sys/fs/cgroup")).cons <|
    (touches_mount hremount "remount /sys/fs/cgroup read-only").cons .nil
  have hsteps : Touches setupProtectControlGroups _ _ :=
    (Touches.ifExists .done fun _ => hinner).cons <| touches_log.cons .nil
  exact hsteps.congr (by simp [hcgroup]) (by simp [hcgroup])

/-- A function over a list that is skipped where the list is empty, and otherwise enters a mount
namespace first. -/
theorem touches_unlessNil {α : Type} {xs : List α} {reason : String} {s : Setup} {m : Prop}
    (hs : Touches s False m) (hm : m → xs ≠ []) :
    Touches (if xs = [] then done else seq [unshareNs reason, s]) (xs ≠ []) m := by
  split
  · rename_i hnil
    exact Touches.done.congr (by simp [hnil]) (iff_of_false id fun h => hm h hnil)
  · rename_i hxs
    have hsteps := (touches_unshareNs reason).cons <| hs.cons .nil
    exact hsteps.congr (by simp [hxs]) (by simp)

private theorem ne_nil_of_exists {α : Type} {xs : List α} {q : α → Prop} (h : ∃ x ∈ xs, q x) :
    xs ≠ [] := by
  obtain ⟨x, hx, -⟩ := h
  exact List.ne_nil_of_mem hx

theorem touches_setupInaccessiblePaths (paths : List String) :
    Touches (setupInaccessiblePaths paths) (paths ≠ []) (∃ path ∈ paths, Text.isCString path) := by
  apply touches_unlessNil _ ne_nil_of_exists
  apply Touches.eachExists touches_log
  intro path hpath
  exact (touches_thenLog_mount _).congr (by simp) (by simp [hpath])

theorem touches_setupReadOnlyPaths (paths : List String) :
    Touches (setupReadOnlyPaths paths) (paths ≠ []) (∃ path ∈ paths, Text.isCString path) :=
  touches_unlessNil (touches_eachReadOnly paths) ne_nil_of_exists

/-- A pair that is bound if its source is there. -/
def isBindPair (spec : String) : Bool :=
  match Text.splitn 2 ':' spec with
  | [src, dst] => Text.isCString src && Text.isCString dst
  | _ => false

theorem succeeds_bindPath (readOnly : Bool) (spec : String) :
    (bindPath readOnly spec).Succeeds := by
  unfold bindPath
  split
  · exact succeeds_ifExists succeeds_log
  · exact succeeds_log

theorem makes_bindPath {bad : ChildCall → Prop} {U M : Prop} (h : Judged bad U M)
    (readOnly : Bool) (spec : String) :
    (bindPath readOnly spec).Makes bad ↔ isBindPair spec ∧ M := by
  unfold bindPath isBindPair
  generalize Text.splitn 2 ':' spec = parts
  match parts with
  | [] => simp [h.lib]
  | [_] => simp [h.lib]
  | [src, dst] =>
    dsimp only
    rw [makes_ifExists h]
    cases hsrc : Text.isCString src with
    | false => simp [h.lib]
    | true =>
      cases hdst : Text.isCString dst with
      | false => simp [makes_mount h, hdst, h.lib]
      | true => cases readOnly <;> simp [makes_mount h, hsrc, hdst, h.lib]
  | _ :: _ :: _ :: _ => simp [h.lib]

theorem touches_setupBindPaths (specs : List String) (readOnly : Bool) :
    Touches (setupBindPaths specs readOnly) (specs ≠ []) (∃ spec ∈ specs, isBindPair spec) := by
  apply touches_unlessNil _ ne_nil_of_exists
  have hpair : ∀ spec, Touches (bindPath readOnly spec) False (isBindPair spec) := by
    intro spec
    refine ⟨succeeds_bindPath readOnly spec, fun h => ?_⟩
    simp [makes_bindPath h, and_comm]
  have hall : Touches (each specs (bindPath readOnly)) _ _ := Touches.each fun spec _ => hpair spec
  exact hall.congr (by simp) Iff.rfl

theorem touches_setupLockPersonality : Touches setupLockPersonality False False := by
  constructor
  · exact returns_check.2 (.inr ⟨"", returns_sys _ _, succeeds_done⟩)
  · intro bad U M h
    simp [setupLockPersonality, makes_thenLog h, h.personality]

theorem touches_setupRestrictAddressFamilies (families : List String) :
    Touches (setupRestrictAddressFamilies families) False False := by
  have hlog : ∀ b : Bool, Touches (Prog.when b log) False False := by
    intro b
    exact touches_log.when.congr (by simp) (by simp)
  unfold setupRestrictAddressFamilies
  split
  · exact .done
  · have heach : Touches (each families fun family => Prog.when (afNameToNumber family).isNone log)
        False False := (Touches.each fun family _ => hlog _).congr (by simp) (by simp)
    exact (heach.cons ((hlog _).cons .nil)).congr (by simp) (by simp)

/-! What the namespace steps come to. -/

/-- Options that hide or protect a part of the system by a mount. -/
def Hides (svc : Service) : Prop :=
  svc.privateDevices ∨ svc.protectHome ≠ .no ∨ svc.protectProc ≠ .default ∨
    svc.protectKernelTunables ∨ svc.protectKernelLogs ∨ svc.protectControlGroups

def StepsUnshare (svc : Service) : Prop :=
  svc.privateNetwork ∨ svc.privateIpc ∨ svc.protectHostname ∨ Hides svc ∨
    svc.inaccessiblePaths ≠ [] ∨ svc.readOnlyPaths ≠ [] ∨ svc.bindPaths ≠ [] ∨
    svc.bindReadOnlyPaths ≠ []

def StepsMount (svc : Service) : Prop :=
  Hides svc ∨ (∃ path ∈ svc.inaccessiblePaths, Text.isCString path) ∨
    (∃ path ∈ svc.readOnlyPaths, Text.isCString path) ∨
    (∃ spec ∈ svc.bindPaths, isBindPair spec) ∨ ∃ spec ∈ svc.bindReadOnlyPaths, isBindPair spec

theorem touches_namespaceSteps (svc : Service) :
    Touches (seq (namespaceSteps svc)) (StepsUnshare svc) (StepsMount svc) := by
  have hsteps := touches_setupPrivateNetwork.when (b := svc.privateNetwork) |>.cons <|
    touches_setupPrivateIpc.when (b := svc.privateIpc) |>.cons <|
    touches_setupProtectHostname.when (b := svc.protectHostname) |>.cons <|
    touches_setupPrivateDevices.when (b := svc.privateDevices) |>.cons <|
    touches_setupProtectHome svc.protectHome |>.cons <|
    touches_setupProtectProc svc.protectProc |>.cons <|
    touches_setupProtectKernelTunables.when (b := svc.protectKernelTunables) |>.cons <|
    touches_setupProtectKernelLogs.when (b := svc.protectKernelLogs) |>.cons <|
    touches_setupProtectControlGroups.when (b := svc.protectControlGroups) |>.cons <|
    touches_setupInaccessiblePaths svc.inaccessiblePaths |>.cons <|
    touches_setupReadOnlyPaths svc.readOnlyPaths |>.cons <|
    touches_setupBindPaths svc.bindPaths false |>.cons <|
    touches_setupBindPaths svc.bindReadOnlyPaths true |>.cons <|
    (touches_thenLog_prctl prSetMdwe procMdweRefuseExecGain).when
      (b := svc.memoryDenyWriteExecute) |>.cons <|
    (touches_thenLog_prctl prSetSecurebits secureAllBits).when
      (b := svc.restrictSuidSgid) |>.cons .nil
  apply hsteps.congr
  · simp only [StepsUnshare, Hides, and_true, and_false, or_false, or_assoc]
  · simp only [StepsMount, Hides, and_true, and_false, or_false, false_or, or_assoc]

/-! The root and what follows it. -/

/-- The root can be changed: the path that is used has no NUL. -/
def rootPasses (svc : Service) : Bool :=
  match svc.rootImage, svc.rootDirectory with
  | some image, _ => Text.isCString image
  | none, some root => Text.isCString root
  | none, none => true

def isTmpfsSpec (spec : String) : Bool :=
  let (path, size, mode) := parseTmpfsSpec spec
  Text.isCString path && Text.isCString size && Text.isCString mode

def ExtendedUnshares (svc : Service) : Prop :=
  svc.temporaryFilesystems ≠ [] ∨ svc.mountApiVfs ∨ svc.procSubsetPid

/-- A temporary file system that cannot be mounted ends the sandbox there. -/
def ExtendedMounts (svc : Service) : Prop :=
  (∃ spec ∈ svc.temporaryFilesystems.head?, isTmpfsSpec spec) ∨
    ((∀ spec ∈ svc.temporaryFilesystems, isTmpfsSpec spec) ∧ (svc.mountApiVfs ∨ svc.procSubsetPid))

section Root
variable {bad : ChildCall → Prop} {U M : Prop}

theorem succeeds_setupRootDirectory {path : String} :
    (setupRootDirectory path).Succeeds ↔ Text.isCString path := by
  simp [setupRootDirectory]

theorem makes_setupRootDirectory (h : Judged bad U M) {path : String} :
    ¬(setupRootDirectory path).Makes bad := by
  simp [setupRootDirectory, makes_chroot h, h.chdir, h.lib]

theorem makes_mountImage (h : Judged bad U M) {imagePath loopDev : String} (fstypes : List String) :
    (mountImage imagePath loopDev fstypes).Makes bad ↔ fstypes ≠ [] ∧ M := by
  induction fstypes with
  | nil => simp [mountImage]
  | cons fstype rest ih =>
    rw [mountImage]
    simp only [makes_check, makes_sys, h.mount, returns_sys, true_and, makes_andThen, makes_log,
      h.lib, makes_setupRootDirectory h, and_false, or_self, exists_const, false_or, ih]
    constructor
    · intro hmakes
      obtain hM | ⟨-, hM⟩ := hmakes
      · exact ⟨List.cons_ne_nil _ _, hM⟩
      · exact ⟨List.cons_ne_nil _ _, hM⟩
    · intro hboth
      exact .inl hboth.2

theorem succeeds_mountImage {imagePath loopDev fstype : String} {rest : List String} :
    (mountImage imagePath loopDev (fstype :: rest)).Succeeds := by
  have hroot : (setupRootDirectory rootImageTarget).Succeeds :=
    succeeds_setupRootDirectory.2 (by decide)
  have hthen : (log.andThen (setupRootDirectory rootImageTarget)).Succeeds := by
    rw [succeeds_andThen]
    exact ⟨succeeds_log, hroot⟩
  rw [mountImage]
  exact returns_check.2 (.inl ⟨0, returns_sys _ _, hthen⟩)

@[simp] theorem makes_closeThen (h : Judged bad U M) {fd : ℕ} {next : Outcome → Setup} :
    (closeThen fd next).Makes bad ↔ ∃ o, (next o).Makes bad := by
  simp [closeThen, makes_bind, h.close]

@[simp] theorem returns_closeThen {fd : ℕ} {next : Outcome → Setup} {r : Except String Unit} :
    (closeThen fd next).Returns r ↔ ∃ o, (next o).Returns r := by
  simp [closeThen, returns_bind]

theorem makes_attachImage (h : Judged bad U M) {imagePath loopDev : String} {loopFd imgFd : ℕ} :
    (attachImage imagePath loopDev loopFd imgFd).Makes bad ↔ M := by
  have htarget : Text.isCString rootImageTarget = true := by decide
  simp [attachImage, makes_closeThen h, h.ioctl, makes_createDirAll h, makes_mountImage h, htarget]

theorem succeeds_attachImage {imagePath loopDev : String} {loopFd imgFd : ℕ} :
    (attachImage imagePath loopDev loopFd imgFd).Succeeds := by
  have htarget : Text.isCString rootImageTarget = true := by decide
  have hseq : (seq [orFail (createDirAll rootImageTarget)
      ("create root image mount target '" ++ rootImageTarget ++ "'"),
      mountImage imagePath loopDev ["ext4", "squashfs", "btrfs", "xfs", "f2fs"]]).Succeeds := by
    simp [htarget, succeeds_mountImage]
  refine returns_check.2 (.inl ⟨0, returns_sys _ _, ?_⟩)
  rw [returns_closeThen]
  refine ⟨.ok 0, ?_⟩
  rw [returns_closeThen]
  exact ⟨.ok 0, hseq⟩

theorem makes_setupRootImage (h : Judged bad U M) {imagePath : String} :
    (setupRootImage imagePath).Makes bad ↔ Text.isCString imagePath ∧ M := by
  have hopen : ∀ loopDev, (openImage imagePath loopDev).Makes bad ↔
      Text.isCString imagePath ∧ M := by
    intro loopDev
    unfold openImage
    split
    · rename_i himage
      simp [himage, h.lib, makes_attachImage h, makes_closeThen h]
    · rename_i himage
      simp [himage, h.lib]
  simp [setupRootImage, h.lib, h.ioctl, makes_closeThen h, hopen]

theorem succeeds_setupRootImage {imagePath : String} :
    (setupRootImage imagePath).Succeeds ↔ Text.isCString imagePath := by
  have hattach : ∀ loopDev loopFd imgFd,
      (attachImage imagePath loopDev loopFd imgFd).Returns (.ok ()) :=
    fun _ _ _ => succeeds_attachImage
  have hopen : ∀ loopDev, (openImage imagePath loopDev).Returns (.ok ()) ↔
      Text.isCString imagePath := by
    intro loopDev
    unfold openImage
    split
    · rename_i himage
      simp [himage, hattach]
    · rename_i himage
      simp [himage]
  unfold Succeeds setupRootImage
  simp [hopen]

theorem makes_setupRoot (h : Judged bad U M) (svc : Service) :
    (setupRoot svc).Makes bad ↔ M ∧ ∃ image, svc.rootImage = some image ∧ Text.isCString image := by
  unfold setupRoot
  cases himage : svc.rootImage with
  | some image =>
    dsimp only
    rw [makes_setupRootImage h, and_comm]
    simp
  | none =>
    cases svc.rootDirectory with
    | some root => simp [makes_setupRootDirectory h]
    | none => simp

theorem succeeds_setupRoot (svc : Service) : (setupRoot svc).Succeeds ↔ rootPasses svc := by
  unfold setupRoot rootPasses
  cases svc.rootImage with
  | some image => exact succeeds_setupRootImage
  | none =>
    cases svc.rootDirectory with
    | some root => exact succeeds_setupRootDirectory
    | none => simp

end Root

/-! Temporary file systems. -/

section Extended
variable {bad : ChildCall → Prop} {U M : Prop}

theorem isCString_append (s t : String) :
    Text.isCString (s ++ t) = (Text.isCString s && Text.isCString t) := by
  simp [Text.isCString, String.toList_append]

private theorem isCString_tmpfs {path size mode : String} :
    (⟨some "tmpfs", path, some "tmpfs", [.nosuid, .nodev],
      some ("size=" ++ size ++ ",mode=" ++ mode)⟩ : Mount).isCString =
      (Text.isCString path && Text.isCString size && Text.isCString mode) := by
  have htmpfs : Text.isCString "tmpfs" = true := by decide
  have hsize : Text.isCString "size=" = true := by decide
  have hmode : Text.isCString ",mode=" = true := by decide
  simp [Mount.isCString, isCString_append, htmpfs, hsize, hmode, Bool.and_assoc]

theorem succeeds_temporaryFilesystem (spec : String) :
    (temporaryFilesystem spec).Succeeds ↔ isTmpfsSpec spec := by
  unfold temporaryFilesystem isTmpfsSpec
  obtain ⟨path, size, mode⟩ := parseTmpfsSpec spec
  simp only [succeeds_seq_cons, succeeds_seq_nil, succeeds_orFail, returns_mount, isCString_tmpfs,
    succeeds_log, and_true, Bool.and_eq_true]
  constructor
  · intro hboth
    exact hboth.2
  · intro hclean
    have hexists : (ifExists path done (orFail (createDirAll path)
        ("mkdir '" ++ path ++ "' for tmpfs"))).Succeeds := by
      apply succeeds_ifExists
      rw [succeeds_orFail, returns_createDirAll]
      exact hclean.1.1
    exact ⟨hexists, hclean⟩

theorem makes_temporaryFilesystem (h : Judged bad U M) (spec : String) :
    (temporaryFilesystem spec).Makes bad ↔ isTmpfsSpec spec ∧ M := by
  have hsucceeds := succeeds_temporaryFilesystem spec
  unfold temporaryFilesystem isTmpfsSpec at *
  generalize parseTmpfsSpec spec = parts at *
  obtain ⟨path, size, mode⟩ := parts
  simp only [succeeds_seq_cons, succeeds_seq_nil, succeeds_orFail, returns_mount, isCString_tmpfs,
    succeeds_log, and_true] at hsucceeds
  simp only [makes_seq_cons, makes_ifExists h, makes_orFail, makes_createDirAll h, makes_mount h,
    makes_log, h.lib, makes_done, makes_seq_nil, isCString_tmpfs, and_false, or_false, false_or]
  rw [← and_assoc, hsucceeds]

/-- Temporary file systems up to the first that cannot be mounted. -/
theorem makes_temporaryFilesystems (h : Judged bad U M) (specs : List String) :
    (each specs temporaryFilesystem).Makes bad ↔
      M ∧ ∃ spec ∈ specs.head?, isTmpfsSpec spec := by
  have hbound : ∀ specs : List String, (each specs temporaryFilesystem).Makes bad → M := by
    intro specs
    induction specs with
    | nil => simp
    | cons spec specs ih =>
      intro hmakes
      rw [each_cons, makes_andThen] at hmakes
      obtain hfirst | ⟨-, hrest⟩ := hmakes
      · rw [makes_temporaryFilesystem h] at hfirst
        exact hfirst.2
      · exact ih hrest
  cases specs with
  | nil => simp
  | cons spec specs =>
    rw [each_cons, makes_andThen, makes_temporaryFilesystem h, succeeds_temporaryFilesystem]
    simp only [List.head?_cons, Option.mem_def, Option.some.injEq, exists_eq_left']
    constructor
    · intro hmakes
      obtain ⟨hspec, hM⟩ | ⟨hspec, hrest⟩ := hmakes
      · exact ⟨hM, hspec⟩
      · exact ⟨hbound specs hrest, hspec⟩
    · intro hboth
      exact .inl ⟨hboth.2, hboth.1⟩

theorem makes_setupTemporaryFilesystems (h : Judged bad U M) (specs : List String) :
    (setupTemporaryFilesystems specs).Makes bad ↔
      (U ∧ specs ≠ []) ∨ (M ∧ ∃ spec ∈ specs.head?, isTmpfsSpec spec) := by
  unfold setupTemporaryFilesystems
  split
  · rename_i hnil
    simp [hnil]
  · rename_i hspecs
    simp [makes_unshareNs h, makes_temporaryFilesystems h, hspecs]

theorem succeeds_setupTemporaryFilesystems (specs : List String) :
    (setupTemporaryFilesystems specs).Succeeds ↔ ∀ spec ∈ specs, isTmpfsSpec spec := by
  unfold setupTemporaryFilesystems
  split
  · rename_i hnil
    simp [hnil]
  · simp [succeeds_each, succeeds_temporaryFilesystem]

theorem touches_createDirAll (path : String) :
    Touches (ignore (createDirAll path)) False False :=
  ⟨succeeds_ignore, fun h => by simp [makes_createDirAll h]⟩

theorem touches_setupMountApiVfs : Touches setupMountApiVfs True True := by
  have heach : Touches (each apiMounts fun m =>
      seq [ignore (createDirAll m.target), orLog (mount m)]) _ _ :=
    Touches.each fun m _ => (touches_createDirAll m.target).cons <| (touches_orLog_mount m).cons .nil
  have hsteps := (touches_unshareNs "mount_api_vfs").cons <| heach.cons <| touches_log.cons .nil
  have hsome : ∃ m ∈ apiMounts, m.isCString := by decide
  exact hsteps.congr (by simp) (by simp [hsome])

theorem touches_setupProcSubsetPid : Touches setupProcSubsetPid True True := by
  have hproc : (⟨some "proc", "/proc", some "proc", [.nosuid, .nodev, .noexec],
      some "subset=pid"⟩ : Mount).isCString = true := by decide
  have hsteps : Touches setupProcSubsetPid _ _ :=
    (touches_unshareNs "proc_subset").cons <| (touches_orLog_mount _).cons .nil
  exact hsteps.congr (by simp) (by simp [hproc])

/-- The steps after the temporary file systems. -/
theorem touches_extendedSteps (svc : Service) :
    Touches (seq [
      Prog.when svc.mountApiVfs setupMountApiVfs,
      Prog.when svc.procSubsetPid setupProcSubsetPid,
      Prog.when svc.restrictRealtime setupRestrictRealtime,
      Prog.when svc.lockPersonality setupLockPersonality,
      setupRestrictAddressFamilies svc.restrictAddressFamilies,
      Prog.when svc.systemCallArchitecturesNative setupSystemCallArchitecturesNative])
      (svc.mountApiVfs ∨ svc.procSubsetPid) (svc.mountApiVfs ∨ svc.procSubsetPid) := by
  have hrealtime : Touches setupRestrictRealtime False False := touches_thenLog_prctl _ _
  have harch : Touches setupSystemCallArchitecturesNative False False := touches_log
  have hsteps := touches_setupMountApiVfs.when (b := svc.mountApiVfs) |>.cons <|
    touches_setupProcSubsetPid.when (b := svc.procSubsetPid) |>.cons <|
    hrealtime.when (b := svc.restrictRealtime) |>.cons <|
    touches_setupLockPersonality.when (b := svc.lockPersonality) |>.cons <|
    touches_setupRestrictAddressFamilies svc.restrictAddressFamilies |>.cons <|
    harch.when (b := svc.systemCallArchitecturesNative) |>.cons .nil
  apply hsteps.congr
  · simp only [and_true, and_false, or_false]
  · simp only [and_true, and_false, or_false]

private theorem extended_iff {U M T P A X : Prop} (hA : ¬T → A) :
    ((U ∧ T) ∨ (M ∧ P)) ∨ (A ∧ ((U ∧ X) ∨ (M ∧ X))) ↔
      (U ∧ (T ∨ X)) ∨ (M ∧ (P ∨ (A ∧ X))) := by
  tauto

theorem makes_applySandboxExtended (h : Judged bad U M) (svc : Service) :
    (applySandboxExtended svc).Makes bad ↔
      (U ∧ ExtendedUnshares svc) ∨ (M ∧ ExtendedMounts svc) := by
  unfold applySandboxExtended
  rw [makes_seq_cons, makes_setupTemporaryFilesystems h, succeeds_setupTemporaryFilesystems,
    (touches_extendedSteps svc).makes h]
  apply extended_iff
  intro hnil spec hspec
  rw [not_ne_iff.1 hnil] at hspec
  cases hspec

/-! `apply_sandbox`. -/

def SandboxUnshares (svc : Service) : Prop :=
  StepsUnshare svc ∨ (rootPasses svc ∧ ExtendedUnshares svc)

def SandboxMounts (svc : Service) : Prop :=
  StepsMount svc ∨ (∃ image, svc.rootImage = some image ∧ Text.isCString image) ∨
    (rootPasses svc ∧ ExtendedMounts svc)

private theorem sandbox_iff {U M S S' I R E E' : Prop} :
    ((U ∧ S) ∨ (M ∧ S')) ∨ ((M ∧ I) ∨ (R ∧ ((U ∧ E) ∨ (M ∧ E')))) ↔
      (U ∧ (S ∨ (R ∧ E))) ∨ (M ∧ (S' ∨ I ∨ (R ∧ E'))) := by
  tauto

theorem makes_applySandbox (h : Judged bad U M) (svc : Service) :
    (applySandbox svc).Makes bad ↔ (U ∧ SandboxUnshares svc) ∨ (M ∧ SandboxMounts svc) := by
  have hsteps := touches_namespaceSteps svc
  unfold applySandbox
  rw [makes_andThen, makes_andThen, and_iff_right hsteps.succeeds, hsteps.makes h,
    makes_setupRoot h, succeeds_setupRoot, makes_applySandboxExtended h]
  exact sandbox_iff

end Extended

end Quantra.Sandbox
