import Quantra.Process.SandboxCalls
import Quantra.Process.Seccomp

/-! What the child of `start_service_as` does between its seccomp filter and its command, and the
system calls that this comes to. -/
namespace Quantra.Process
open Calls Calls.Prog Quantra.Sandbox Quantra.Services

/-! `ResourceLimits::apply`. -/

def toRlim (v : ℕ) : Option ℕ := if v = 0 then none else some v

def setRlimit (resource : Resource) : Option (ℕ × ℕ) → Setup
  | none => done
  | some (soft, hard) => ignore (sys (.lib (.setrlimit resource (toRlim soft) (toRlim hard))))

def applyLimits : Option ResourceLimits → Setup
  | none => done
  | some rl => seq [
      setRlimit .nofile rl.nofile,
      setRlimit .nproc rl.nproc,
      setRlimit .fsize rl.fsize,
      setRlimit .stack rl.stack,
      setRlimit .memlock rl.memlock,
      setRlimit .core rl.core]

/-! The mount namespace of `private_tmp` and `protect_system`. -/

def childErr (msg : String) : Setup := ignore (sys (.write msg))

def privateTmpMount : Mount :=
  ⟨some "tmpfs", "/tmp", some "tmpfs", [.nosuid, .nodev], some "size=64M,mode=1777"⟩

def readOnlyRoot : Mount := ⟨none, "/", none, [.remount, .rdonly, .bind], none⟩

def isolateMounts (cfg : ServiceLaunch) : Setup :=
  when (cfg.privateTmp || cfg.protectSystem) <|
    (sys (.unshare .newNs)).check
      (fun _ => seq [
        when cfg.privateTmp (ignore (sys (.mount privateTmpMount))),
        when cfg.protectSystem (ignore (sys (.mount readOnlyRoot)))])
      fun _ => childErr "[zai-init] unshare(CLONE_NEWNS) failed\n"

/-! Landlock. -/

def landlockPath (rulesetFd : ℕ) (path : String) : Setup :=
  if Text.isCString path then
    (sys (.lib (.open_ path .path))).check
      (fun fd => seq [ignore (sys (.landlockAddRule rulesetFd fd)), ignore (sys (.close fd))])
      fun _ => done
  else done

/-- Without a ruleset (a kernel without Landlock) nothing is restricted. -/
def applyLandlock (paths : List String) : Setup :=
  (sys .landlockCreateRuleset).check
    (fun rulesetFd => seq [
      each paths (landlockPath rulesetFd),
      ignore (sys (.landlockRestrictSelf rulesetFd)),
      ignore (sys (.close rulesetFd))])
    fun _ => done

/-- A sandbox that fails is reported and not fatal. -/
def sandboxOrReport : Option Service → Setup
  | none => done
  | some svc => (applySandbox svc).check (fun _ => done) fun e => seq [
      childErr "[zai-init] sandbox::apply_sandbox failed\n",
      childErr e]

/-- What the child does between its filter and `execvpe`; the argument vectors are built last. -/
def confineChild (cfg : ServiceLaunch) : Setup := seq [
  applyLimits cfg.rlimit,
  isolateMounts cfg,
  when (cfg.landlockPaths ≠ []) (applyLandlock cfg.landlockPaths),
  sandboxOrReport cfg.serviceForSandbox,
  ignore (sys (.lib .heap))]

/-- The child from its filter up to and including `execve`. -/
def childAfterFilter (cfg : ServiceLaunch) : Setup :=
  (confineChild cfg).bind fun _ => ignore (sys (.execve cfg.cmd cfg.args))

/-! The calls as the kernel sees them. -/

def landlockCreateRulesetNumber : ℕ := 444

def landlockAddRuleNumber : ℕ := 445

def landlockRestrictSelfNumber : ℕ := 446

/-- What the allocator may call. -/
def heapCalls : List Syscall := [.brk, .mmap, .munmap, .mremap, .mprotect, .madvise, .futex]

/-- What the standard library and musl may call for an operation, the texts that are allocated for
it included. A command runs in a process of its own, whose calls are not the child's. -/
def libCalls : LibOp → List Syscall
  | .exists_ _ => heapCalls ++ [.stat, .newfstatat, .statx]
  | .createDirAll _ => heapCalls ++ [.mkdir, .stat, .newfstatat, .statx]
  | .open_ _ _ => heapCalls ++ [.open_, .fcntl]
  | .setrlimit _ _ _ => [.prlimit64, .setrlimit]
  | .command _ => heapCalls ++ [.rt_sigaction, .rt_sigprocmask, .pipe2, .clone, .vfork, .read,
      .close, .wait4]
  | .log => heapCalls ++ [.write]
  | .heap => heapCalls

/-- The system calls that a runtime makes for an operation of the libraries. -/
abbrev Runtime := LibOp → List ℕ

def Runtime.Usual (rt : Runtime) : Prop := ∀ op, ∀ nr ∈ rt op, nr ∈ (libCalls op).map Syscall.number

def callNumbers (rt : Runtime) : ChildCall → List ℕ
  | .lib op => rt op
  | .write _ => [Syscall.write.number]
  | .unshare _ => [Syscall.unshare.number]
  | .mount _ => [Syscall.mount.number]
  | .prctl _ _ => [Syscall.prctl.number]
  | .personality _ => [Syscall.personality.number]
  | .chroot _ => [Syscall.chroot.number]
  | .chdir _ => [Syscall.chdir.number]
  | .ioctl _ _ _ => [Syscall.ioctl.number]
  | .close _ => [Syscall.close.number]
  | .landlockCreateRuleset => [landlockCreateRulesetNumber]
  | .landlockAddRule _ _ => [landlockAddRuleNumber]
  | .landlockRestrictSelf _ => [landlockRestrictSelfNumber]
  | .execve _ _ => [Syscall.execve.number]

/-- The filter kills or denies the call. -/
def Refused (rt : Runtime) (f : Filter) (c : ChildCall) : Prop :=
  ∃ nr ∈ callNumbers rt c, ¬ f.Allows auditArchX8664 nr

/-! What the child can come to. -/

section Calls
variable {bad : ChildCall → Prop} {U M L : Prop}

/-- The three Landlock calls are judged alike. -/
structure JudgedLandlock (bad : ChildCall → Prop) (L : Prop) : Prop where
  create : bad .landlockCreateRuleset ↔ L
  addRule : ∀ ruleset fd, bad (.landlockAddRule ruleset fd) ↔ L
  restrict : ∀ ruleset, bad (.landlockRestrictSelf ruleset) ↔ L

theorem touches_childErr (msg : String) : Touches (childErr msg) False False :=
  ⟨succeeds_ignore, fun h => by simp [childErr, h.write]⟩

theorem touches_setRlimit (resource : Resource) (limit : Option (ℕ × ℕ)) :
    Touches (setRlimit resource limit) False False := by
  cases limit with
  | none => exact .done
  | some pair => exact touches_lib _

theorem touches_applyLimits (limits : Option ResourceLimits) :
    Touches (applyLimits limits) False False := by
  cases limits with
  | none => exact .done
  | some rl =>
    have hsteps := touches_setRlimit .nofile rl.nofile |>.cons <|
      touches_setRlimit .nproc rl.nproc |>.cons <|
      touches_setRlimit .fsize rl.fsize |>.cons <|
      touches_setRlimit .stack rl.stack |>.cons <|
      touches_setRlimit .memlock rl.memlock |>.cons <|
      touches_setRlimit .core rl.core |>.cons .nil
    exact hsteps.congr (by simp) (by simp)

theorem touches_isolateMounts (cfg : ServiceLaunch) :
    Touches (isolateMounts cfg) (cfg.privateTmp ∨ cfg.protectSystem)
      (cfg.privateTmp ∨ cfg.protectSystem) := by
  have hinner : Touches ((sys (.unshare .newNs)).check
      (fun _ => seq [
        Prog.when cfg.privateTmp (ignore (sys (.mount privateTmpMount))),
        Prog.when cfg.protectSystem (ignore (sys (.mount readOnlyRoot)))])
      fun _ => childErr "[zai-init] unshare(CLONE_NEWNS) failed\n") True
      (cfg.privateTmp ∨ cfg.protectSystem) := by
    constructor
    · exact returns_check.2 (.inr ⟨"", returns_sys _ _, (touches_childErr _).succeeds⟩)
    · intro bad U M h
      simp only [makes_check, makes_sys, h.unshare, returns_sys, true_and, makes_seq_cons,
        makes_when, makes_ignore, h.mount, succeeds_when, succeeds_ignore, implies_true,
        makes_seq_nil, and_false, or_false, (touches_childErr _).makes h, exists_const, and_true,
        or_self]
      rw [and_comm (a := M), or_and_right]
  apply hinner.when.congr
  · simp
  · simp

theorem touches_sandboxOrReport (svc : Service) :
    Touches (sandboxOrReport (some svc)) (SandboxUnshares svc) (SandboxMounts svc) := by
  have hreport : ∀ e, Touches (seq [childErr "[zai-init] sandbox::apply_sandbox failed\n",
      childErr e]) False False := fun e =>
    ((touches_childErr _).cons ((touches_childErr e).cons .nil)).congr (by simp) (by simp)
  constructor
  · obtain ⟨o, ho⟩ := exists_returns (applySandbox svc)
    refine returns_check.2 ?_
    cases o with
    | ok _ => exact .inl ⟨(), ho, succeeds_done⟩
    | error e => exact .inr ⟨e, ho, (hreport e).succeeds⟩
  · intro bad U M h
    unfold sandboxOrReport
    simp only [makes_check, makes_applySandbox h, makes_done, (hreport _).makes h, and_false,
      exists_false, or_false]

theorem succeeds_applyLandlock (paths : List String) : (applyLandlock paths).Succeeds :=
  returns_check.2 (.inr ⟨"", returns_sys _ _, succeeds_done⟩)

theorem makes_landlockPath (h : Judged bad U M) (hlandlock : JudgedLandlock bad L) {rulesetFd : ℕ}
    {path : String} (hmakes : (landlockPath rulesetFd path).Makes bad) : L := by
  unfold landlockPath at hmakes
  split at hmakes
  · simp only [makes_check, makes_sys, h.lib, returns_sys, true_and, makes_seq_cons, makes_ignore,
      hlandlock.addRule, h.close, makes_seq_nil, makes_done, and_false, or_false, false_or,
      exists_const] at hmakes
    exact hmakes
  · exact absurd hmakes makes_done

theorem makes_eachLandlockPath (h : Judged bad U M) (hlandlock : JudgedLandlock bad L)
    {rulesetFd : ℕ} {paths : List String}
    (hmakes : (each paths (landlockPath rulesetFd)).Makes bad) : L := by
  induction paths with
  | nil => exact absurd hmakes makes_done
  | cons path paths ih =>
    rw [each_cons, makes_andThen] at hmakes
    obtain hfirst | ⟨-, hrest⟩ := hmakes
    · exact makes_landlockPath h hlandlock hfirst
    · exact ih hrest

theorem makes_applyLandlock (h : Judged bad U M) (hlandlock : JudgedLandlock bad L)
    (paths : List String) : (applyLandlock paths).Makes bad ↔ L := by
  unfold applyLandlock
  simp only [makes_check, makes_sys, hlandlock.create, returns_sys, true_and, makes_seq_cons,
    makes_ignore, hlandlock.restrict, h.close, makes_seq_nil, makes_done, and_false, or_false,
    exists_false]
  constructor
  · intro hmakes
    obtain hL | ⟨rulesetFd, heach | ⟨-, hL⟩⟩ := hmakes
    · exact hL
    · exact makes_eachLandlockPath h hlandlock heach
    · exact hL
  · exact .inl

/-- Landlock apart, the child comes to what its launch and its sandbox ask for. -/
theorem makes_childAfterFilter (h : Judged bad U M) (hlandlock : JudgedLandlock bad L)
    {cfg : ServiceLaunch} {svc : Service} (hsvc : cfg.serviceForSandbox = some svc) :
    (childAfterFilter cfg).Makes bad ↔
      (U ∧ ((cfg.privateTmp ∨ cfg.protectSystem) ∨ SandboxUnshares svc)) ∨
      (M ∧ ((cfg.privateTmp ∨ cfg.protectSystem) ∨ SandboxMounts svc)) ∨
      (L ∧ cfg.landlockPaths ≠ []) := by
  have hlimits := touches_applyLimits cfg.rlimit
  have hisolate := touches_isolateMounts cfg
  have hsandbox := touches_sandboxOrReport svc
  unfold childAfterFilter confineChild
  rw [makes_bind, hsvc]
  simp only [makes_seq_cons, hlimits.makes h, hlimits.succeeds, hisolate.makes h,
    hisolate.succeeds, hsandbox.makes h, makes_when, makes_applyLandlock h hlandlock,
    succeeds_when, succeeds_applyLandlock, hsandbox.succeeds, makes_ignore, makes_sys, h.lib,
    h.execve, makes_seq_nil, decide_eq_true_eq, implies_true, true_and, and_false, or_false,
    false_or, exists_false, or_self]
  tauto

end Calls

end Quantra.Process
