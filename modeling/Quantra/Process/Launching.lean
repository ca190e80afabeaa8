import Quantra.Process.Confine

/-! The child of `start_service_as` from `setsid` to its command. -/
namespace Quantra.Process
open Calls Calls.Prog Quantra.Sandbox Quantra.Services

/-! The calls. -/

inductive LaunchCall
  | setsid
  | attachTerminal (path : String)
  | setupConsoleIo
  | chdir (path : String)
  | setgroups
  | setgid (gid : ℕ)
  | setuid (uid : ℕ)
  | setNoNewPrivs
  | setDumpable
  | ambientClearAll
  | capbsetDrop (cap : ℕ)
  | ambientRaise (cap : ℕ)
  | report (text : String)
  | redirectOutput (fd : ℤ)
  | passSocket (fd target : ℤ)
  | confineNextExec (profile : String)
  | setSeccomp (filter : Filter)
  | child (c : ChildCall)

/-- `.ok` is a child that has not exited; an error is the last line of one that has. -/
abbrev Launching := Prog LaunchCall Outcome (Except String Unit)

def ask (c : LaunchCall) : Prog LaunchCall Outcome Outcome := .call c .ret

def orExit (c : LaunchCall) (message : String) : Launching :=
  (ask c).check (fun _ => done) fun _ => .ret (.error message)

/-- The result is not looked at. -/
def regardless (c : LaunchCall) : Launching := (ask c).bind fun _ => done

def inTurn (steps : List Launching) : Launching := each steps id

/-! The steps of the child. -/

def attachOutput (cfg : ServiceLaunch) : Launching :=
  match cfg.ttyPath with
  | some tty => (ask (.attachTerminal tty)).check (fun _ => done) fun _ =>
      orExit .setupConsoleIo "[zai-init] tty attach failed\n"
  | none => when cfg.logWriteFd.isNone (regardless .setupConsoleIo)

def dropPrivileges (cfg : ServiceLaunch) : Launching :=
  when (cfg.gid.isSome || cfg.uid.isSome) <| inTurn [
    orExit .setgroups "[zai-init] setgroups failed\n",
    each cfg.gid.toList fun gid => orExit (.setgid gid) "[zai-init] setgid failed\n",
    each cfg.uid.toList fun uid => orExit (.setuid uid) "[zai-init] setuid failed\n"]

def hardeningFailed : String := "[zai-init] child hardening failed\n"

/-- The loop of the bounding set ends before the last capability. -/
def applyChildHardening (cfg : ServiceLaunch) : Launching := inTurn [
  when cfg.noNewPrivileges (orExit .setNoNewPrivs hardeningFailed),
  when cfg.nonDumpable (orExit .setDumpable hardeningFailed),
  when cfg.clearAmbientCaps (orExit .ambientClearAll hardeningFailed),
  when (cfg.capabilityBoundingSet ≠ [])
    (each ((List.range 40).filter (· ∉ cfg.capabilityBoundingSet)) fun cap =>
      regardless (.capbsetDrop cap)),
  each cfg.dropCapabilities fun cap => orExit (.capbsetDrop cap) hardeningFailed,
  each cfg.ambientCapabilities fun cap => (ask (.ambientRaise cap)).check (fun _ => done) fun _ =>
    regardless (.report "[zai-init] ambient cap raise failed (non-fatal)\n")]

def sdListenFdsStart : ℤ := 3

/-- The end of a filter function, with what it does before its last `prctl`. -/
def Applied.installed (before : Launching) (message : String) : Applied → Launching
  | .nothing => done
  | .refused => .ret (.error message)
  | .install p => before.andThen (orExit (.setSeccomp (.program p)) message)

def installSeccomp (cfg : ServiceLaunch) : Launching :=
  if cfg.seccompAllowlist ≠ [] then
    (applySeccompAllowlist auditArchX8664 (cfg.seccompAllowlist.map Nat.cast)).installed
      (regardless .setNoNewPrivs) "[zai-init] seccomp allowlist apply failed\n"
  else if cfg.seccompProfileDenylist ≠ [] then
    (applySeccompDenylist auditArchX8664 (cfg.seccompProfileDenylist.map Nat.cast)).installed
      done "[zai-init] seccomp profile apply failed\n"
  else when cfg.seccompStrict
    (orExit (.setSeccomp .strict) "[zai-init] seccomp strict mode apply failed\n")

def enterSession (cfg : ServiceLaunch) : Launching := inTurn [
  orExit .setsid "[zai-init] setsid failed\n",
  attachOutput cfg,
  orExit (.chdir (cfg.workingDir.getD "/")) "[zai-init] chdir failed\n",
  dropPrivileges cfg]

def settleChild (cfg : ServiceLaunch) : Launching := inTurn [
  each cfg.logWriteFd.toList fun fd => regardless (.redirectOutput fd),
  each cfg.activationFds.zipIdx fun p => regardless (.passSocket p.1 (sdListenFdsStart + p.2)),
  each cfg.apparmorProfile.toList fun profile =>
    orExit (.confineNextExec profile) "[zai-init] AppArmor profile apply failed\n",
  installSeccomp cfg,
  ((confineChild cfg).mapCall .child).bind fun _ => done]

def serviceChild (cfg : ServiceLaunch) : Launching :=
  (enterSession cfg).andThen ((applyChildHardening cfg).andThen (settleChild cfg))

/-- The child up to and including `execve`. -/
def childToCommand (cfg : ServiceLaunch) : Launching :=
  (serviceChild cfg).andThen (regardless (.child (.execve cfg.cmd cfg.args)))

end Quantra.Process
