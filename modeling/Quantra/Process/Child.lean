import Quantra.Process.Unprivileged

/-! Which of the child's own calls its seccomp filter refuses, and whether the child comes to its
command. -/
namespace Quantra.Process
open Calls Calls.Prog Quantra.Sandbox Quantra.Services

/-! What the filters refuse. -/

/-- A call that the allowlist holds and that no profile denies. -/
def Ordinary (s : Syscall) : Prop :=
  s ∈ baseAllowlist ∧ ∀ p ∈ supportedSeccompProfiles, s.number ∉ p.denied.map Syscall.number

instance (s : Syscall) : Decidable (Ordinary s) := inferInstanceAs (Decidable (_ ∧ _))

/-- What a child does without namespaces and mounts. -/
def commonCalls : List Syscall :=
  heapCalls ++ [Syscall.stat, .newfstatat, .statx, .mkdir, .open_, .fcntl, .prlimit64, .setrlimit,
    .rt_sigaction, .rt_sigprocmask, .pipe2, .clone, .vfork, .read, .close, .wait4, .write, .prctl,
    .personality, .chroot, .chdir, .ioctl, .execve]

theorem ordinary_commonCalls : ∀ s ∈ commonCalls, Ordinary s := by decide +kernel

theorem libCalls_subset (op : LibOp) : ∀ s ∈ libCalls op, s ∈ commonCalls := by
  cases op <;> (dsimp only [libCalls]; decide)

theorem judged_refused {rt : Runtime} (hrt : rt.Usual) {f : Filter}
    (hordinary : ∀ s, Ordinary s → f.Allows auditArchX8664 s.number) :
    Judged (Refused rt f) (¬ f.Allows auditArchX8664 Syscall.unshare.number)
      (¬ f.Allows auditArchX8664 Syscall.mount.number) := by
  have hsingle : ∀ s ∈ commonCalls, ¬ ∃ nr ∈ [s.number], ¬ f.Allows auditArchX8664 nr := by
    intro s hs hrefused
    obtain ⟨nr, hnr, hno⟩ := hrefused
    rw [List.mem_singleton.1 hnr] at hno
    exact hno (hordinary s (ordinary_commonCalls s hs))
  constructor
  case unshare => simp [Refused, callNumbers]
  case mount => simp [Refused, callNumbers]
  case lib =>
    intro op hrefused
    obtain ⟨nr, hnr, hno⟩ := hrefused
    obtain ⟨s, hs, heq⟩ := List.mem_map.1 (hrt op nr hnr)
    rw [← heq] at hno
    exact hno (hordinary s (ordinary_commonCalls s (libCalls_subset op s hs)))
  case write => exact fun _ => hsingle .write (by decide)
  case prctl => exact fun _ _ => hsingle .prctl (by decide)
  case personality => exact fun _ => hsingle .personality (by decide)
  case chroot => exact fun _ => hsingle .chroot (by decide)
  case chdir => exact fun _ => hsingle .chdir (by decide)
  case ioctl => exact fun _ _ _ => hsingle .ioctl (by decide)
  case close => exact fun _ => hsingle .close (by decide)
  case execve => exact fun _ _ => hsingle .execve (by decide)

/-- The three numbers of Landlock are alike for a filter that knows none of them. -/
theorem judgedLandlock_refused {rt : Runtime} {f : Filter} {L : Prop}
    (h : ∀ nr ∈ [landlockCreateRulesetNumber, landlockAddRuleNumber, landlockRestrictSelfNumber],
      ¬ f.Allows auditArchX8664 nr ↔ L) : JudgedLandlock (Refused rt f) L := by
  have hcreate := h landlockCreateRulesetNumber (by simp)
  have haddRule := h landlockAddRuleNumber (by simp)
  have hrestrict := h landlockRestrictSelfNumber (by simp)
  constructor
  · simpa [Refused, callNumbers] using hcreate
  · intro ruleset fd
    simpa [Refused, callNumbers] using haddRule
  · intro ruleset
    simpa [Refused, callNumbers] using hrestrict

/-- What a child comes to with or without root's privileges. -/
def MayUnshare (asRoot : Bool) (svc : Service) : Prop :=
  (svc.privateTmp ∨ svc.protectSystem) ∨ if asRoot then SandboxUnshares svc else BareUnshares svc

def MayMount (asRoot : Bool) (svc : Service) : Prop :=
  if asRoot then (svc.privateTmp ∨ svc.protectSystem) ∨ SandboxMounts svc else BareMounts svc

/-- The child may install the filter that its service asks for. An allowlist sets `no_new_privs`
itself. -/
def MayInstall (asRoot : Bool) (svc : Service) : Prop :=
  svc.seccomp = .off ∨ svc.syscallFilterMode = "allowlist" ∨ asRoot ∨ svc.noNewPrivileges

/-- The filter kills nothing that the child still has to do. Strict mode always does, and a profile
denies the mounts of the sandbox (and `network-daemon` its namespaces). -/
def FilterSpares (asRoot : Bool) (svc : Service) : Prop :=
  svc.seccomp = .off ∨ svc.syscallFilterMode = "allowlist" ∨
    (svc.seccomp = .profile ∧ ¬ MayMount asRoot svc ∧
      (SeccompProfile.networkDaemon.IsFor svc → ¬ MayUnshare asRoot svc))

/-- The configurations whose filter leaves the child what it still has to do, and that let it get
there. The allowlist lacks Landlock. -/
structure LeavesChild (asRoot : Bool) (svc : Service) : Prop where
  drops : asRoot ∨ svc.dropCapabilities = []
  installs : MayInstall asRoot svc
  spares : FilterSpares asRoot svc
  landlock : svc.seccomp ≠ .off → svc.syscallFilterMode = "allowlist" → svc.landlockPaths = []

/-- The filter ends the child at the call. -/
def Killed (rt : Runtime) (f : Filter) (c : ChildCall) : Prop :=
  ∃ nr ∈ callNumbers rt c, f.Kills auditArchX8664 nr

theorem callNumbers_lt {rt : Runtime} (hrt : rt.Usual) (c : ChildCall) :
    ∀ nr ∈ callNumbers rt c, nr < 2 ^ 32 := by
  intro nr hnr
  cases c with
  | lib op =>
    obtain ⟨s, -, heq⟩ := List.mem_map.1 (hrt op nr hnr)
    rw [← heq]
    exact s.number_lt
  | landlockCreateRuleset | landlockAddRule | landlockRestrictSelf =>
    rw [List.mem_singleton.1 hnr]
    decide
  | _ =>
    rw [List.mem_singleton.1 hnr]
    exact Syscall.number_lt _

section Filters
variable {rt : Runtime} {svc : Service} {l : ServiceLaunch} {f : Filter} {asRoot : Bool}

/-- What is left of the child's program where some answers are settled by its privileges. -/
abbrev childLeft (asRoot : Bool) (cfg : ServiceLaunch) : Setup :=
  (childAfterFilter cfg).given (refusedTo (effectiveOf asRoot))

theorem makes_childLeft {bad : ChildCall → Prop} {U M L : Prop} (h : Judged bad U M)
    (hlandlock : JudgedLandlock bad L) (hconf : Confines svc l) :
    (childLeft asRoot l).Makes bad ↔ (U ∧ MayUnshare asRoot svc) ∨ (M ∧ MayMount asRoot svc) ∨
      (L ∧ svc.landlockPaths ≠ []) := by
  cases asRoot with
  | false =>
    have hbare := makes_bareChildAfterFilter h hlandlock hconf.sandbox
    rw [hconf.privateTmp, hconf.protectSystem, hconf.landlockPaths] at hbare
    exact hbare
  | true =>
    have hopen : ∀ c, refusedTo (effectiveOf true) c = none := by
      intro c
      cases c <;> rfl
    rw [childLeft, given_eq_self hopen, makes_childAfterFilter h hlandlock hconf.sandbox,
      hconf.privateTmp, hconf.protectSystem, hconf.landlockPaths]
    rfl

/-- A filter that leaves the ordinary calls is judged by the three that it may not leave. -/
theorem makes_refused_iff (hrt : rt.Usual) (hconf : Confines svc l)
    (hordinary : ∀ s, Ordinary s → f.Allows auditArchX8664 s.number) {L : Prop}
    (hlandlock : ∀ nr ∈
      [landlockCreateRulesetNumber, landlockAddRuleNumber, landlockRestrictSelfNumber],
      ¬ f.Allows auditArchX8664 nr ↔ L) :
    (childLeft asRoot l).Makes (Refused rt f) ↔
      (¬ f.Allows auditArchX8664 Syscall.unshare.number ∧ MayUnshare asRoot svc) ∨
      (¬ f.Allows auditArchX8664 Syscall.mount.number ∧ MayMount asRoot svc) ∨
      (L ∧ svc.landlockPaths ≠ []) :=
  makes_childLeft (judged_refused hrt hordinary) (judgedLandlock_refused hlandlock) hconf

theorem not_makes_refused_off (hrt : rt.Usual) (hconf : Confines svc l)
    (hallows : ∀ nr < 2 ^ 32, f.Allows auditArchX8664 nr ↔ LeftBy l nr)
    (hoff : svc.seccomp = .off) : ¬ (childLeft asRoot l).Makes (Refused rt f) := by
  have hall : ∀ nr < 2 ^ 32, f.Allows auditArchX8664 nr := by
    intro nr hnr
    rw [hallows nr hnr, leftBy_strict hconf (.inr hoff) (by simp [hoff])]
    simp [hoff]
  rw [makes_refused_iff hrt hconf (fun s _ => hall _ s.number_lt) (L := False)]
  · simp [hall _ (Syscall.number_lt _)]
  · intro nr hnr
    have hlt : nr < 2 ^ 32 := by
      revert nr
      decide
    simp [hall nr hlt]

theorem makes_refused_allowlist (hrt : rt.Usual) (hconf : Confines svc l)
    (hallows : ∀ nr < 2 ^ 32, f.Allows auditArchX8664 nr ↔ LeftBy l nr)
    (hon : svc.seccomp ≠ .off) (hmode : svc.syscallFilterMode = "allowlist") :
    (childLeft asRoot l).Makes (Refused rt f) ↔ svc.landlockPaths ≠ [] := by
  have hlist : ∀ nr < 2 ^ 32,
      (f.Allows auditArchX8664 nr ↔ nr ∈ baseAllowlist.map Syscall.number) := by
    intro nr hnr
    rw [hallows nr hnr, leftBy_allowlist hconf hmode hon]
  have hmem : ∀ s ∈ baseAllowlist, f.Allows auditArchX8664 s.number := by
    intro s hs
    rw [hlist _ s.number_lt]
    exact List.mem_map_of_mem hs
  have hunshare := hmem .unshare (by decide +kernel)
  have hmount := hmem .mount (by decide +kernel)
  rw [makes_refused_iff hrt hconf (fun s hs => hmem s hs.1) (L := True)]
  · simp [hunshare, hmount]
  · intro nr hnr
    have hout : nr < 2 ^ 32 ∧ nr ∉ baseAllowlist.map Syscall.number := by
      revert nr
      decide +kernel
    simp [hlist nr hout.1, hout.2]

theorem makes_refused_profile (hrt : rt.Usual) (hconf : Confines svc l)
    (hallows : ∀ nr < 2 ^ 32, f.Allows auditArchX8664 nr ↔ LeftBy l nr)
    (hmode : svc.syscallFilterMode ≠ "allowlist") {p : SeccompProfile} (hp : p.IsFor svc) :
    (childLeft asRoot l).Makes (Refused rt f) ↔
      (p = .networkDaemon ∧ MayUnshare asRoot svc) ∨ MayMount asRoot svc := by
  have hdeny : ∀ nr < 2 ^ 32,
      (f.Allows auditArchX8664 nr ↔ nr ∉ p.denied.map Syscall.number) := by
    intro nr hnr
    rw [hallows nr hnr, leftBy_profile hconf hmode hp]
  have hunshare : ¬ f.Allows auditArchX8664 Syscall.unshare.number ↔ p = .networkDaemon := by
    rw [hdeny _ (Syscall.number_lt _), not_not]
    cases p <;> decide
  have hmount : ¬ f.Allows auditArchX8664 Syscall.mount.number := by
    rw [hdeny _ (Syscall.number_lt _), not_not]
    cases p <;> decide
  rw [makes_refused_iff hrt hconf (L := False), hunshare]
  · simp [hmount]
  · intro s hs
    rw [hdeny _ s.number_lt]
    exact hs.2 p (by cases p <;> decide)
  · intro nr hnr
    have hout : nr < 2 ^ 32 ∧ nr ∉ p.denied.map Syscall.number := by
      revert nr
      cases p <;> decide +kernel
    simp [hdeny nr hout.1, hout.2]

/-- The command is always come to, so a filter that refuses `execve` refuses it to every child. -/
theorem makes_execve (cfg : ServiceLaunch) {bad : ChildCall → Prop}
    (hbad : bad (.execve cfg.cmd cfg.args)) : (childLeft asRoot cfg).Makes bad := by
  obtain ⟨o, ho⟩ := exists_returns ((confineChild cfg).given (refusedTo (effectiveOf asRoot)))
  rw [childLeft, childAfterFilter, given_bind, makes_bind]
  exact .inr ⟨o, ho, (makes_call _ _).2 (.inl hbad)⟩

/-- Strict mode kills `execve` itself. -/
theorem makes_refused_strict (hconf : Confines svc l)
    (hallows : ∀ nr < 2 ^ 32, f.Allows auditArchX8664 nr ↔ LeftBy l nr)
    (hmode : svc.syscallFilterMode ≠ "allowlist") (hstrict : svc.seccomp = .strict) :
    (childLeft asRoot l).Makes (Refused rt f) := by
  apply makes_execve
  refine ⟨Syscall.execve.number, List.mem_singleton_self _, ?_⟩
  rw [hallows _ (Syscall.number_lt _), leftBy_strict hconf (.inl hmode) (by simp [hstrict])]
  intro hleft
  have hexecve := hleft hstrict
  revert hexecve
  decide

variable {host : Host} {logger : Option ℤ} {accepted : Bool}

/-- What the filter of a launch refuses, it kills, or it is an allowlist and refuses Landlock. -/
theorem not_makes_refused_iff (hrt : rt.Usual) (hl : LaunchOf host logger svc l)
    (hf : childSeccomp auditArchX8664 accepted l = .ok f) :
    ¬(childLeft asRoot l).Makes (Refused rt f) ↔ FilterSpares asRoot svc ∧
      (svc.seccomp ≠ .off → svc.syscallFilterMode = "allowlist" → svc.landlockPaths = []) := by
  have hconf := hl.confines
  have hallows : ∀ nr < 2 ^ 32, f.Allows auditArchX8664 nr ↔ LeftBy l nr :=
    fun nr hnr => allows_number_iff hl hf hnr
  unfold FilterSpares
  by_cases hoff : svc.seccomp = .off
  · simp [not_makes_refused_off hrt hconf hallows hoff, hoff]
  by_cases hmode : svc.syscallFilterMode = "allowlist"
  · rw [makes_refused_allowlist hrt hconf hallows hoff hmode]
    simp [hoff, hmode]
  cases hseccomp : svc.seccomp with
  | off => exact absurd hseccomp hoff
  | strict =>
    have hkilled : (childLeft asRoot l).Makes (Refused rt f) :=
      makes_refused_strict hconf hallows hmode hseccomp
    simp [hkilled, hmode]
  | profile =>
    obtain ⟨hno, -⟩ | ⟨p, hp, -⟩ := resolveSeccompProfileForService_cases hconf.denylist
    · exact absurd hseccomp hno
    rw [makes_refused_profile hrt hconf hallows hmode hp]
    have hdaemon : SeccompProfile.networkDaemon.IsFor svc ↔ p = .networkDaemon := by
      constructor
      · exact hp.unique
      · intro heq
        rwa [heq] at hp
    simp only [hdaemon, hmode]
    tauto

/-- Only an allowlist denies a call without killing the child. -/
theorem killed_iff (hrt : rt.Usual) (hl : LaunchOf host logger svc l)
    (hf : childSeccomp auditArchX8664 accepted l = .ok f) (c : ChildCall) :
    Killed rt f c ↔ l.seccompAllowlist = [] ∧ Refused rt f c := by
  constructor
  · intro hkilled
    obtain ⟨nr, hnr, hkills⟩ := hkilled
    obtain ⟨hnil, hno⟩ := (kills_number_iff hl hf (callNumbers_lt hrt c nr hnr)).1 hkills
    exact ⟨hnil, nr, hnr, hno⟩
  · intro hboth
    obtain ⟨hnil, nr, hnr, hno⟩ := hboth
    exact ⟨nr, hnr, (kills_number_iff hl hf (callNumbers_lt hrt c nr hnr)).2 ⟨hnil, hno⟩⟩

theorem allowlist_eq_nil_iff (hconf : Confines svc l) :
    l.seccompAllowlist = [] ↔ svc.syscallFilterMode ≠ "allowlist" ∨ svc.seccomp = .off := by
  refine ⟨fun hnil => ?_, seccompAllowlist_eq_nil hconf⟩
  by_contra hno
  rw [hconf.allowlist] at hnil
  unfold resolveSeccompAllowlist at hnil
  rw [if_neg hno] at hnil
  revert hnil
  decide

theorem denylist_eq_nil_iff (hconf : Confines svc l) :
    l.seccompProfileDenylist = [] ↔ svc.seccomp ≠ .profile := by
  obtain ⟨hno, hnil⟩ | ⟨p, hp, heq⟩ := resolveSeccompProfileForService_cases hconf.denylist
  · exact iff_of_true hnil hno
  · refine iff_of_false ?_ (not_not_intro hp.1)
    rw [heq]
    cases p <;> decide

theorem not_makes_killed_iff (hrt : rt.Usual) (hl : LaunchOf host logger svc l)
    (hf : childSeccomp auditArchX8664 accepted l = .ok f) :
    ¬(childLeft asRoot l).Makes (Killed rt f) ↔ FilterSpares asRoot svc := by
  by_cases hnil : l.seccompAllowlist = []
  · have hsame : Killed rt f = Refused rt f := by
      funext c
      rw [killed_iff hrt hl hf c, and_iff_right hnil]
    rw [hsame, not_makes_refused_iff hrt hl hf, and_iff_left_iff_imp]
    intro _ hoff hmode
    rw [allowlist_eq_nil_iff hl.confines] at hnil
    simp [hoff, hmode] at hnil
  · have hnone : ∀ c, ¬Killed rt f c := fun c hc => hnil ((killed_iff hrt hl hf c).1 hc).1
    rw [allowlist_eq_nil_iff hl.confines, not_or, not_not] at hnil
    exact iff_of_true (not_makes_of_forall hnone) (.inr (.inl hnil.1))

end Filters

/-! The child of a launch. -/

section Launch
variable {rt : Runtime} {host : Host} {logger : Option ℤ} {svc : Service} {l : ServiceLaunch}
  {root k : Creds} {fatal : Filter → ChildCall → Prop}

theorem mayFilter_iff {asRoot nnp : Bool} (hk : BeforeFilter (effectiveOf asRoot) nnp k) :
    k.mayFilter ↔ asRoot ∨ nnp := by
  have hroot : capSysAdmin ∈ allCapabilities := by decide
  unfold Creds.mayFilter effectiveOf at *
  rw [hk.noNewPrivs, hk.effective]
  cases asRoot <;> simp [hroot]

/-- What the kernel is asked to take, and whether it does. -/
theorem takes_iff (hl : LaunchOf host logger svc l)
    (hk : BeforeFilter (effectiveOf (runsAsRoot l)) l.noNewPrivileges k) :
    k.takes l ↔ MayInstall (runsAsRoot l) svc ∨
      (svc.seccomp = .strict ∧ svc.syscallFilterMode ≠ "allowlist") := by
  have hconf := hl.confines
  have hallow : l.seccompAllowlist.isEmpty = false ↔
      svc.syscallFilterMode = "allowlist" ∧ svc.seccomp ≠ .off := by
    rw [List.isEmpty_eq_false_iff, ne_eq, allowlist_eq_nil_iff hconf, not_or, not_not]
  have hdeny : l.seccompProfileDenylist.isEmpty ↔ svc.seccomp ≠ .profile := by
    rw [List.isEmpty_iff, denylist_eq_nil_iff hconf]
  unfold Creds.takes MayInstall
  rw [Bool.or_eq_true, Bool.or_eq_true, mayFilter_iff hk, hconf.noNewPrivileges,
    Bool.not_eq_true', hallow, hdeny]
  cases hseccomp : svc.seccomp with
  | off => simp
  | strict =>
    by_cases hmode : svc.syscallFilterMode = "allowlist" <;> simp [hmode]
  | profile =>
    simp only [ne_eq, reduceCtorEq, not_false_eq_true, and_true, not_true_eq_false, or_false,
      false_or, false_and]
    exact or_comm

/-- Whether the filter of a launch is installed, with what has become of it. -/
theorem exists_installed_iff (hl : LaunchOf host logger svc l)
    (hk : BeforeFilter (effectiveOf (runsAsRoot l)) l.noNewPrivileges k) :
    (∃ f, childSeccomp auditArchX8664 (k.takes l) l = .ok f) ↔
      MayInstall (runsAsRoot l) svc ∨
        (svc.seccomp = .strict ∧ svc.syscallFilterMode ≠ "allowlist") := by
  obtain ⟨hallow, hdeny⟩ := compilable_of_confines hl.confines
  rw [← takes_iff hl hk]
  constructor
  · intro hok
    obtain ⟨f, hf⟩ := hok
    by_contra hno
    rw [Bool.not_eq_true] at hno
    rw [hno] at hf
    have hnil := (childSeccomp_refused hallow hdeny hf).2.1
    simp [Creds.takes, hnil] at hno
  · intro htakes
    rw [htakes]
    exact exists_childSeccomp (by decide) hallow hdeny

/-- Strict mode, which may always be installed, spares nobody. -/
theorem mayInstall_of_spares {asRoot : Bool} (hl : LaunchOf host logger svc l)
    (hk : BeforeFilter (effectiveOf (runsAsRoot l)) l.noNewPrivileges k) {f : Filter}
    (hf : childSeccomp auditArchX8664 (k.takes l) l = .ok f) (hspares : FilterSpares asRoot svc) :
    MayInstall (runsAsRoot l) svc := by
  refine ((exists_installed_iff hl hk).1 ⟨f, hf⟩).resolve_right fun hstrict => ?_
  rcases hspares with hoff | hmode | hprofile
  · rw [hstrict.1] at hoff
    cases hoff
  · exact hstrict.2 hmode
  · rw [hstrict.1] at hprofile
    cases hprofile.1

theorem capabilityNameToNumber_le {name : String} {cap : ℕ}
    (h : capabilityNameToNumber name = some cap) : cap ≤ capLast := by
  have hlt : cap < capabilityNames.length := (List.findIdx?_eq_some_iff_findIdx_eq.1 h).1
  have hlen : capabilityNames.length = capLast + 1 := rfl
  omega

theorem dropCapabilities_spec (hconf : Confines svc l) :
    (l.dropCapabilities = [] ↔ svc.dropCapabilities = []) ∧
      ∀ cap ∈ l.dropCapabilities, cap ≤ capLast := by
  have hmap := resolveCapabilityNumbers_eq_ok hconf.dropCapabilities
  constructor
  · rw [← List.length_eq_zero_iff, ← List.length_eq_zero_iff]
    have hlength := congrArg List.length hmap
    rw [List.length_map, List.length_map] at hlength
    rw [hlength]
  · intro cap hcap
    have hmem : some cap ∈ svc.dropCapabilities.map capabilityNameToNumber := by
      rw [hmap]
      exact List.mem_map_of_mem hcap
    obtain ⟨name, -, hname⟩ := List.mem_map.1 hmem
    exact capabilityNameToNumber_le hname

/-- The child of a launch is left alone exactly if it comes to its filter, installs it, and is left
alone from there on. -/
theorem surely_launch_iff {post : Except String Unit → Creds → Prop}
    (hpost : ∀ e k, ¬ post (.error e) k) (hl : LaunchOf host logger svc l) (hroot : root.IsRoot) :
    (childToCommand l).Surely (kernel rt fatal) post root ↔
      (runsAsRoot l ∨ svc.dropCapabilities = []) ∧
      ∃ k f, (upToFilter l).run performLaunch root = some (.ok (), k) ∧
        BeforeFilter (effectiveOf (runsAsRoot l)) l.noNewPrivileges k ∧
        childSeccomp auditArchX8664 (k.takes l) l = .ok f ∧
        (childAfterFilter l).Surely (childKernel rt fatal) (fun _ => post (.ok ()))
          (k.filtered l f) := by
  obtain ⟨hnil, hlast⟩ := dropCapabilities_spec hl.confines
  by_cases hdrop : runsAsRoot l ∨ l.dropCapabilities = []
  · obtain ⟨k, hrun, hk⟩ := run_upToFilter hroot hdrop hlast
    rw [surely_childToCommand hrun hk.filter, and_iff_right (hdrop.imp_right hnil.1)]
    constructor
    · intro h
      cases hf : childSeccomp auditArchX8664 (k.takes l) l with
      | error e =>
        rw [hf] at h
        exact absurd h (hpost e k)
      | ok f =>
        rw [hf] at h
        exact ⟨k, f, hrun, hk, hf, h⟩
    · intro h
      obtain ⟨k', f, hrun', -, hf, hrest⟩ := h
      rw [hrun] at hrun'
      cases hrun'
      rwa [hf]
  · rw [not_or, Bool.not_eq_true] at hdrop
    obtain ⟨k, hrun⟩ := exit_upToFilter hroot hdrop.1 hdrop.2
    rw [childToCommand_eq, surely_andThen_of_exit hrun]
    refine iff_of_false (hpost _ k) fun h => ?_
    obtain ⟨k', f, hrun', -⟩ := h.2
    rw [hrun] at hrun'
    cases hrun'

/-- A filter that refuses the child something is not installed, or does not leave it alone. -/
theorem not_makes_of_unharmed (hl : LaunchOf host logger svc l) (hroot : root.IsRoot)
    (h : (childToCommand l).Surely (kernel rt (Refused rt)) (fun r _ => r = .ok ()) root) :
    ∃ k f, BeforeFilter (effectiveOf (runsAsRoot l)) l.noNewPrivileges k ∧
      childSeccomp auditArchX8664 (k.takes l) l = .ok f ∧
      ¬(childLeft (runsAsRoot l) l).Makes (Refused rt f) := by
  obtain ⟨-, k, f, -, hk, hf, hrest⟩ := (surely_launch_iff (by simp) hl hroot).1 h
  refine ⟨k, f, hk, hf, not_makes_of_surely_child (fun c hc => hc) ?_ hrest⟩
  exact ⟨hk.effective, rfl⟩

end Launch

/-- The child comes to its command, and none of its calls up to it is killed or denied by its own
filter, exactly for the configurations above, whatever else the kernel answers. -/
theorem child_unharmed_iff (rt : Runtime) (host : Host) (logger : Option ℤ) (svc : Service)
    (l : ServiceLaunch) (root : Creds) (hrt : rt.Usual) (hl : LaunchOf host logger svc l)
    (hroot : root.IsRoot) :
    (childToCommand l).Surely (kernel rt (Refused rt)) (fun r _ => r = .ok ()) root ↔
      LeavesChild (runsAsRoot l) svc := by
  constructor
  · intro h
    obtain ⟨k, f, hk, hf, hquiet⟩ := not_makes_of_unharmed hl hroot h
    obtain ⟨hspares, hlandlock⟩ := (not_makes_refused_iff hrt hl hf).1 hquiet
    have hdrops := ((surely_launch_iff (by simp) hl hroot).1 h).1
    exact ⟨hdrops, mayInstall_of_spares hl hk hf hspares, hspares, hlandlock⟩
  · intro h
    have hnil := (dropCapabilities_spec hl.confines).1
    obtain ⟨k, hrun, hk⟩ := run_upToFilter hroot (h.drops.imp_right hnil.2)
      (dropCapabilities_spec hl.confines).2
    obtain ⟨f, hf⟩ := (exists_installed_iff hl hk).2 (.inl h.installs)
    have hquiet : ¬(childLeft (runsAsRoot l) l).Makes (Refused rt f) :=
      (not_makes_refused_iff hrt hl hf).2 ⟨h.spares, h.landlock⟩
    refine (surely_launch_iff (by simp) hl hroot).2 ⟨h.drops, k, f, hrun, hk, hf, ?_⟩
    have hkeep : ∀ c (k' : Creds) o (k'' : Creds),
        k'.effective = effectiveOf (runsAsRoot l) ∧ k'.filter = f → k'.Answers rt c o k'' →
          k''.effective = effectiveOf (runsAsRoot l) ∧ k''.filter = f := by
      intro c k' o k'' hk' hanswers
      rw [hanswers.state, effective_answered, filter_answered]
      exact hk'
    refine (surely_child_of_not_makes (fun _ h => h) hkeep ?_ hquiet).mono fun _ _ _ => rfl
    exact ⟨hk.effective, rfl⟩

def muslRuntime : Runtime
  | .exists_ _ => [Syscall.stat.number]
  | .createDirAll _ => [Syscall.mkdir.number]
  | .open_ _ _ => [Syscall.open_.number]
  | .setrlimit _ _ _ => [Syscall.prlimit64.number]
  | .command _ => [Syscall.rt_sigprocmask, .pipe2, .clone, .close, .read, .wait4].map Syscall.number
  | .log => [Syscall.write.number]
  | .heap => [Syscall.brk, .mmap].map Syscall.number

theorem usual_muslRuntime : muslRuntime.Usual := by
  intro op
  cases op <;> (dsimp only [muslRuntime, libCalls]; decide)

theorem exists_launch (svc : Service) (check : ServiceLaunch → Bool)
    (h : (startLaunch bareHost none svc).toOption.any check) :
    ∃ l, startLaunch bareHost none svc = .ok l ∧ check l := by
  cases hl : startLaunch bareHost none svc with
  | error e =>
    rw [hl] at h
    cases h
  | ok l =>
    rw [hl] at h
    exact ⟨l, rfl, h⟩

/-- A service under the `default` profile with a user of its own. -/
def userService : Service := { profiledService "denylist" with user := some "1000" }

theorem isFor_userService : SeccompProfile.default.IsFor userService :=
  isFor_profiledService "denylist"

/-- With a private `/tmp` it is refused the namespace, never comes to the mount that its profile
denies, and comes to its command. -/
theorem child_unharmed_profiled :
    ∃ l, startLaunch bareHost none { userService with privateTmp := true } = .ok l ∧
      (childToCommand l).Surely (kernel muslRuntime (Refused muslRuntime)) (fun r _ => r = .ok ())
        pid1Creds := by
  obtain ⟨l, hl, hcheck⟩ := exists_launch { userService with privateTmp := true }
    (fun l => !runsAsRoot l) (by decide +kernel)
  have hroot : runsAsRoot l = false := by simpa using hcheck
  refine ⟨l, hl, (child_unharmed_iff muslRuntime bareHost none _ l pid1Creds usual_muslRuntime
    (.inl hl) isRoot_pid1Creds).2 ?_⟩
  rw [hroot]
  have hmount : ¬ MayMount false { userService with privateTmp := true } := by
    rintro ⟨-, image, himage, -⟩
    cases himage
  have hdaemon : ¬ SeccompProfile.networkDaemon.IsFor { userService with privateTmp := true } := by
    intro hp
    have hsame : SeccompProfile.default.IsFor { userService with privateTmp := true } :=
      isFor_userService
    cases hp.unique hsame
  exact ⟨.inr rfl, .inr (.inr (.inr rfl)), .inr (.inr ⟨rfl, hmount, fun hp => absurd hp hdaemon⟩), nofun⟩

/-- A start of `svc`, which asks for a filter, does not surely come to its command. -/
def Trapped (svc : Service) : Prop :=
  svc.seccomp ≠ .off ∧ ∃ l, startLaunch bareHost none svc = .ok l ∧
    ¬(childToCommand l).Surely (kernel muslRuntime (Refused muslRuntime)) (fun r _ => r = .ok ())
      pid1Creds

theorem trapped_of_makes {svc : Service} (hon : svc.seccomp ≠ .off) (asRoot : Bool)
    (hstarts : (startLaunch bareHost none svc).toOption.any fun l => runsAsRoot l == asRoot)
    (hmakes : ∀ l f, Confines svc l →
      (∀ nr < 2 ^ 32, f.Allows auditArchX8664 nr ↔ LeftBy l nr) →
      (childLeft asRoot l).Makes (Refused muslRuntime f)) : Trapped svc := by
  obtain ⟨l, hl, hcheck⟩ := exists_launch svc _ hstarts
  have hroot : runsAsRoot l = asRoot := by simpa using hcheck
  refine ⟨hon, l, hl, fun h => ?_⟩
  obtain ⟨k, f, -, hf, hquiet⟩ := not_makes_of_unharmed (.inl hl) isRoot_pid1Creds h
  rw [hroot] at hquiet
  exact hquiet (hmakes l f (LaunchOf.confines (.inl hl))
    fun nr hnr => allows_number_iff (.inl hl) hf hnr)

/-- Strict mode kills `execve`, the `default` profile kills the mount of a private `/tmp`, the
allowlist denies Landlock, and a user without `no_new_privs` may not install its profile. -/
theorem child_trapped :
    Trapped { name := "web", command := "/bin/web", seccomp := .strict } ∧
    Trapped { profiledService "denylist" with privateTmp := true } ∧
    Trapped { profiledService "allowlist" with landlockPaths := ["/srv"] } ∧
    Trapped { userService with noNewPrivileges := false } := by
  have hp : SeccompProfile.default.IsFor { profiledService "denylist" with privateTmp := true } :=
    isFor_profiledService "denylist"
  refine ⟨?_, ?_, ?_, nofun, ?_⟩
  · apply trapped_of_makes (by decide) true (by decide +kernel)
    intro l f hconf hallows
    exact makes_refused_strict hconf hallows (by decide) rfl
  · apply trapped_of_makes (by decide) true (by decide +kernel)
    intro l f hconf hallows
    rw [makes_refused_profile usual_muslRuntime hconf hallows (by decide) hp]
    exact .inr (.inl (.inl rfl))
  · apply trapped_of_makes (by decide) true (by decide +kernel)
    intro l f hconf hallows
    rw [makes_refused_allowlist usual_muslRuntime hconf hallows nofun rfl]
    exact nofun
  · obtain ⟨l, hl, hcheck⟩ := exists_launch { userService with noNewPrivileges := false }
      (fun l => !runsAsRoot l) (by decide +kernel)
    have hroot : runsAsRoot l = false := by simpa using hcheck
    refine ⟨l, hl, fun h => ?_⟩
    obtain ⟨k, f, hk, hf, -⟩ := not_makes_of_unharmed (.inl hl) isRoot_pid1Creds h
    obtain (hoff | hmode | hasRoot | hnnp) | hstrict := (exists_installed_iff (.inl hl) hk).1 ⟨f, hf⟩
    · cases hoff
    · exact absurd hmode (by decide)
    · rw [hroot] at hasRoot
      cases hasRoot
    · cases hnnp
    · cases hstrict.1

end Quantra.Process
