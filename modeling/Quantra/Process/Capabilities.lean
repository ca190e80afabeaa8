import Quantra.Process.Child

/-! Whether the hardening that a launch asks for is in force when the child of `start_service_as`
comes to its command. -/
namespace Quantra.Process
open Calls Calls.Prog Quantra.Sandbox Quantra.Services

/-! What is asked for. -/

/-- The capabilities that the two options want out of the bounding set. -/
def toDrop (cfg : ServiceLaunch) : List ℕ :=
  cfg.dropCapabilities ++ if cfg.capabilityBoundingSet = [] then []
    else (List.range (capLast + 1)).filter (· ∉ cfg.capabilityBoundingSet)

structure InForce (cfg : ServiceLaunch) (k : Creds) : Prop where
  bounding : ∀ cap ∈ toDrop cfg, cap ∉ k.bounding
  ambient : ∀ cap ∈ cfg.ambientCapabilities, cap ∈ k.ambient
  privateTmp : cfg.privateTmp → k.ownMounts ∧ privateTmpMount ∈ k.mounts
  protectSystem : cfg.protectSystem → k.ownMounts ∧ readOnlyRoot ∈ k.mounts

/-- None of the options asks for anything. -/
structure AsksNothing (cfg : ServiceLaunch) : Prop where
  drop : cfg.dropCapabilities = []
  bounding : cfg.capabilityBoundingSet = [] ∨
    ∀ cap ≤ capLast, cap ∈ cfg.capabilityBoundingSet
  ambient : cfg.ambientCapabilities = []
  privateTmp : cfg.privateTmp = false
  protectSystem : cfg.protectSystem = false

/-! After `setuid`. -/

/-- No capability is left, and nothing has come of the options. -/
structure Stripped (root k : Creds) : Prop where
  effective : k.effective = ∅
  permitted : k.permitted = ∅
  ambient : k.ambient = ∅
  bounding : k.bounding = root.bounding
  ownMounts : k.ownMounts = root.ownMounts
  mounts : k.mounts = root.mounts

theorem stripped_become (root : Creds) {uid : ℕ} (h : uid ≠ 0) :
    Stripped root (root.become uid) := by
  unfold Creds.become
  rw [if_neg h]
  exact ⟨rfl, rfl, rfl, rfl, rfl, rfl⟩

section Stripped
variable {root k k' : Creds} {rt : Runtime} {cfg : ServiceLaunch}

theorem Stripped.need (h : Stripped root k) (cap : ℕ) (granted : Creds) :
    k.need cap granted = (notPermitted, k) := by
  simp [Creds.need, h.effective]

/-- No call before the filter changes that. -/
theorem Stripped.perform (h : Stripped root k) {c : LaunchCall} {r : Outcome × Creds}
    (hr : performLaunch c k = some r) : Stripped root r.2 := by
  cases c with
  | setgroups | setgid | setuid =>
    simp only [performLaunch, h.need, Option.some.injEq] at hr
    rwa [← hr]
  | setNoNewPrivs =>
    cases hr
    exact ⟨h.effective, h.permitted, h.ambient, h.bounding, h.ownMounts, h.mounts⟩
  | ambientClearAll =>
    cases hr
    exact ⟨h.effective, h.permitted, rfl, h.bounding, h.ownMounts, h.mounts⟩
  | capbsetDrop cap =>
    simp only [performLaunch, h.need, Option.some.injEq] at hr
    rw [← hr]
    split <;> exact h
  | ambientRaise cap =>
    simp only [performLaunch, h.permitted, Finset.notMem_empty, false_and, if_false,
      Option.some.injEq] at hr
    rwa [← hr]
  | setSeccomp f =>
    simp only [performLaunch, Option.some.injEq] at hr
    rw [← hr]
    unfold Creds.setSeccomp
    split
    · split
      · exact ⟨h.effective, h.permitted, h.ambient, h.bounding, h.ownMounts, h.mounts⟩
      · exact h
    · exact ⟨h.effective, h.permitted, h.ambient, h.bounding, h.ownMounts, h.mounts⟩
  | child c => cases hr
  | _ =>
    cases hr
    exact h

/-- Nor does one behind it: what would is refused. -/
theorem Stripped.answers (h : Stripped root k) {c : ChildCall} {o : Outcome}
    (ha : k.Answers rt c o k') : k' = k := by
  have hrefused := ha.capability
  rw [h.effective] at hrefused
  rw [ha.state]
  cases o with
  | error e => rfl
  | ok n =>
    cases c with
    | unshare | mount =>
      have hno := hrefused notPermitted rfl
      cases hno
    | _ => rfl

/-- Every call may be refused. -/
theorem exists_answer (rt : Runtime) (k : Creds) (c : ChildCall) :
    ∃ o k', k.Answers rt c o k' := by
  refine ⟨notPermitted, k, fun _ => rfl, fun o' ho' => ?_, rfl⟩
  unfold refusedTo at ho'
  split at ho'
  · split at ho' <;> cases ho'
    rfl
  · split at ho' <;> cases ho'
    rfl
  · split at ho' <;> cases ho'
    rfl
  · cases ho'

theorem stripped_upToFilter (hroot : root.IsRoot) {uid : ℕ} (huid : cfg.uid = some uid)
    (hne : uid ≠ 0) (hrun : (upToFilter cfg).run performLaunch root = some (.ok (), k)) :
    Stripped root k := by
  unfold upToFilter at hrun
  rw [run_andThen, run_enterSession hroot, huid, Option.bind_some] at hrun
  dsimp only [Creds.asUser] at hrun
  have hkept : ∀ c (s : Creds) (r : Outcome × Creds), Stripped root s →
      performLaunch c s = some r → Stripped root r.2 := fun c s r hs hr => hs.perform hr
  exact run_invariant hkept (stripped_become root hne) hrun

end Stripped

section Hardening
variable {rt : Runtime} {host : Host} {logger : Option ℤ} {svc : Service} {l : ServiceLaunch}
  {root k : Creds} {uid : ℕ}

theorem runsAsRoot_eq_false (huid : l.uid = some uid) (hne : uid ≠ 0) : runsAsRoot l = false := by
  simp [runsAsRoot, huid, hne]

/-- A child without capabilities has in force what was not asked for. -/
theorem inForce_iff (hroot : root.IsRoot) (hk : Stripped root k) (hdrop : l.dropCapabilities = []) :
    InForce l k ↔ AsksNothing l := by
  constructor
  · intro hforce
    refine ⟨hdrop, ?_, ?_, ?_, ?_⟩
    · by_contra hbounding
      rw [not_or, not_forall] at hbounding
      obtain ⟨hset, cap, hcap⟩ := hbounding
      rw [Classical.not_imp] at hcap
      have hmem : cap ∈ toDrop l := by
        simp [toDrop, hset, hcap.2, Nat.lt_succ_of_le hcap.1]
      refine hforce.bounding cap hmem ?_
      rw [hk.bounding, hroot.bounding]
      exact Finset.mem_range.2 (Nat.lt_succ_of_le hcap.1)
    · refine List.eq_nil_iff_forall_not_mem.2 fun cap hcap => ?_
      have hraised := hforce.ambient cap hcap
      rw [hk.ambient] at hraised
      exact Finset.notMem_empty cap hraised
    · by_contra htmp
      have hmounted := (hforce.privateTmp (by simpa using htmp)).2
      rw [hk.mounts, hroot.mounts] at hmounted
      cases hmounted
    · by_contra hsystem
      have hmounted := (hforce.protectSystem (by simpa using hsystem)).2
      rw [hk.mounts, hroot.mounts] at hmounted
      cases hmounted
  · intro hasks
    refine ⟨fun cap hcap => ?_, fun cap hcap => ?_, fun htmp => ?_, fun hsystem => ?_⟩
    · rcases hasks.bounding with hset | hset
      · simp [toDrop, hasks.drop, hset] at hcap
      · simp only [toDrop, hasks.drop, List.nil_append, List.mem_ite_nil_left, List.mem_filter,
          List.mem_range, decide_eq_true_eq] at hcap
        exact absurd (hset cap (Nat.le_of_lt_succ hcap.2.1)) hcap.2.2
    · rw [hasks.ambient] at hcap
      cases hcap
    · rw [hasks.privateTmp] at htmp
      cases htmp
    · rw [hasks.protectSystem] at hsystem
      cases hsystem

/-- What a child that surely has its hardening in force has come through. -/
theorem asksNothing_of_surely (hl : LaunchOf host logger svc l) (hroot : root.IsRoot)
    (huid : l.uid = some uid) (hne : uid ≠ 0)
    (h : (childToCommand l).Surely (kernel rt (Killed rt)) (fun r k => r = .ok () ∧ InForce l k)
      root) : AsksNothing l := by
  obtain ⟨hdrop, k, f, hrun, -, -, hrest⟩ := (surely_launch_iff (by simp) hl hroot).1 h
  rw [runsAsRoot_eq_false huid hne, ← (dropCapabilities_spec hl.confines).1] at hdrop
  have hk := stripped_upToFilter hroot huid hne hrun
  have hinstalled : Stripped root (k.filtered l f) :=
    ⟨hk.effective, hk.permitted, hk.ambient, hk.bounding, hk.ownMounts, hk.mounts⟩
  have hanswer : ∀ c s, Stripped root s →
      ∃ o s', (childKernel rt (Killed rt)).answers c s o s' ∧ Stripped root s' := by
    intro c s hs
    obtain ⟨o, s', ha⟩ := exists_answer rt s c
    refine ⟨o, s', ha, ?_⟩
    rwa [hs.answers ha]
  obtain ⟨-, k', ⟨-, hforce⟩, hk'⟩ := hrest.exists_return hanswer hinstalled
  exact (inForce_iff hroot hk' (hdrop.resolve_left nofun)).1 hforce

end Hardening

/-- The child of an unprivileged service surely comes to its command with what its launch asks for
exactly if the launch asks for nothing, and the filter of the service can be installed and kills
nothing of what is left to be done. -/
theorem hardening_in_force_iff (rt : Runtime) (host : Host) (logger : Option ℤ) (svc : Service)
    (l : ServiceLaunch) (root : Creds) (uid : ℕ) (hrt : rt.Usual)
    (hl : LaunchOf host logger svc l) (hroot : root.IsRoot) (huid : l.uid = some uid)
    (hne : uid ≠ 0) :
    (childToCommand l).Surely (kernel rt (Killed rt)) (fun r k => r = .ok () ∧ InForce l k) root ↔
      AsksNothing l ∧ MayInstall false svc ∧ FilterSpares false svc := by
  have hbare := runsAsRoot_eq_false huid hne
  constructor
  · intro h
    obtain ⟨-, k, f, hrun, hk, hf, hrest⟩ := (surely_launch_iff (by simp) hl hroot).1 h
    have heffective := hk.effective
    rw [hbare] at heffective
    have hspares : FilterSpares false svc := by
      by_cases hnil : l.seccompAllowlist = []
      · rw [← not_makes_killed_iff hrt hl hf]
        refine not_makes_of_surely_child (fun c hc => ?_) ?_ hrest
        · exact (killed_iff hrt hl hf c).2 ⟨hnil, hc⟩
        · exact ⟨heffective, rfl⟩
      · rw [allowlist_eq_nil_iff hl.confines, not_or, not_not] at hnil
        exact .inr (.inl hnil.1)
    have hinstalls := mayInstall_of_spares hl hk hf hspares
    rw [hbare] at hinstalls
    exact ⟨asksNothing_of_surely hl hroot huid hne h, hinstalls, hspares⟩
  · rintro ⟨hasks, hinstalls, hspares⟩
    obtain ⟨hnil, hlast⟩ := dropCapabilities_spec hl.confines
    obtain ⟨k, hrun, hk⟩ := run_upToFilter hroot (.inr hasks.drop) hlast
    rw [← hbare] at hinstalls
    obtain ⟨f, hf⟩ := (exists_installed_iff hl hk).2 (.inl hinstalls)
    have hstripped := stripped_upToFilter hroot huid hne hrun
    have hquiet : ¬(childLeft false l).Makes (Killed rt f) := (not_makes_killed_iff hrt hl hf).2 hspares
    refine (surely_launch_iff (by simp) hl hroot).2 ⟨.inr (hnil.1 hasks.drop), k, f, hrun, hk, hf, ?_⟩
    have hkeep : ∀ c (k' : Creds) o (k'' : Creds), Stripped root k' ∧ k'.filter = f →
        k'.Answers rt c o k'' → Stripped root k'' ∧ k''.filter = f := by
      intro c k' o k'' hk' hanswers
      rwa [hk'.1.answers hanswers]
    refine (surely_child_of_not_makes (fun k' hk' => ⟨hk'.1.effective, hk'.2⟩) hkeep ?_ hquiet).mono
      fun _ k' hk' => ⟨rfl, (inForce_iff hroot hk'.1 hasks.drop).2 hasks⟩
    exact ⟨⟨hstripped.effective, hstripped.permitted, hstripped.ambient, hstripped.bounding,
      hstripped.ownMounts, hstripped.mounts⟩, rfl⟩

/-- A service under the `default` profile that asks for nothing but its user. -/
theorem hardening_in_force_plain :
    ∃ l, startLaunch bareHost none userService = .ok l ∧ l.uid = some 1000 ∧
      (childToCommand l).Surely (kernel muslRuntime (Killed muslRuntime))
        (fun r k => r = .ok () ∧ InForce l k) pid1Creds := by
  obtain ⟨l, hl, hcheck⟩ := exists_launch userService (fun l => l.uid = some 1000 ∧
    l.capabilityBoundingSet = [] ∧ l.ambientCapabilities = []) (by decide +kernel)
  obtain ⟨huid, hbounding, hambient⟩ := of_decide_eq_true hcheck
  have hconf := LaunchOf.confines (.inl hl)
  refine ⟨l, hl, huid, (hardening_in_force_iff muslRuntime bareHost none userService l pid1Creds 1000
    usual_muslRuntime (.inl hl) isRoot_pid1Creds huid (by decide)).2 ⟨?_, .inr (.inr (.inr rfl)), ?_⟩⟩
  · exact ⟨(dropCapabilities_spec hconf).1.2 rfl, .inl hbounding, hambient, hconf.privateTmp,
      hconf.protectSystem⟩
  · have hmount : ¬ MayMount false userService := by
      rintro ⟨-, image, himage, -⟩
      cases himage
    refine .inr (.inr ⟨rfl, hmount, fun hdaemon => ?_⟩)
    cases hdaemon.unique isFor_userService

/-- A start of `svc` under a user of its own that may come to its command without what it asks
for, or not at all. -/
def Unhardened (svc : Service) : Prop :=
  ∃ l, startLaunch bareHost none svc = .ok l ∧ l.uid = some 1000 ∧
    ¬(childToCommand l).Surely (kernel muslRuntime (Killed muslRuntime))
      (fun r k => r = .ok () ∧ InForce l k) pid1Creds

/-- A capability to drop ends the child, and a private `/tmp` is not mounted. -/
theorem hardening_not_in_force :
    Unhardened { userService with dropCapabilities := ["CAP_SYS_ADMIN"] } ∧
    Unhardened { userService with privateTmp := true } := by
  constructor
  · obtain ⟨l, hl, hcheck⟩ := exists_launch
      { userService with dropCapabilities := ["CAP_SYS_ADMIN"] } (fun l => l.uid = some 1000)
      (by decide +kernel)
    have huid := of_decide_eq_true hcheck
    refine ⟨l, hl, huid, fun h => ?_⟩
    have hasks := asksNothing_of_surely (.inl hl) isRoot_pid1Creds huid (by decide) h
    cases (dropCapabilities_spec (LaunchOf.confines (.inl hl))).1.1 hasks.drop
  · obtain ⟨l, hl, hcheck⟩ := exists_launch { userService with privateTmp := true }
      (fun l => l.uid = some 1000) (by decide +kernel)
    have huid := of_decide_eq_true hcheck
    refine ⟨l, hl, huid, fun h => ?_⟩
    have hasks := asksNothing_of_surely (.inl hl) isRoot_pid1Creds huid (by decide) h
    have htmp := (LaunchOf.confines (.inl hl)).privateTmp
    rw [hasks.privateTmp] at htmp
    cases htmp

end Quantra.Process
