import Quantra.Process.Launching
import Mathlib.Data.Finset.Range

/-! The kernel under the child of `start_service_as`: the credentials that the child has left at
each step, and what the kernel makes of a call with them. -/
namespace Quantra.Process
open Calls Calls.Prog Quantra.Sandbox Quantra.Services

/-! Credentials. -/

def capSetgid : ℕ := 6
def capSetuid : ℕ := 7
def capSetpcap : ℕ := 8
def capSysChroot : ℕ := 18
def capSysAdmin : ℕ := 21
def capLast : ℕ := 40

def allCapabilities : Finset ℕ := Finset.range (capLast + 1)

/-- The credentials of the child, its seccomp filter, and what it has mounted in a namespace of its
own. -/
structure Creds where
  uid : ℕ
  effective : Finset ℕ
  permitted : Finset ℕ
  inheritable : Finset ℕ
  bounding : Finset ℕ
  ambient : Finset ℕ
  noNewPrivs : Bool := false
  filter : Filter := .none
  ownMounts : Bool := false
  mounts : List Mount := []

/-- Root with all capabilities, which has no filter and has not mounted anything yet. -/
structure Creds.IsRoot (k : Creds) : Prop where
  uid : k.uid = 0
  effective : k.effective = allCapabilities
  permitted : k.permitted = allCapabilities
  bounding : k.bounding = allCapabilities
  noNewPrivs : k.noNewPrivs = false
  filter : k.filter = .none
  ownMounts : k.ownMounts = false
  mounts : k.mounts = []

/-- PID 1, which has no inheritable capabilities. -/
def pid1Creds : Creds where
  uid := 0
  effective := allCapabilities
  permitted := allCapabilities
  inheritable := ∅
  bounding := allCapabilities
  ambient := ∅

theorem isRoot_pid1Creds : pid1Creds.IsRoot := ⟨rfl, rfl, rfl, rfl, rfl, rfl, rfl, rfl⟩

def notPermitted : Outcome := .error "EPERM: Operation not permitted"

def eacces : Outcome := .error "EACCES: Permission denied"

/-- A call that needs a capability, and what it makes of the credentials. -/
def Creds.need (k : Creds) (cap : ℕ) (granted : Creds) : Outcome × Creds :=
  if cap ∈ k.effective then (.ok 0, granted) else (notPermitted, k)

/-- Root that takes another uid loses its capabilities; the bounding set stays. -/
def Creds.become (k : Creds) (uid : ℕ) : Creds :=
  if uid = 0 then { k with uid } else { k with uid, effective := ∅, permitted := ∅, ambient := ∅ }

/-- `SECCOMP_MODE_FILTER` asks for `no_new_privs` or CAP_SYS_ADMIN. -/
def Creds.mayFilter (k : Creds) : Bool := k.noNewPrivs || decide (capSysAdmin ∈ k.effective)

/-! The answers of the kernel. -/

/-- `PR_SET_SECCOMP`; strict mode asks for nothing. -/
def Creds.setSeccomp (k : Creds) : Filter → Outcome × Creds
  | .program p => if k.mayFilter then (.ok 0, { k with filter := .program p }) else (eacces, k)
  | f => (.ok 0, { k with filter := f })

/-- The calls before the filter. What asks for no capability succeeds; of what comes behind the
filter more than the credentials decides. -/
def performLaunch : LaunchCall → Creds → Option (Outcome × Creds)
  | .setgroups, k | .setgid _, k => some (k.need capSetgid k)
  | .setuid uid, k => some (k.need capSetuid (k.become uid))
  | .setNoNewPrivs, k => some (.ok 0, { k with noNewPrivs := true })
  | .ambientClearAll, k => some (.ok 0, { k with ambient := ∅ })
  | .capbsetDrop cap, k =>
    some (if cap ≤ capLast then k.need capSetpcap { k with bounding := k.bounding.erase cap }
      else (einval, k))
  | .ambientRaise cap, k =>
    some (if cap ∈ k.permitted ∧ cap ∈ k.inheritable then
      (.ok 0, { k with ambient := insert cap k.ambient }) else (notPermitted, k))
  | .setSeccomp f, k => some (k.setSeccomp f)
  | .child _, _ => none
  | _, k => some (.ok 0, k)

/-- The answer to a call that asks for a capability which is not there. -/
def refusedTo (effective : Finset ℕ) : ChildCall → Option Outcome
  | .unshare _ | .mount _ => if capSysAdmin ∈ effective then none else some notPermitted
  | .chroot _ => if capSysChroot ∈ effective then none else some notPermitted
  | _ => none

/-- What a call makes of the credentials where it succeeds. -/
def Creds.after (k : Creds) : ChildCall → Creds
  | .unshare flag => { k with ownMounts := k.ownMounts || flag == .newNs }
  | .mount m => { k with mounts := m :: k.mounts }
  | _ => k

def Creds.answered (k : Creds) (c : ChildCall) : Outcome → Creds
  | .ok _ => k.after c
  | .error _ => k

/-- A call behind the filter may succeed or fail, unless the filter or a capability is in its
way. -/
structure Creds.Answers (rt : Runtime) (k : Creds) (c : ChildCall) (o : Outcome) (k' : Creds) :
    Prop where
  filter : Refused rt k.filter c → o = notPermitted
  capability : ∀ o' ∈ refusedTo k.effective c, o = o'
  state : k' = k.answered c o

/-- The kernel, where `fatal` says of which calls a filter is the end. -/
def kernel (rt : Runtime) (fatal : Filter → ChildCall → Prop) :
    System LaunchCall Outcome Creds where
  ends
    | .child c, k => fatal k.filter c
    | _, _ => False
  answers
    | .child c, k, o, k' => k.Answers rt c o k'
    | c, k, o, k' => performLaunch c k = some (o, k')

/-- The calls behind the filter. -/
def childKernel (rt : Runtime) (fatal : Filter → ChildCall → Prop) :
    System ChildCall Outcome Creds := (kernel rt fatal).behind .child

/-! Runs up to the filter. -/

section Kernel
variable {rt : Runtime} {fatal : Filter → ChildCall → Prop} {cfg : ServiceLaunch}
  {k k' : Creds} {post : Except String Unit → Creds → Prop}

theorem kernel_of_performLaunch (c : LaunchCall) (k : Creds) (r : Outcome × Creds)
    (h : performLaunch c k = some r) : ¬(kernel rt fatal).ends c k ∧
      ∀ o k', (kernel rt fatal).answers c k o k' ↔ (o, k') = r := by
  have hdet : ∀ o k', performLaunch c k = some (o, k') ↔ (o, k') = r := by
    intro o k'
    rw [h, Option.some.injEq, eq_comm]
  cases c with
  | child c => cases h
  | _ => exact ⟨id, hdet⟩

/-- A first part of the child that the credentials decide. -/
theorem surely_andThen_of_run {p q : Launching} (h : p.run performLaunch k = some (.ok (), k')) :
    (p.andThen q).Surely (kernel rt fatal) post k ↔ q.Surely (kernel rt fatal) post k' := by
  rw [surely_andThen, surely_of_run kernel_of_performLaunch h]

theorem surely_andThen_of_exit {p q : Launching} {message : String}
    (h : p.run performLaunch k = some (.error message, k')) :
    (p.andThen q).Surely (kernel rt fatal) post k ↔ post (.error message) k' := by
  rw [surely_andThen, surely_of_run kernel_of_performLaunch h]

theorem run_regardless {c : LaunchCall} {o : Outcome} (h : performLaunch c k = some (o, k')) :
    (regardless c).run performLaunch k = some (.ok (), k') := by
  simp [regardless, ask, Prog.bind, h, done]

theorem run_orExit {c : LaunchCall} {message : String} {n : ℕ}
    (h : performLaunch c k = some (.ok n, k')) :
    (orExit c message).run performLaunch k = some (.ok (), k') := by
  simp [orExit, check, ask, Prog.bind, h, done]

theorem run_orExit_error {c : LaunchCall} {message e : String}
    (h : performLaunch c k = some (.error e, k')) :
    (orExit c message).run performLaunch k = some (.error message, k') := by
  simp [orExit, check, ask, Prog.bind, h]

@[simp] theorem run_done : (done : Launching).run performLaunch k = some (.ok (), k) := rfl

/-- A step that may be left out, and that does not matter to the credentials. -/
theorem run_when {b : Bool} {p : Launching}
    (h : b → p.run performLaunch k = some (.ok (), k)) :
    (Prog.when b p).run performLaunch k = some (.ok (), k) := by
  cases b with
  | false => rfl
  | true => exact h rfl

theorem run_each {β : Type} {xs : List β} {step : β → Launching}
    (h : ∀ x ∈ xs, (step x).run performLaunch k = some (.ok (), k)) :
    (each xs step).run performLaunch k = some (.ok (), k) := by
  induction xs with
  | nil => rfl
  | cons x xs ih =>
    rw [each_cons, run_andThen, h x (List.mem_cons_self ..)]
    exact ih fun y hy => h y (List.mem_cons_of_mem x hy)

/-- A step before the others. -/
theorem run_inTurn_cons {p : Launching} {ps : List Launching}
    (h : p.run performLaunch k = some (.ok (), k')) :
    (inTurn (p :: ps)).run performLaunch k = (inTurn ps).run performLaunch k' := by
  unfold inTurn
  rw [each_cons, run_andThen]
  simp [h]

/-- Steps that all get through, whatever they make of the credentials otherwise. -/
def Passes (inv : Creds → Prop) (p : Launching) : Prop :=
  ∀ k, inv k → ∃ k', p.run performLaunch k = some (.ok (), k') ∧ inv k'

end Kernel

section Passes
variable {inv : Creds → Prop} {p : Launching} {ps : List Launching}

theorem Passes.done : Passes inv Prog.done := fun k hk => ⟨k, rfl, hk⟩

theorem Passes.when {b : Bool} (h : b → Passes inv p) : Passes inv (Prog.when b p) := by
  cases b with
  | false => exact .done
  | true => exact h rfl

theorem Passes.andThen {q : Launching} (hp : Passes inv p) (hq : Passes inv q) :
    Passes inv (p.andThen q) := by
  intro k hk
  obtain ⟨k', hrun, hk'⟩ := hp k hk
  obtain ⟨k'', hrun', hk''⟩ := hq k' hk'
  refine ⟨k'', ?_, hk''⟩
  rw [run_andThen, hrun]
  exact hrun'

theorem Passes.each {β : Type} {xs : List β} {step : β → Launching}
    (h : ∀ x ∈ xs, Passes inv (step x)) : Passes inv (Prog.each xs step) := by
  induction xs with
  | nil => exact .done
  | cons x xs ih =>
    exact (h x (List.mem_cons_self ..)).andThen (ih fun y hy => h y (List.mem_cons_of_mem x hy))

/-- Steps that end the child with a message, whatever they have made of the credentials. -/
def Exits (inv : Creds → Prop) (message : String) (p : Launching) : Prop :=
  ∀ k, inv k → ∃ k', p.run performLaunch k = some (.error message, k')

theorem Exits.andThen {message : String} (hp : Exits inv message p) (q : Launching) :
    Exits inv message (p.andThen q) := by
  intro k hk
  obtain ⟨k', hrun⟩ := hp k hk
  exact ⟨k', by rw [run_andThen, hrun]; rfl⟩

theorem Passes.exits {message : String} {q : Launching} (hp : Passes inv p)
    (hq : Exits inv message q) : Exits inv message (p.andThen q) := by
  intro k hk
  obtain ⟨k', hrun, hk'⟩ := hp k hk
  obtain ⟨k'', hrun'⟩ := hq k' hk'
  refine ⟨k'', ?_⟩
  rw [run_andThen, hrun]
  exact hrun'

theorem Passes.nil : Passes inv (inTurn []) := .done

theorem Passes.cons (hp : Passes inv p) (hps : Passes inv (inTurn ps)) :
    Passes inv (inTurn (p :: ps)) := hp.andThen hps

/-- A call whose result is not looked at. -/
theorem Passes.regardless {c : LaunchCall}
    (h : ∀ k, inv k → ∃ r, performLaunch c k = some r ∧ inv r.2) :
    Passes inv (Process.regardless c) := by
  intro k hk
  obtain ⟨r, hr, hinv⟩ := h k hk
  exact ⟨r.2, run_regardless hr, hinv⟩

theorem Passes.orExit {c : LaunchCall} {message : String}
    (h : ∀ k, inv k → ∃ n k', performLaunch c k = some (.ok n, k') ∧ inv k') :
    Passes inv (Process.orExit c message) := by
  intro k hk
  obtain ⟨n, k', hr, hinv⟩ := h k hk
  exact ⟨k', run_orExit hr, hinv⟩

end Passes

/-! The child up to its filter. -/

/-- The service is not given another uid than root's. -/
def runsAsRoot (cfg : ServiceLaunch) : Bool := cfg.uid.getD 0 == 0

def effectiveOf (asRoot : Bool) : Finset ℕ := if asRoot then allCapabilities else ∅

def Creds.asUser (k : Creds) : Option ℕ → Creds
  | none => k
  | some uid => k.become uid

/-- The steps of the child before its filter. -/
def upToFilter (cfg : ServiceLaunch) : Launching :=
  (enterSession cfg).andThen ((applyChildHardening cfg).andThen (inTurn [
    each cfg.logWriteFd.toList fun fd => regardless (.redirectOutput fd),
    each cfg.activationFds.zipIdx fun p => regardless (.passSocket p.1 (sdListenFdsStart + p.2)),
    each cfg.apparmorProfile.toList fun profile =>
      orExit (.confineNextExec profile) "[zai-init] AppArmor profile apply failed\n"]))

/-- What a child has left when it comes to its filter. -/
structure BeforeFilter (effective : Finset ℕ) (noNewPrivs : Bool) (k : Creds) : Prop where
  effective : k.effective = effective
  noNewPrivs : k.noNewPrivs = noNewPrivs
  filter : k.filter = .none

section UpToFilter
variable {rt : Runtime} {fatal : Filter → ChildCall → Prop} {cfg : ServiceLaunch}
  {root k : Creds} {effective : Finset ℕ} {nnp : Bool}

theorem run_attachOutput (k : Creds) :
    (attachOutput cfg).run performLaunch k = some (.ok (), k) := by
  unfold attachOutput
  split
  · rfl
  · exact run_when fun _ => rfl

theorem run_dropPrivileges (hroot : root.IsRoot) :
    (dropPrivileges cfg).run performLaunch root = some (.ok (), root.asUser cfg.uid) := by
  have hgroups : performLaunch .setgroups root = some (.ok 0, root) := by
    simp [performLaunch, Creds.need, hroot.effective, allCapabilities, capSetgid, capLast]
  have hgid : ∀ gid, performLaunch (.setgid gid) root = some (.ok 0, root) := fun gid => hgroups
  have hset : ∀ uid, performLaunch (.setuid uid) root = some (.ok 0, root.become uid) := by
    intro uid
    simp [performLaunch, Creds.need, hroot.effective, allCapabilities, capSetuid, capLast]
  unfold dropPrivileges
  rw [Prog.when]
  split
  · rw [run_inTurn_cons (run_orExit hgroups),
      run_inTurn_cons (run_each fun gid _ => run_orExit (hgid gid))]
    cases cfg.uid with
    | none => rfl
    | some uid => simp [inTurn, run_andThen, run_orExit (hset uid), Creds.asUser]
  · rename_i hnone
    have huid : cfg.uid = none := by
      simp only [Bool.or_eq_true, Option.isSome_iff_ne_none, not_or, not_not] at hnone
      exact hnone.2
    rw [huid]
    rfl

theorem run_enterSession (hroot : root.IsRoot) :
    (enterSession cfg).run performLaunch root = some (.ok (), root.asUser cfg.uid) := by
  unfold enterSession
  rw [run_inTurn_cons (run_orExit rfl), run_inTurn_cons (run_attachOutput root),
    run_inTurn_cons (run_orExit rfl), run_inTurn_cons (run_dropPrivileges hroot)]
  rfl

theorem beforeFilter_asUser (hroot : root.IsRoot) :
    BeforeFilter (effectiveOf (runsAsRoot cfg)) false (root.asUser cfg.uid) := by
  have hkeep : ∀ uid, (root.become uid).noNewPrivs = false ∧ (root.become uid).filter = .none := by
    intro uid
    unfold Creds.become
    split <;> exact ⟨hroot.noNewPrivs, hroot.filter⟩
  unfold runsAsRoot Creds.asUser
  cases cfg.uid with
  | none => exact ⟨hroot.effective, hroot.noNewPrivs, hroot.filter⟩
  | some uid =>
    refine ⟨?_, (hkeep uid).1, (hkeep uid).2⟩
    unfold Creds.become effectiveOf
    by_cases hzero : uid = 0
    · simp [hzero, hroot.effective]
    · simp [hzero]

/-- Calls that leave the privileges and the filter as they are. -/
theorem passes_regardless {c : LaunchCall} (h : ∀ k, ∃ o k', performLaunch c k = some (o, k') ∧
    k'.effective = k.effective ∧ k'.noNewPrivs = k.noNewPrivs ∧ k'.filter = k.filter) :
    Passes (BeforeFilter effective nnp) (regardless c) := by
  refine Passes.regardless fun k hk => ?_
  obtain ⟨o, k', hc, heffective, hnnp, hfilter⟩ := h k
  exact ⟨(o, k'), hc, heffective.trans hk.effective, hnnp.trans hk.noNewPrivs,
    hfilter.trans hk.filter⟩

theorem passes_capbsetDrop (cap : ℕ) :
    Passes (BeforeFilter effective nnp) (regardless (.capbsetDrop cap)) := by
  refine passes_regardless fun k => ?_
  simp only [performLaunch, Creds.need]
  split
  · split
    · exact ⟨_, _, rfl, rfl, rfl, rfl⟩
    · exact ⟨_, _, rfl, rfl, rfl, rfl⟩
  · exact ⟨_, _, rfl, rfl, rfl, rfl⟩

theorem passes_ambientRaise (cap : ℕ) :
    Passes (BeforeFilter effective nnp) ((ask (.ambientRaise cap)).check (fun _ => done) fun _ =>
      regardless (.report "[zai-init] ambient cap raise failed (non-fatal)\n")) := by
  intro k hk
  by_cases hcap : cap ∈ k.permitted ∧ cap ∈ k.inheritable
  · refine ⟨{ k with ambient := insert cap k.ambient }, ?_, hk.effective, hk.noNewPrivs, hk.filter⟩
    simp [ask, check, Prog.bind, performLaunch, hcap, done]
  · refine ⟨k, ?_, hk⟩
    simp [ask, check, Prog.bind, performLaunch, hcap, regardless, notPermitted, done]

theorem passes_setDumpable :
    Passes (BeforeFilter effective nnp) (Prog.when cfg.nonDumpable
      (orExit .setDumpable hardeningFailed)) :=
  .when fun _ => .orExit fun k hk => ⟨0, k, rfl, hk⟩

theorem passes_ambientClearAll :
    Passes (BeforeFilter effective nnp) (Prog.when cfg.clearAmbientCaps
      (orExit .ambientClearAll hardeningFailed)) :=
  .when fun _ => .orExit fun _ hk => ⟨0, _, rfl, hk.effective, hk.noNewPrivs, hk.filter⟩

theorem passes_boundingSet :
    Passes (BeforeFilter effective nnp) (Prog.when (cfg.capabilityBoundingSet ≠ [])
      (each ((List.range 40).filter (· ∉ cfg.capabilityBoundingSet)) fun cap =>
        regardless (.capbsetDrop cap))) :=
  .when fun _ => .each fun cap _ => passes_capbsetDrop cap

/-- Capabilities that there are may be dropped by who has CAP_SETPCAP. -/
theorem passes_drop (hcap : capSetpcap ∈ effective ∨ cfg.dropCapabilities = [])
    (hlast : ∀ cap ∈ cfg.dropCapabilities, cap ≤ capLast) :
    Passes (BeforeFilter effective nnp)
      (each cfg.dropCapabilities fun cap => orExit (.capbsetDrop cap) hardeningFailed) := by
  refine .each fun cap hmem => .orExit fun k hk => ?_
  have hsetpcap : capSetpcap ∈ k.effective := by
    rw [hk.effective]
    refine hcap.resolve_right fun hnil => ?_
    rw [hnil] at hmem
    cases hmem
  refine ⟨0, { k with bounding := k.bounding.erase cap }, ?_, hk.effective, hk.noNewPrivs, hk.filter⟩
  simp [performLaunch, Creds.need, hlast cap hmem, hsetpcap]

/-- Without it the first ends the child. -/
theorem exits_drop (hcap : capSetpcap ∉ effective) (hdrop : cfg.dropCapabilities ≠ []) :
    Exits (BeforeFilter effective nnp) hardeningFailed
      (each cfg.dropCapabilities fun cap => orExit (.capbsetDrop cap) hardeningFailed) := by
  cases hcaps : cfg.dropCapabilities with
  | nil => exact absurd hcaps hdrop
  | cons cap caps =>
    refine Exits.andThen ?_ _
    intro k hk
    refine ⟨k, ?_⟩
    have hnot : capSetpcap ∉ k.effective := by rwa [hk.effective]
    by_cases hlast : cap ≤ capLast
    · exact run_orExit_error (by simp [performLaunch, Creds.need, hlast, hnot, notPermitted]; rfl)
    · exact run_orExit_error (by simp [performLaunch, hlast, einval]; rfl)

/-- The first step of the hardening. -/
theorem run_setNoNewPrivs (h : BeforeFilter effective false k) :
    ∃ k', (Prog.when cfg.noNewPrivileges (orExit .setNoNewPrivs hardeningFailed)).run
      performLaunch k = some (.ok (), k') ∧ BeforeFilter effective cfg.noNewPrivileges k' := by
  cases cfg.noNewPrivileges with
  | false => exact ⟨k, rfl, h⟩
  | true => exact ⟨{ k with noNewPrivs := true }, rfl, h.effective, rfl, h.filter⟩

/-- The hardening behind its first step. -/
def hardenRest (cfg : ServiceLaunch) : Launching := inTurn [
  when cfg.nonDumpable (orExit .setDumpable hardeningFailed),
  when cfg.clearAmbientCaps (orExit .ambientClearAll hardeningFailed),
  when (cfg.capabilityBoundingSet ≠ [])
    (each ((List.range 40).filter (· ∉ cfg.capabilityBoundingSet)) fun cap =>
      regardless (.capbsetDrop cap)),
  each cfg.dropCapabilities fun cap => orExit (.capbsetDrop cap) hardeningFailed,
  each cfg.ambientCapabilities fun cap => (ask (.ambientRaise cap)).check (fun _ => done) fun _ =>
    regardless (.report "[zai-init] ambient cap raise failed (non-fatal)\n")]

theorem passes_hardenRest (hcap : capSetpcap ∈ effective ∨ cfg.dropCapabilities = [])
    (hlast : ∀ cap ∈ cfg.dropCapabilities, cap ≤ capLast) :
    Passes (BeforeFilter effective nnp) (hardenRest cfg) :=
  passes_setDumpable.cons <| passes_ambientClearAll.cons <| passes_boundingSet.cons <|
    (passes_drop hcap hlast).cons <| .cons (.each fun cap _ => passes_ambientRaise cap) .nil

theorem exits_hardenRest (hcap : capSetpcap ∉ effective) (hdrop : cfg.dropCapabilities ≠ []) :
    Exits (BeforeFilter effective nnp) hardeningFailed (hardenRest cfg) :=
  passes_setDumpable.exits <| passes_ambientClearAll.exits <| passes_boundingSet.exits <|
    (exits_drop hcap hdrop).andThen _

theorem run_upToFilter (hroot : root.IsRoot)
    (hcap : runsAsRoot cfg ∨ cfg.dropCapabilities = [])
    (hlast : ∀ cap ∈ cfg.dropCapabilities, cap ≤ capLast) :
    ∃ k, (upToFilter cfg).run performLaunch root = some (.ok (), k) ∧
      BeforeFilter (effectiveOf (runsAsRoot cfg)) cfg.noNewPrivileges k := by
  have hsetpcap : capSetpcap ∈ effectiveOf (runsAsRoot cfg) ∨ cfg.dropCapabilities = [] := by
    refine hcap.imp_left fun hasRoot => ?_
    rw [hasRoot]
    decide
  have hkeep : BeforeFilter (effectiveOf (runsAsRoot cfg)) false (root.asUser cfg.uid) :=
    beforeFilter_asUser hroot
  obtain ⟨k, hnnp, hk⟩ := run_setNoNewPrivs hkeep
  obtain ⟨k', hrun, hk'⟩ := passes_hardenRest hsetpcap hlast k hk
  refine ⟨k', ?_, hk'⟩
  have hhard : (applyChildHardening cfg).run performLaunch (root.asUser cfg.uid) =
      some (.ok (), k') := by
    unfold applyChildHardening
    rw [run_inTurn_cons hnnp]
    exact hrun
  unfold upToFilter
  rw [run_andThen, run_enterSession hroot, Option.bind_some, run_andThen, hhard, Option.bind_some,
    run_inTurn_cons (run_each fun fd _ => run_regardless rfl),
    run_inTurn_cons (run_each fun p _ => run_regardless rfl),
    run_inTurn_cons (run_each fun profile _ => run_orExit rfl)]
  rfl

/-- A child without root's uid that is to drop capabilities ends there. -/
theorem exit_upToFilter (hroot : root.IsRoot) (huid : runsAsRoot cfg = false)
    (hdrop : cfg.dropCapabilities ≠ []) :
    ∃ k, (upToFilter cfg).run performLaunch root = some (.error hardeningFailed, k) := by
  have hbare : BeforeFilter (effectiveOf (runsAsRoot cfg)) false (root.asUser cfg.uid) :=
    beforeFilter_asUser hroot
  rw [huid] at hbare
  obtain ⟨k, hnnp, hk⟩ := run_setNoNewPrivs hbare
  obtain ⟨k', hrun⟩ := exits_hardenRest (Finset.notMem_empty _) hdrop k hk
  refine ⟨k', ?_⟩
  have hhard : (applyChildHardening cfg).run performLaunch (root.asUser cfg.uid) =
      some (.error hardeningFailed, k') := by
    unfold applyChildHardening
    rw [run_inTurn_cons hnnp]
    exact hrun
  unfold upToFilter
  rw [run_andThen, run_enterSession hroot, Option.bind_some, run_andThen, hhard]
  rfl

end UpToFilter

/-! The filter and what comes behind it. -/

/-- The kernel lets the child install the filter of its launch; for an allowlist, `no_new_privs` is
set first. -/
def Creds.takes (k : Creds) (cfg : ServiceLaunch) : Bool :=
  k.mayFilter || !cfg.seccompAllowlist.isEmpty || cfg.seccompProfileDenylist.isEmpty

/-- The credentials with the filter of the launch. -/
def Creds.filtered (k : Creds) (cfg : ServiceLaunch) (f : Filter) : Creds :=
  { k with noNewPrivs := k.noNewPrivs || !cfg.seccompAllowlist.isEmpty, filter := f }

section Filter
variable {rt : Runtime} {fatal : Filter → ChildCall → Prop} {cfg : ServiceLaunch} {root k : Creds}
  {post : Except String Unit → Creds → Prop}

theorem run_setSeccomp (p : List Bpf.Insn) (message : String) :
    (orExit (.setSeccomp (.program p)) message).run performLaunch k = some
      (if k.mayFilter then (.ok (), { k with filter := .program p }) else (.error message, k)) := by
  cases hmay : k.mayFilter with
  | false =>
    have hrefused : performLaunch (.setSeccomp (.program p)) k = some (eacces, k) := by
      simp [performLaunch, Creds.setSeccomp, hmay]
    exact run_orExit_error hrefused
  | true =>
    have htaken : performLaunch (.setSeccomp (.program p)) k =
        some (.ok 0, { k with filter := .program p }) := by
      simp [performLaunch, Creds.setSeccomp, hmay]
    exact run_orExit htaken

/-- With `no_new_privs` an allowlist is always taken. -/
theorem run_installedAllowlist {native : UInt32} {nrs : List ℤ} (message : String) :
    ((applySeccompAllowlist native nrs).installed (regardless .setNoNewPrivs) message).run
      performLaunch k = some (match (applySeccompAllowlist native nrs).outcome true message with
      | .ok f => (.ok (), { k with noNewPrivs := true, filter := f })
      | .error e => (.error e, k)) := by
  cases happlied : applySeccompAllowlist native nrs with
  | nothing =>
    unfold applySeccompAllowlist at happlied
    split at happlied <;> cases happlied
  | refused => rfl
  | install p =>
    have hnnp : (regardless .setNoNewPrivs).run performLaunch k =
        some (.ok (), { k with noNewPrivs := true }) := run_regardless rfl
    rw [Applied.installed, run_andThen, hnnp, Option.bind_some, run_setSeccomp]
    rfl

theorem run_installedDenylist (hfilter : k.filter = .none) (a : Applied) (message : String) :
    (a.installed done message).run performLaunch k = some
      (match a.outcome k.mayFilter message with
      | .ok f => (.ok (), { k with filter := f })
      | .error e => (.error e, k)) := by
  cases a with
  | nothing =>
    have hsame : { k with filter := .none } = k := by rw [← hfilter]
    simp [Applied.installed, Applied.outcome, hsame]
  | refused => rfl
  | install p =>
    rw [Applied.installed, run_andThen, run_done, Option.bind_some, run_setSeccomp, Applied.outcome]
    cases k.mayFilter <;> rfl

theorem run_installSeccomp (hfilter : k.filter = .none) :
    (installSeccomp cfg).run performLaunch k = some
      (match childSeccomp auditArchX8664 (k.takes cfg) cfg with
      | .ok f => (.ok (), k.filtered cfg f)
      | .error e => (.error e, k)) := by
  unfold installSeccomp childSeccomp
  by_cases hallow : cfg.seccompAllowlist ≠ []
  · have hset : (!cfg.seccompAllowlist.isEmpty) = true := by simpa using hallow
    have htakes : k.takes cfg = true := by simp [Creds.takes, hset]
    have hfiltered : ∀ f, k.filtered cfg f = { k with noNewPrivs := true, filter := f } := by
      simp [Creds.filtered, hset]
    simp only [if_pos hallow, htakes, hfiltered]
    exact run_installedAllowlist _
  rw [not_ne_iff] at hallow
  have hfiltered : ∀ f, k.filtered cfg f = { k with filter := f } := by
    simp [Creds.filtered, hallow]
  simp only [hallow, ne_eq, not_true_eq_false, if_false, hfiltered]
  by_cases hdeny : cfg.seccompProfileDenylist = []
  · have htakes : k.takes cfg = true := by simp [Creds.takes, hdeny]
    simp only [hdeny, not_true_eq_false, if_false, htakes]
    cases cfg.seccompStrict with
    | false =>
      have hsame : { k with filter := .none } = k := by rw [← hfilter]
      simp [Prog.when, hsame]
    | true => rfl
  · have htakes : k.takes cfg = k.mayFilter := by
      simp [Creds.takes, hallow, hdeny]
    simp only [hdeny, not_false_eq_true, if_true, htakes]
    exact run_installedDenylist hfilter _ _

theorem childToCommand_eq (cfg : ServiceLaunch) : childToCommand cfg =
    (upToFilter cfg).andThen ((installSeccomp cfg).andThen
      ((inTurn [((confineChild cfg).mapCall .child).bind fun _ => done]).andThen
        (regardless (.child (.execve cfg.cmd cfg.args))))) := by
  unfold childToCommand serviceChild settleChild upToFilter inTurn
  simp only [each_cons, each_nil, andThen_assoc]
  rfl

theorem surely_behindFilter :
    ((inTurn [((confineChild cfg).mapCall .child).bind fun _ => done]).andThen
      (regardless (.child (.execve cfg.cmd cfg.args)))).Surely (kernel rt fatal) post k ↔
      (childAfterFilter cfg).Surely (childKernel rt fatal) (fun _ => post (.ok ())) k := by
  unfold inTurn
  rw [each_cons, each_nil, id, surely_andThen, surely_andThen, surely_bind, surely_mapCall,
    childAfterFilter, surely_bind]
  rfl

/-- The child from its filter on, and with it the whole child. -/
theorem surely_childToCommand (hrun : (upToFilter cfg).run performLaunch root = some (.ok (), k))
    (hfilter : k.filter = .none) :
    (childToCommand cfg).Surely (kernel rt fatal) post root ↔
      match childSeccomp auditArchX8664 (k.takes cfg) cfg with
      | .ok f => (childAfterFilter cfg).Surely (childKernel rt fatal) (fun _ => post (.ok ()))
          (k.filtered cfg f)
      | .error e => post (.error e) k := by
  have hinstall : (installSeccomp cfg).run performLaunch k = _ := run_installSeccomp hfilter
  rw [childToCommand_eq, surely_andThen_of_run hrun]
  cases hf : childSeccomp auditArchX8664 (k.takes cfg) cfg with
  | ok f =>
    rw [hf] at hinstall
    rw [surely_andThen_of_run hinstall]
    exact surely_behindFilter
  | error e =>
    rw [hf] at hinstall
    rw [surely_andThen_of_exit hinstall]

@[simp] theorem effective_answered (k : Creds) (c : ChildCall) (o : Outcome) :
    (k.answered c o).effective = k.effective := by
  cases o with
  | error e => rfl
  | ok n => cases c <;> rfl

@[simp] theorem filter_answered (k : Creds) (c : ChildCall) (o : Outcome) :
    (k.answered c o).filter = k.filter := by
  cases o with
  | error e => rfl
  | ok n => cases c <;> rfl

/-- Behind the filter the child is left alone unless it can come to a call that is fatal. -/
theorem surely_child_of_not_makes {effective : Finset ℕ} {f : Filter} {p : Child α}
    {inv : Creds → Prop} (hinv : ∀ k, inv k → k.effective = effective ∧ k.filter = f)
    (hkeep : ∀ c k o k', inv k → k.Answers rt c o k' → inv k') (hk : inv k)
    (h : ¬(p.given (refusedTo effective)).Makes (fatal f)) :
    p.Surely (childKernel rt fatal) (fun _ => inv) k := by
  refine surely_of_not_makes (fun c k hk hends => ?_) (fun c k o k' hk hanswers => ?_) hk h
  · have hfatal : fatal k.filter c := hends
    rwa [(hinv k hk).2] at hfatal
  · have hanswers' : k.Answers rt c o k' := hanswers
    refine ⟨hkeep c k o k' hk hanswers', fun o' ho' => hanswers'.capability o' ?_⟩
    rwa [(hinv k hk).1]

/-- Where every refused call is fatal, a child that is left alone can come to none. -/
theorem not_makes_of_surely_child {effective : Finset ℕ} {f : Filter} {p : Child α}
    {post : α → Creds → Prop} (hfatal : ∀ c, Refused rt f c → fatal f c)
    (hk : k.effective = effective ∧ k.filter = f)
    (h : p.Surely (childKernel rt fatal) post k) :
    ¬(p.given (refusedTo effective)).Makes (fatal f) := by
  let inv : Creds → Prop := fun k => k.effective = effective ∧ k.filter = f
  have hends : ∀ c k, inv k → fatal f c → (childKernel rt fatal).ends c k := by
    intro c k hk hbad
    show fatal k.filter c
    rwa [hk.2]
  have hanswer : ∀ c k o, inv k → ¬fatal f c → (∀ o' ∈ refusedTo effective c, o = o') →
      ∃ k', (childKernel rt fatal).answers c k o k' ∧ inv k' := by
    intro c k o hk hgood hknown
    refine ⟨k.answered c o, ⟨fun hrefused => absurd (hfatal c (by rwa [hk.2] at hrefused)) hgood,
      fun o' ho' => hknown o' ?_, rfl⟩, by simpa [inv] using hk⟩
    rwa [hk.1] at ho'
  exact not_makes_of_surely hends hanswer hk h

end Filter

end Quantra.Process
