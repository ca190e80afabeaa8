import Quantra.Lib.Runs
import Quantra.Services.Manager

/-! The environment of launched processes, and the global variables of `set_env`. -/
namespace Quantra.Manager
open Quantra.Services

def basePath : String :=
  "/overlayer/syshub/bin:/overlayer/syshub/sbin:" ++
    "/overlayer/syshub/x86_64-zainium-linux-musl/bin:/overlayer/zexlib/union/bin"

/-- What `start_service_as` gives to every process. -/
def baseEnv : EnvMap := .ofPairs [("PATH", basePath), ("HOME", "/"), ("TERM", "linux")]

/-- The entries of an environment map that become strings of `envp`. -/
def envp (env : EnvMap) (key : String) : Option String :=
  (env.lookup key).filter fun value => Text.isCString (key ++ "=" ++ value)

/-- The environment with which `start_service_as` executes the command. -/
def childEnv (l : ServiceLaunch) : String → Option String := envp (baseEnv.extend (l.env.getD ∅))

/-! Launches and calls of `set_env` in sequence. -/

inductive LaunchPath
  | start
  | restart
  deriving DecidableEq, Repr

def LaunchPath.launch (host : Host) (logger : Option ℤ) (svc : Service) :
    LaunchPath → Option ServiceLaunch
  | .start => (startLaunch host logger svc).toOption
  | .restart => (restartLaunch host logger svc).toOption

/-- A launched process: the variables that its service sets, the last `set_env` of every key at
that time, and what it got. -/
structure Launched where
  configured : EnvMap
  lastSet : String → Option (Option String)
  env : String → Option String

/-- The manager with a record of the calls of `set_env` and of the launches. -/
structure EnvWorld where
  manager : ServiceManager
  lastSet : String → Option (Option String) := fun _ => none
  launches : List Launched := []

/-- A launch may be of any service: transient ones come from the caller. -/
inductive EnvEvent
  | manager (e : Event)
  | launch (path : LaunchPath) (host : Host) (logger : Option ℤ) (svc : Service)

/-- The record of `set_env`. -/
def recordSet (lastSet : String → Option (Option String)) : Event → String → Option (Option String)
  | .setEnv key value => Function.update lastSet key (some value)
  | _ => lastSet

def envStep (w : EnvWorld) : EnvEvent → Option EnvWorld
  | .manager e => (step w.manager e).map fun manager =>
    { w with manager, lastSet := recordSet w.lastSet e }
  | .launch path host logger svc =>
    (path.launch host logger svc).map fun l =>
      { w with launches := ⟨configuredEnv host svc, w.lastSet, childEnv l⟩ :: w.launches }

/-- The process has every key that its service does not set as the last `set_env` left it. -/
def Launched.FollowsGlobal (p : Launched) : Prop :=
  ∀ key value, key ∉ p.configured → p.lastSet key = some value → p.env key = value

def EnvLaw (w : EnvWorld) : Prop := ∀ p ∈ w.launches, p.FollowsGlobal

/-- The variables that `start` adds for the notify socket and the activation sockets. -/
def startGiven (host : Host) (svc : Service) : List (String × String) :=
  ((notifyServer host svc).map fun path => ("NOTIFY_SOCKET", path)).toList ++
    if (activationSockets host svc).isEmpty then []
    else buildListenEnv (activationSockets host svc)

/-- What a process gets whatever the configuration and `set_env` say. -/
def LaunchPath.given (host : Host) (svc : Service) : LaunchPath → EnvMap
  | .start => baseEnv.extend (.ofPairs (startGiven host svc))
  | .restart => baseEnv

/-- A launch at which every key touched by `set_env`, if the service does not set it, was last set
to what the process gets anyway, or removed where it gets nothing. -/
def SetToGiven (w : EnvWorld) : EnvEvent → Prop
  | .manager _ => True
  | .launch path host _ svc => ∀ key value, key ∉ configuredEnv host svc →
    w.lastSet key = some value → value = envp (path.given host svc) key

/-! Lookups in overlays. -/

theorem lookup_extend (m new : EnvMap) (key : String) :
    (m.extend new).lookup key = (new.lookup key).or (m.lookup key) := by
  unfold EnvMap.extend
  by_cases hkey : key ∈ new
  · obtain ⟨value, hvalue⟩ := Finmap.mem_iff.1 hkey
    rw [Finmap.lookup_union_left hkey, hvalue, Option.some_or]
  · rw [Finmap.lookup_union_right hkey, Finmap.lookup_eq_none.2 hkey, Option.none_or]

theorem lookup_foldl_insert (pairs : List (String × String)) (m : EnvMap) (key : String) :
    (pairs.foldl (fun m p => m.insert p.1 p.2) m).lookup key =
      ((EnvMap.ofPairs pairs).lookup key).or (m.lookup key) := by
  unfold EnvMap.ofPairs
  induction pairs generalizing m with
  | nil => simp
  | cons p ps ih =>
    rw [List.foldl_cons, List.foldl_cons, ih, ih (Finmap.insert p.1 p.2 ∅), Option.or_assoc]
    by_cases hkey : key = p.1
    · rw [hkey, Finmap.lookup_insert, Finmap.lookup_insert, Option.some_or]
    · rw [Finmap.lookup_insert_of_ne _ hkey, Finmap.lookup_insert_of_ne _ hkey,
        Finmap.lookup_empty, Option.none_or]

theorem startEnv_eq (host : Host) (svc : Service) :
    startEnv host svc =
      (startGiven host svc).foldl (fun m p => m.insert p.1 p.2) (configuredEnv host svc) := by
  unfold startEnv startGiven
  rw [List.foldl_append]
  dsimp only
  cases notifyServer host svc with
  | none =>
    split
    · rfl
    · rfl
  | some path =>
    split
    · rfl
    · rfl

theorem LaunchPath.launch_cases {path : LaunchPath} {host : Host} {logger : Option ℤ}
    {svc : Service} {l : ServiceLaunch} (h : path.launch host logger svc = some l) :
    (path = .start ∧ startLaunch host logger svc = .ok l) ∨
      (path = .restart ∧ restartLaunch host logger svc = .ok l) := by
  cases path with
  | start =>
    cases hl : startLaunch host logger svc with
    | ok l' =>
      simp only [LaunchPath.launch, hl, Except.toOption, Option.some.injEq] at h
      exact .inl ⟨rfl, by rw [h]⟩
    | error e => simp [LaunchPath.launch, hl, Except.toOption] at h
  | restart =>
    cases hl : restartLaunch host logger svc with
    | ok l' =>
      simp only [LaunchPath.launch, hl, Except.toOption, Option.some.injEq] at h
      exact .inr ⟨rfl, by rw [h]⟩
    | error e => simp [LaunchPath.launch, hl, Except.toOption] at h

/-- Apart from the configuration of the service, a process gets what every process gets. -/
theorem childEnv_of_launch {path : LaunchPath} {host : Host} {logger : Option ℤ} {svc : Service}
    {l : ServiceLaunch} (h : path.launch host logger svc = some l) {key : String}
    (hkey : key ∉ configuredEnv host svc) : childEnv l key = envp (path.given host svc) key := by
  have hnone : (configuredEnv host svc).lookup key = none := Finmap.lookup_eq_none.2 hkey
  unfold childEnv envp
  congr 1
  obtain ⟨rfl, hl⟩ | ⟨rfl, hl⟩ := LaunchPath.launch_cases h
  · rw [(startLaunch_fields hl).2.1, Option.getD_some, lookup_extend, startEnv_eq,
      lookup_foldl_insert, hnone, Option.or_none]
    exact (lookup_extend _ _ _).symm
  · rw [(restartLaunch_fields hl).2, lookup_extend, hnone, Option.none_or]
    rfl

theorem envLaw_step {w w' : EnvWorld} {e : EnvEvent} (hw : EnvLaw w) (h : envStep w e = some w') :
    EnvLaw w' ↔ SetToGiven w e := by
  cases e with
  | manager e =>
    obtain ⟨m, -, rfl⟩ := Option.map_eq_some_iff.1 h
    exact ⟨fun _ => trivial, fun _ => hw⟩
  | launch path host logger svc =>
    obtain ⟨l, hl, rfl⟩ := Option.map_eq_some_iff.1 h
    unfold EnvLaw
    rw [List.forall_mem_cons]
    constructor
    · intro hall key value hkey hset
      rw [← childEnv_of_launch hl hkey]
      exact (hall.1 key value hkey hset).symm
    · intro hok
      refine ⟨fun key value hkey hset => ?_, hw⟩
      dsimp only at hkey hset ⊢
      rw [childEnv_of_launch hl hkey]
      exact (hok key value hkey hset).symm

/-- A run in which every launched process follows `set_env`, launch by launch. -/
theorem env_law_iff (m : ServiceManager) (es : List EnvEvent) :
    Runs.Always envStep EnvLaw { manager := m } es ↔
      Runs.Meets envStep SetToGiven { manager := m } es := by
  apply Runs.always_iff_meets envLaw_step
  intro p hp
  cases hp

/-- A variable set after boot does not reach a service that is then restarted. -/
theorem set_env_ignored :
    let web : Service := { name := "web", command := "/bin/web" }
    ∃ m, startAll bareBoot true [web] (fun _ => up) (fun _ => some up) = .ok m ∧
      ¬Runs.Always envStep EnvLaw { manager := m }
        [.manager (.setEnv "LANG" (some "C")), .launch .restart bareHost none web] := by
  intro web
  obtain ⟨m, hm⟩ := exists_ok_of_isOk
    (x := startAll bareBoot true [web] (fun _ => up) (fun _ => some up)) (by decide +kernel)
  obtain ⟨l, hl⟩ := exists_ok_of_isOk (x := restartLaunch bareHost none web) (by decide +kernel)
  have hlaunch : LaunchPath.restart.launch bareHost none web = some l := by
    simp only [LaunchPath.launch, hl, Except.toOption]
  refine ⟨m, hm, fun hall => ?_⟩
  have hunset : "LANG" ∉ configuredEnv bareHost web := by decide +kernel
  have hlaw := (hall.2 _ rfl).2 _ (by rw [envStep, hlaunch]; rfl)
  have hset : childEnv l "LANG" = some "C" :=
    hlaw _ (List.mem_cons_self ..) "LANG" (some "C") hunset rfl
  rw [childEnv_of_launch hlaunch hunset] at hset
  have hgiven : envp (LaunchPath.restart.given bareHost web) "LANG" = none := by decide +kernel
  rw [hgiven] at hset
  cases hset

/-! The manager does keep what `set_env` was told; no launch reads it. -/

theorem globalEnv_activate (m : ServiceManager) (service : Service) (result : StartResult) :
    (m.activate service result).1.globalEnv = m.globalEnv := by
  unfold ServiceManager.activate
  cases result.outcome <;> rfl

theorem globalEnv_step {m m' : ServiceManager} {e : Event} (h : step m e = some m')
    {lastSet : String → Option (Option String)}
    (hm : ∀ key, m.globalEnv.lookup key = (lastSet key).join) (key : String) :
    m'.globalEnv.lookup key = (recordSet lastSet e key).join := by
  cases e with
  | setEnv key' value =>
    cases h
    unfold recordSet
    dsimp only
    by_cases hkey : key = key'
    · subst hkey
      rw [Function.update_self, Option.join_some]
      cases value with
      | none => exact Finmap.lookup_erase key m.globalEnv
      | some value => exact Finmap.lookup_insert m.globalEnv
    · rw [Function.update_of_ne hkey, ← hm key]
      cases value with
      | none => exact Finmap.lookup_erase_ne hkey
      | some value => exact Finmap.lookup_insert_of_ne m.globalEnv hkey
  | startNamed name result =>
    cases h
    unfold ServiceManager.startNamedService
    split
    · split
      · exact hm key
      · exact hm key
    · split
      · exact hm key
      · rw [globalEnv_activate]
        exact hm key
  | stopNamed name =>
    cases h
    unfold ServiceManager.stopNamedService
    split
    · exact hm key
    · exact hm key
  | transient service result =>
    cases h
    unfold ServiceManager.addAndStartTransient
    rw [globalEnv_activate]
    exact hm key
  | addDep src dst depType =>
    cases h
    unfold ServiceManager.addDep
    cases m.catalog src <;> exact hm key
  | rmDep src dst =>
    cases h
    unfold ServiceManager.rmDep
    cases m.catalog src <;> exact hm key
  | running index value =>
    cases h
    exact hm key

theorem globalEnv_envStep {w w' : EnvWorld} {e : EnvEvent} (h : envStep w e = some w')
    (hw : ∀ key, w.manager.globalEnv.lookup key = (w.lastSet key).join) (key : String) :
    w'.manager.globalEnv.lookup key = (w'.lastSet key).join := by
  cases e with
  | manager e =>
    obtain ⟨m, hm, rfl⟩ := Option.map_eq_some_iff.1 h
    exact globalEnv_step hm hw key
  | launch path host logger svc =>
    obtain ⟨l, -, rfl⟩ := Option.map_eq_some_iff.1 h
    exact hw key

theorem globalEnv_lookup_of_reach {m : ServiceManager} (hm : m.globalEnv = ∅) {w : EnvWorld}
    (h : Runs.Reach envStep (fun _ _ => True) { manager := m } w) :
    ∀ key, w.manager.globalEnv.lookup key = (w.lastSet key).join := by
  apply h.invariant (fun hw _ hstep => globalEnv_envStep hstep hw)
  intro key
  dsimp only
  rw [hm]
  rfl

end Quantra.Manager
