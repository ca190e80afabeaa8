import Quantra.Services.Lifecycle

/-! `healthcheck_thread`: its steps among those of the supervisors, and its counter of failed
checks. -/
namespace Quantra.Supervisor
open Runs ProcTable Quantra.Services Quantra.Signals

/-- Where a `healthcheck_thread` is, with its `consecutive_failures`. -/
inductive HealthPc
  | sleep (failures : ℕ)
  | checkStop (failures : ℕ)
  | checkRunning (failures : ℕ)
  | loadPid (failures : ℕ)
  | probe (failures pid : ℕ)
  | check (failures pid : ℕ)
  | trip
  | done
  deriving DecidableEq, Repr

/-- One step of the thread: where it is then and, if it has returned, whether it has cleared
`running`. `healthy` is what a check finds. -/
def HealthPc.next (hc : HealthCheck) (sup : Sup) (sys : Pid1 Tag) (healthy : Bool) :
    HealthPc → Option (HealthPc × Option Bool)
  | .sleep failures => some (.checkStop failures, none)
  | .checkStop failures =>
    if sup.stopRequested then some (.done, some false) else some (.checkRunning failures, none)
  | .checkRunning failures =>
    if sup.running then some (.loadPid failures, none) else some (.done, some false)
  | .loadPid failures =>
    match sup.pid with
    | none | some 0 => some (.done, some false)
    | some pid => some (.probe failures pid, none)
  | .probe failures pid =>
    if sys.procExists pid then some (.check failures pid, none) else some (.done, some false)
  | .check failures _ =>
    if healthy then some (.sleep 0, none)
    else if hc.failureThreshold ≤ failures + 1 then some (.trip, none)
    else some (.sleep (failures + 1), none)
  | .trip => some (.done, some true)
  | .done => none

/-- `results` is no variable of the program: it records what the checks of the thread have found, the
last one first. -/
structure HealthThread where
  pc : HealthPc := .sleep 0
  results : List Bool := []
  deriving DecidableEq, Repr

namespace HealthThread

/-- The checks that have failed since one was passed. -/
def failedInARow (results : List Bool) : ℕ := (results.takeWhile (· = false)).length

/-- The results after a step. -/
def record (t : HealthThread) (healthy : Bool) : List Bool :=
  match t.pc with
  | .check .. => healthy :: t.results
  | _ => t.results

end HealthThread

/-- The supervisors with their health threads, of which a thread that has returned is still one. -/
structure Health where
  world : World
  threads : ℕ → List HealthThread

inductive HealthEvent
  | base (e : Event)
  | thread (k h : ℕ) (healthy : Bool)
  deriving DecidableEq, Repr

/-- `start` spawns a health thread, unless it could not spawn the monitor. -/
def Spawns (svc : Service) (spawned : Bool) : Prop :=
  svc.healthcheck.isSome ∧ (svc.restart = .no ∨ spawned)

instance (svc : Service) (spawned : Bool) : Decidable (Spawns svc spawned) :=
  inferInstanceAs (Decidable (_ ∧ _))

namespace Health

def init : Health := ⟨.init, fun _ => []⟩

def spawn (cfg : Config) (s : Health) : Event → ℕ → List HealthThread
  | .sup k (.spawnThreads spawned) =>
    if Spawns (cfg.services k) spawned then Function.update s.threads k (s.threads k ++ [{}])
    else s.threads
  | _ => s.threads

/-- The threads of the service that have not returned. -/
def live (s : Health) (k : ℕ) : ℕ := (s.threads k).countP fun t => t.pc ≠ .done

/-- The events of watchers are those of the watchdog here. -/
def watchdogOnly (s : Health) : Event → Bool
  | .sup k (.watcher _) => s.live k < (s.world.sups k).watchers
  | _ => true

/-- The world after a step of a thread of service `k`, which may have returned. -/
def leave (cfg : Config) (w : World) (k : ℕ) : Option Bool → Option World
  | none => some w
  | some clears => w.step cfg (.sup k (.watcher clears))

def step (cfg : Config) (s : Health) : HealthEvent → Option Health
  | .base e =>
    if s.watchdogOnly e then
      (s.world.step cfg e).map fun world => { world, threads := s.spawn cfg e }
    else none
  | .thread k h healthy =>
    match (cfg.services k).healthcheck, (s.threads k)[h]? with
    | some hc, some t =>
      (t.pc.next hc (s.world.sups k) s.world.sys healthy).bind fun (pc, left) =>
        (leave cfg s.world k left).map fun world =>
          { world
            threads := Function.update s.threads k
              ((s.threads k).set h { pc, results := t.record healthy }) }
    | _, _ => none

end Health

/-! The counter. -/

/-- The failures that the thread has counted. -/
def HealthPc.failures : HealthPc → Option ℕ
  | .sleep n | .checkStop n | .checkRunning n | .loadPid n | .probe n _ | .check n _ => some n
  | .trip | .done => none

namespace HealthThread

/-- The counter is the number of checks that have failed in a row. -/
def Counted (t : HealthThread) : Prop := ∀ n, t.pc.failures = some n → n = failedInARow t.results

theorem failedInARow_failed (results : List Bool) :
    failedInARow (false :: results) = failedInARow results + 1 := rfl

theorem failedInARow_passed (results : List Bool) : failedInARow (true :: results) = 0 := rfl

variable {hc : HealthCheck} {sup : Sup} {sys : Pid1 Tag} {healthy : Bool} {t : HealthThread}
  {pc : HealthPc} {left : Option Bool}

/-- What a step of a thread can be: a check, the report of too many failures, or one that leaves the
counter as it is. -/
theorem next_cases (h : t.pc.next hc sup sys healthy = some (pc, left)) :
    (∃ n pid, t.pc = .check n pid ∧ left = none ∧
      pc = if healthy then .sleep 0
        else if hc.failureThreshold ≤ n + 1 then .trip else .sleep (n + 1)) ∨
    (t.pc = .trip ∧ pc = .done ∧ left = some true) ∨
    (t.record healthy = t.results ∧ pc = .done ∧ left = some false) ∨
    (t.record healthy = t.results ∧ left = none ∧ pc.failures = t.pc.failures ∧
      pc.failures.isSome) := by
  obtain ⟨pc₀, results⟩ := t
  unfold HealthPc.next at h
  unfold record
  cases pc₀ with
  | sleep n =>
    cases h
    exact .inr (.inr (.inr ⟨rfl, rfl, rfl, rfl⟩))
  | checkStop n =>
    dsimp only at h ⊢
    split at h <;> cases h
    · exact .inr (.inr (.inl ⟨rfl, rfl, rfl⟩))
    · exact .inr (.inr (.inr ⟨rfl, rfl, rfl, rfl⟩))
  | checkRunning n | probe n pid =>
    dsimp only at h ⊢
    split at h <;> cases h
    · exact .inr (.inr (.inr ⟨rfl, rfl, rfl, rfl⟩))
    · exact .inr (.inr (.inl ⟨rfl, rfl, rfl⟩))
  | loadPid n =>
    dsimp only at h ⊢
    split at h <;> cases h
    · exact .inr (.inr (.inl ⟨rfl, rfl, rfl⟩))
    · exact .inr (.inr (.inl ⟨rfl, rfl, rfl⟩))
    · exact .inr (.inr (.inr ⟨rfl, rfl, rfl, rfl⟩))
  | check n pid =>
    refine .inl ⟨n, pid, rfl, ?_⟩
    dsimp only at h ⊢
    split at h
    · rename_i hhealthy
      cases h
      exact ⟨rfl, (if_pos hhealthy).symm⟩
    · rename_i hfailed
      rw [if_neg hfailed]
      split at h <;> cases h
      · exact ⟨rfl, (if_pos ‹_›).symm⟩
      · exact ⟨rfl, (if_neg ‹_›).symm⟩
  | trip =>
    cases h
    exact .inr (.inl ⟨rfl, rfl, rfl⟩)
  | done => cases h

theorem Counted.next (ht : t.Counted) (h : t.pc.next hc sup sys healthy = some (pc, left)) :
    ({ pc, results := t.record healthy } : HealthThread).Counted := by
  obtain ⟨n, pid, hpc, -, rfl⟩ | ⟨-, rfl, -⟩ | ⟨-, rfl, -⟩ | ⟨hrecord, -, hfailures, -⟩ :=
    next_cases h
  · have hn : n = failedInARow t.results := ht n (by rw [hpc]; rfl)
    have hrecord : t.record healthy = healthy :: t.results := by
      unfold record
      rw [hpc]
    rw [hrecord]
    cases healthy with
    | true =>
      intro m hm
      cases hm
      exact (failedInARow_passed t.results).symm
    | false =>
      rw [if_neg Bool.false_ne_true]
      split
      · exact fun _ hm => by cases hm
      · intro m hm
        cases hm
        rw [failedInARow_failed, ← hn]
  · exact fun _ hm => by cases hm
  · exact fun _ hm => by cases hm
  · rw [hrecord]
    intro m hm
    exact ht m (hfailures ▸ hm)

/-- Too many failures are reported exactly when there were as many. -/
theorem next_trip (ht : t.Counted) (h : t.pc.next hc sup sys healthy = some (.trip, left)) :
    ∃ n pid, t.pc = .check n pid ∧ healthy = false ∧
      hc.failureThreshold ≤ failedInARow (false :: t.results) := by
  obtain ⟨n, pid, hpc, -, htrip⟩ | ⟨-, htrip, -⟩ | ⟨-, htrip, -⟩ | ⟨-, -, -, hsome⟩ := next_cases h
  · refine ⟨n, pid, hpc, ?_⟩
    have hn : n = failedInARow t.results := ht n (by rw [hpc]; rfl)
    cases healthy with
    | true => cases htrip
    | false =>
      rw [if_neg Bool.false_ne_true] at htrip
      split at htrip
      · rw [failedInARow_failed, ← hn]
        exact ⟨rfl, ‹_›⟩
      · cases htrip
  · cases htrip
  · cases htrip
  · cases hsome

end HealthThread

namespace Health

variable {cfg : Config} {s s' : Health} {e : HealthEvent} {k : ℕ}

theorem step_base {e : Event} (hstep : s.step cfg (.base e) = some s') :
    s.watchdogOnly e ∧ s.world.step cfg e = some s'.world ∧ s'.threads = s.spawn cfg e := by
  simp only [step] at hstep
  split at hstep
  · rename_i hwatchdog
    obtain ⟨world, hworld, rfl⟩ := Option.map_eq_some_iff.1 hstep
    exact ⟨hwatchdog, hworld, rfl⟩
  · cases hstep

theorem step_thread {h : ℕ} {healthy : Bool} (hstep : s.step cfg (.thread k h healthy) = some s') :
    ∃ hc t pc left, (cfg.services k).healthcheck = some hc ∧ (s.threads k)[h]? = some t ∧
      t.pc.next hc (s.world.sups k) s.world.sys healthy = some (pc, left) ∧
      leave cfg s.world k left = some s'.world ∧
      s'.threads = Function.update s.threads k
        ((s.threads k).set h { pc, results := t.record healthy }) := by
  simp only [step] at hstep
  split at hstep
  · rename_i hc t hhc ht
    obtain ⟨⟨pc, left⟩, hnext, hleft⟩ := Option.bind_eq_some_iff.1 hstep
    obtain ⟨world, hworld, rfl⟩ := Option.map_eq_some_iff.1 hleft
    exact ⟨hc, t, pc, left, hhc, ht, hnext, hworld, rfl⟩
  · cases hstep

/-- The threads of a service after a step: old ones, a new one, and one that has moved. -/
theorem threads_step (hstep : s.step cfg e = some s') {t' : HealthThread} (ht' : t' ∈ s'.threads k) :
    t' ∈ s.threads k ∨ (t' = {} ∧ ∃ spawned, e = .base (.sup k (.spawnThreads spawned))) ∨
      ∃ h healthy hc t pc left, e = .thread k h healthy ∧ (cfg.services k).healthcheck = some hc ∧
        (s.threads k)[h]? = some t ∧
        t.pc.next hc (s.world.sups k) s.world.sys healthy = some (pc, left) ∧
        t' = { pc, results := t.record healthy } := by
  cases e with
  | base e =>
    obtain ⟨-, -, hthreads⟩ := step_base hstep
    rw [hthreads] at ht'
    unfold spawn at ht'
    split at ht'
    · rename_i k' spawned
      split at ht'
      · by_cases hk : k = k'
        · subst hk
          rw [Function.update_self] at ht'
          obtain hold | hnew := List.mem_append.1 ht'
          · exact .inl hold
          · exact .inr (.inl ⟨List.mem_singleton.1 hnew, spawned, rfl⟩)
        · rw [Function.update_of_ne hk] at ht'
          exact .inl ht'
      · exact .inl ht'
    · exact .inl ht'
  | thread k' h healthy =>
    obtain ⟨hc, t, pc, left, hhc, ht, hnext, -, hthreads⟩ := step_thread hstep
    rw [hthreads] at ht'
    by_cases hk : k = k'
    · subst hk
      rw [Function.update_self] at ht'
      obtain hold | hnew := List.mem_or_eq_of_mem_set ht'
      · exact .inl hold
      · exact .inr (.inr ⟨h, healthy, hc, t, pc, left, rfl, hhc, ht, hnext, hnew⟩)
    · rw [Function.update_of_ne hk] at ht'
      exact .inl ht'

def Counted (s : Health) : Prop := ∀ k, ∀ t ∈ s.threads k, t.Counted

theorem Counted.step (h : s.Counted) (hstep : s.step cfg e = some s') : s'.Counted := by
  intro k t' ht'
  obtain hold | ⟨rfl, -⟩ | ⟨_, _, hc, t, pc, left, -, -, ht, hnext, rfl⟩ := threads_step hstep ht'
  · exact h k t' hold
  · intro n hn
    cases hn
    rfl
  · exact (h k t (List.mem_of_getElem? ht)).next hnext

end Health

/-! A thread of the model is one of the watchers of its supervisor. -/

namespace Sup

variable {svc : Service} {host : Host} {sys : Pid1 Tag} {members : List ℕ} {sup sup' : Sup}
  {e : LocalEvent}

theorem localStep_spawnThreads {spawned : Bool}
    (h : sup.localStep svc host sys members (.spawnThreads spawned) = some sup') :
    sup' = sup.spawnThreads svc spawned := by
  simp only [localStep] at h
  split at h
  · exact (Option.some.inj h).symm
  · cases h

theorem watchers_localStep_watcher {clears : Bool}
    (h : sup.localStep svc host sys members (.watcher clears) = some sup') :
    sup'.watchers = sup.watchers - 1 := by
  simp only [localStep] at h
  split at h
  · cases h
    rfl
  · cases h

/-- Only `spawnThreads` and the return of a thread move the count of the threads. -/
theorem watchers_localStep (h : sup.localStep svc host sys members e = some sup') :
    (∃ spawned, e = .spawnThreads spawned) ∨ (∃ clears, e = .watcher clears) ∨
      sup'.watchers = sup.watchers := by
  cases Sup.localStep_acts h with
  | spawn => exact .inl ⟨_, rfl⟩
  | watcher => exact .inr (.inl ⟨_, rfl⟩)
  | _ => exact .inr (.inr rfl)

theorem le_watchers_spawnThreads (svc : Service) (sup : Sup) (spawned : Bool) :
    sup.watchers ≤ (sup.spawnThreads svc spawned).watchers := by
  unfold spawnThreads
  dsimp only
  split
  · dsimp only
    omega
  · split
    · dsimp only
      omega
    · exact le_rfl

theorem lt_watchers_spawnThreads (sup : Sup) {spawned : Bool} (h : Spawns svc spawned) :
    sup.watchers < (sup.spawnThreads svc spawned).watchers := by
  unfold spawnThreads
  dsimp only
  rw [if_pos h.1]
  split
  · dsimp only
    omega
  · rename_i hrestart
    rw [if_pos (h.2.resolve_left hrestart)]
    dsimp only
    omega

end Sup

namespace HealthThread

variable {hc : HealthCheck} {sup : Sup} {sys : Pid1 Tag} {healthy : Bool} {t : HealthThread}
  {pc : HealthPc} {left : Option Bool}

/-- A thread that makes a step had not returned, and has then if it leaves something behind. -/
theorem next_left (h : t.pc.next hc sup sys healthy = some (pc, left)) :
    t.pc ≠ .done ∧ (left.isSome → pc = .done) := by
  have hnot : t.pc ≠ .done := by
    intro hpc
    rw [hpc] at h
    cases h
  obtain ⟨_, _, -, rfl, -⟩ | ⟨-, rfl, -⟩ | ⟨-, rfl, -⟩ | ⟨-, rfl, -⟩ := next_cases h
  · exact ⟨hnot, nofun⟩
  · exact ⟨hnot, fun _ => rfl⟩
  · exact ⟨hnot, fun _ => rfl⟩
  · exact ⟨hnot, nofun⟩

theorem exists_next (hc : HealthCheck) (sup : Sup) (sys : Pid1 Tag) (healthy : Bool)
    (hpc : t.pc ≠ .done) : ∃ r, t.pc.next hc sup sys healthy = some r := by
  unfold HealthPc.next
  split
  · exact ⟨_, rfl⟩
  · split <;> exact ⟨_, rfl⟩
  · split <;> exact ⟨_, rfl⟩
  · split <;> exact ⟨_, rfl⟩
  · split <;> exact ⟨_, rfl⟩
  · split
    · exact ⟨_, rfl⟩
    · split <;> exact ⟨_, rfl⟩
  · exact ⟨_, rfl⟩
  · exact absurd ‹_› hpc

end HealthThread

namespace Health

variable {cfg : Config} {s s' : Health} {e : HealthEvent} {k : ℕ}

def Accounted (s : Health) : Prop := ∀ k, s.live k ≤ (s.world.sups k).watchers

theorem live_congr (h : s'.threads k = s.threads k) : s'.live k = s.live k := by
  unfold live
  rw [h]

/-- The threads of a service after a local event of a supervisor. -/
theorem live_local {le : LocalEvent} {j : ℕ} (hstep : s.step cfg (.base (.sup j le)) = some s') :
    s'.live k = s.live k ∨
      ∃ spawned, k = j ∧ le = .spawnThreads spawned ∧ Spawns (cfg.services k) spawned ∧
        s'.live k = s.live k + 1 := by
  obtain ⟨-, -, hthreads⟩ := step_base hstep
  have hsame : s'.threads = s.threads → s'.live k = s.live k := fun h => live_congr (congrFun h k)
  cases le with
  | spawnThreads spawned =>
    simp only [spawn] at hthreads
    split at hthreads
    · rename_i hspawns
      by_cases hk : k = j
      · subst hk
        refine .inr ⟨spawned, rfl, rfl, hspawns, ?_⟩
        unfold live
        rw [hthreads, Function.update_self, List.countP_append]
        rfl
      · refine .inl (live_congr ?_)
        rw [hthreads, Function.update_of_ne hk]
    · exact .inl (hsame hthreads)
  | _ => exact .inl (hsame hthreads)

theorem Accounted.local {le : LocalEvent} {j : ℕ} (h : s.Accounted)
    (hstep : s.step cfg (.base (.sup j le)) = some s') : s'.Accounted := by
  intro k
  obtain ⟨hwatchdog, hworld, -⟩ := step_base hstep
  obtain ⟨sup', hlocal, hsup⟩ := Option.map_eq_some_iff.1 hworld
  have hsups : s'.world.sups k = if k = j then sup' else s.world.sups k := by
    rw [← hsup]
    exact World.setSup_sups ..
  have hk := h k
  rw [hsups]
  obtain hlive | ⟨spawned, rfl, rfl, hspawns, hlive⟩ := live_local (k := k) hstep
  · split
    · rename_i heq
      subst heq
      obtain ⟨spawned, rfl⟩ | ⟨clears, rfl⟩ | hwatchers := Sup.watchers_localStep hlocal
      · rw [Sup.localStep_spawnThreads hlocal]
        have hle := Sup.le_watchers_spawnThreads (cfg.services k) (s.world.sups k) spawned
        omega
      · have hlt : s.live k < (s.world.sups k).watchers := of_decide_eq_true hwatchdog
        rw [Sup.watchers_localStep_watcher hlocal]
        omega
      · omega
    · omega
  · rw [if_pos rfl, Sup.localStep_spawnThreads hlocal]
    have hlt := Sup.lt_watchers_spawnThreads (s.world.sups k) hspawns
    omega

theorem live_pos {i : ℕ} {t : HealthThread} (ht : (s.threads k)[i]? = some t)
    (hpc : t.pc ≠ .done) : 0 < s.live k :=
  List.countP_pos_iff.2 ⟨t, List.mem_of_getElem? ht, decide_eq_true hpc⟩

/-- The threads of a service after one of them has moved. -/
theorem live_set {i : ℕ} {t t' : HealthThread} (ht : (s.threads k)[i]? = some t)
    (hpc : t.pc ≠ .done) (hthreads : s'.threads k = (s.threads k).set i t') :
    s'.live k = s.live k - 1 + if t'.pc ≠ .done then 1 else 0 := by
  obtain ⟨hi, hget⟩ := List.getElem?_eq_some_iff.1 ht
  unfold live
  rw [hthreads, List.countP_set hi, hget, if_pos (decide_eq_true hpc)]
  simp only [decide_eq_true_eq]

theorem watchers_leave {w w' : World} {clears : Bool} (h : leave cfg w k (some clears) = some w')
    (j : ℕ) :
    (w'.sups j).watchers = if j = k then (w.sups k).watchers - 1 else (w.sups j).watchers := by
  obtain ⟨sup, hsup, rfl⟩ := Option.map_eq_some_iff.1 h
  rw [World.setSup_sups, ← Sup.watchers_localStep_watcher hsup]
  split <;> rfl

theorem Accounted.thread {j i : ℕ} {healthy : Bool} (h : s.Accounted)
    (hstep : s.step cfg (.thread j i healthy) = some s') : s'.Accounted := by
  intro k
  obtain ⟨hc, t, pc, left, -, ht, hnext, hleave, hthreads⟩ := step_thread hstep
  obtain ⟨hpc, hleft⟩ := HealthThread.next_left hnext
  have hk := h k
  by_cases hkj : k = j
  · subst hkj
    have hlive := live_set ht hpc (by rw [hthreads, Function.update_self])
    have hpos := live_pos ht hpc
    cases left with
    | none =>
      rw [← Option.some.inj hleave]
      split at hlive <;> omega
    | some clears =>
      rw [if_neg (not_not_intro (hleft rfl))] at hlive
      rw [watchers_leave hleave, if_pos rfl]
      omega
  · have hlive : s'.live k = s.live k := live_congr (by rw [hthreads, Function.update_of_ne hkj])
    cases left with
    | none =>
      rw [← Option.some.inj hleave]
      omega
    | some clears =>
      rw [watchers_leave hleave, if_neg hkj]
      omega

theorem Accounted.step (h : s.Accounted) (hstep : s.step cfg e = some s') : s'.Accounted := by
  cases e with
  | thread k i healthy => exact h.thread hstep
  | base e =>
    cases e with
    | sup k le => exact h.local hstep
    | _ =>
      intro k
      obtain ⟨-, hworld, hthreads⟩ := step_base hstep
      rw [live_congr (congrFun hthreads k)]
      obtain ⟨hsame, -⟩ | ⟨_, _, -, -, hsup⟩ | ⟨_, _, _, _, -, -, hsup⟩ | ⟨le, hle, -⟩ :=
        World.step_sups hworld k
      · exact hsame ▸ h k
      · rw [hsup]
        exact h k
      · rw [hsup]
        exact h k
      · cases hle

theorem Accounted.exists_step {i : ℕ} {hc : HealthCheck} {t : HealthThread} (h : s.Accounted)
    (hhc : (cfg.services k).healthcheck = some hc) (ht : (s.threads k)[i]? = some t)
    (hpc : t.pc ≠ .done) (healthy : Bool) : ∃ s', s.step cfg (.thread k i healthy) = some s' := by
  obtain ⟨⟨pc, left⟩, hnext⟩ :=
    HealthThread.exists_next hc (s.world.sups k) s.world.sys healthy hpc
  have hwatchers : 0 < (s.world.sups k).watchers := Nat.lt_of_lt_of_le (live_pos ht hpc) (h k)
  have hleave : ∃ w, leave cfg s.world k left = some w := by
    cases left with
    | none => exact ⟨_, rfl⟩
    | some clears =>
      simp only [leave, World.step, Sup.localStep, if_pos hwatchers, Option.map_some]
      exact ⟨_, rfl⟩
  obtain ⟨w, hw⟩ := hleave
  simp only [Health.step, hhc, ht, hnext, Option.bind_some, hw, Option.map_some]
  exact ⟨_, rfl⟩

end Health

section Runs
variable {cfg : Config} (run : Trace (Health.step cfg) .init)

/-- No thread of a run is ever held up: it can make its next step whatever the others have done. -/
theorem exists_thread_step {n k i : ℕ} {hc : HealthCheck} {t : HealthThread}
    (hhc : (cfg.services k).healthcheck = some hc) (ht : ((run.state n).threads k)[i]? = some t)
    (hpc : t.pc ≠ .done) (healthy : Bool) :
    ∃ s', (run.state n).step cfg (.thread k i healthy) = some s' := by
  have hinit : (run.state 0).Accounted := by
    rw [run.start]
    exact fun _ => le_rfl
  have haccounted : (run.state n).Accounted :=
    run.invariant_from hinit (fun _ _ _ _ hstep h => h.step hstep) (Nat.zero_le n)
  exact haccounted.exists_step hhc ht hpc healthy

end Runs

end Quantra.Supervisor
