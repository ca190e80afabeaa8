import Quantra.Lib.Runs
import Quantra.Services.Calendar
import Quantra.Services.Manager

/-! `services/timer.rs`: the thread of a timer unit, its catch-up after downtime, and the dispatcher
that turns firings into service activations. -/
namespace Quantra.Services

open Periodic

/-- Check if a persistent timer should catch up after reboot. `stateFile` is what could be read of
the state file; the clock is read here (`now`) and again in `time_until_next` (`later`). `none` is a
panic. -/
def shouldCatchUp (stateFile : Option String) (specStr : String) (now later : ℕ) : Option Bool :=
  match stateFile with
  | none => some true
  | some text =>
    match Text.parseUnsigned (2 ^ 64) (Text.trim text) with
    | none => some false
    | some lastFired =>
      match CalendarSpec.parse specStr with
      | .ok spec => (spec.timeUntilNext later).map fun interval => decide (now - lastFired > interval)
      | .error _ => some false

/-- What catching up is for: an instant of the schedule was missed since the last firing. -/
def CatchUpExact (text specStr : String) (spec : CalendarSpec) (t now : ℕ) : Prop :=
  ∃ b, shouldCatchUp (some text) specStr now now = some b ∧
    (b = true ↔ ∃ k, t < k ∧ k ≤ now ∧ spec.Matches k)

/-- With `s` seconds since the last instant of a schedule of period `p`, the time since the last
firing is beyond both `s` and `p - s`, or beyond neither; `minutely` has 60 in the place of
`p - s`. A schedule out of range has no instants, and the last firing is to be no longer ago than
the time named next is ahead. -/
def ElapsedAgrees (spec : CalendarSpec) (t now : ℕ) : Prop :=
  let s := sinceLast spec.period spec.phase now
  if spec.minutely then now - t ≤ s ∨ 60 < now - t
  else ¬spec.Underflows now ∧
    if spec.InRange then
      now - t ≤ min s (spec.period - s) ∨ max s (spec.period - s) < now - t
    else ∃ day, spec.NextDay now day ∧ now - t ≤ day * 86400 + spec.target 0 - now

theorem shouldCatchUp_of_saved {text specStr : String} {spec : CalendarSpec} {t : ℕ}
    (hsaved : Text.parseUnsigned (2 ^ 64) (Text.trim text) = some t)
    (hparse : CalendarSpec.parse specStr = .ok spec) (now later : ℕ) :
    shouldCatchUp (some text) specStr now later =
      (spec.timeUntilNext later).map fun interval => decide (now - t > interval) := by
  unfold shouldCatchUp
  dsimp only
  rw [hsaved]
  dsimp only
  rw [hparse]

/-- Whether an instant was missed, by the time since the last one. -/
theorem missed_iff {specStr : String} {spec : CalendarSpec}
    (hparse : CalendarSpec.parse specStr = .ok spec) {t now : ℕ} (ht : t ≤ now) :
    (∃ k, t < k ∧ k ≤ now ∧ spec.Matches k) ↔
      spec.InRange ∧ sinceLast spec.period spec.phase now < now - t := by
  have hparsed : spec.Parsed := CalendarSpec.parsed_of_parse hparse
  by_cases hrange : spec.InRange
  · have hmatches := CalendarSpec.matches_iff_occurs hparsed hrange
    simp only [hmatches, exists_occurs_iff (CalendarSpec.phase_lt_period hrange) ht, hrange,
      true_and]
  · refine iff_of_false ?_ fun h => hrange h.1
    rintro ⟨k, -, -, hk⟩
    exact CalendarSpec.not_matches_of_not_inRange
      (CalendarSpec.hour_of_not_inRange hparse hrange).1 hrange k hk

/-- The answer, where there is one. -/
theorem catchUpExact_of_wait {text specStr : String} {spec : CalendarSpec} {t now wait : ℕ}
    (hsaved : Text.parseUnsigned (2 ^ 64) (Text.trim text) = some t)
    (hparse : CalendarSpec.parse specStr = .ok spec) (ht : t ≤ now)
    (hwait : spec.timeUntilNext now = some wait) :
    CatchUpExact text specStr spec t now ↔
      (wait < now - t ↔ spec.InRange ∧ sinceLast spec.period spec.phase now < now - t) := by
  unfold CatchUpExact
  rw [shouldCatchUp_of_saved hsaved hparse, missed_iff hparse ht, hwait]
  simp only [Option.map_some, Option.some.injEq, exists_eq_left', decide_eq_true_eq]

theorem catchUpExact_iff {text specStr : String} {spec : CalendarSpec} {t now : ℕ}
    (hsaved : Text.parseUnsigned (2 ^ 64) (Text.trim text) = some t)
    (hparse : CalendarSpec.parse specStr = .ok spec) (ht : t ≤ now) (hnow : now < 2 ^ 64) :
    CatchUpExact text specStr spec t now ↔ ElapsedAgrees spec t now := by
  have hparsed : spec.Parsed := CalendarSpec.parsed_of_parse hparse
  unfold ElapsedAgrees
  dsimp only
  cases hmin : spec.minutely with
  | true =>
    have hrange : spec.InRange := by
      by_contra hrange
      have hfalse := (CalendarSpec.hour_of_not_inRange hparse hrange).1
      rw [hmin] at hfalse
      cases hfalse
    have hwait : spec.timeUntilNext now = some 60 := by
      rw [CalendarSpec.timeUntilNext, if_pos hmin]
    have hlt : sinceLast spec.period spec.phase now < spec.period :=
      sinceLast_lt (CalendarSpec.phase_lt_period hrange)
    have hperiod : spec.period = 60 := by simp [CalendarSpec.period, hmin]
    rw [catchUpExact_of_wait hsaved hparse ht hwait, if_pos rfl]
    simp only [hrange, true_and]
    omega
  | false =>
    rw [if_neg Bool.false_ne_true]
    by_cases hunder : spec.Underflows now
    · have hpanic := CalendarSpec.timeUntilNext_of_underflows hparsed hmin hnow hunder
      refine iff_of_false ?_ fun h => h.1 hunder
      rintro ⟨b, hb, -⟩
      rw [shouldCatchUp_of_saved hsaved hparse, hpanic] at hb
      cases hb
    rw [and_iff_right hunder]
    by_cases hrange : spec.InRange
    · have hwait := CalendarSpec.timeUntilNext_of_inRange hparsed hrange hmin hnow
      rw [if_neg hunder] at hwait
      rw [catchUpExact_of_wait hsaved hparse ht hwait, if_pos hrange, untilNext]
      simp only [hrange, true_and]
      omega
    · obtain ⟨-, h, hh⟩ := CalendarSpec.hour_of_not_inRange hparse hrange
      obtain ⟨day, hday, hwait⟩ := CalendarSpec.timeUntilNext_of_hour hparsed hmin hh hnow hunder
      rw [catchUpExact_of_wait hsaved hparse ht hwait, if_neg hrange]
      simp only [hrange, false_and, iff_false, Nat.not_lt]
      constructor
      · exact fun hle => ⟨day, hday, hle⟩
      · rintro ⟨day', hday', hle⟩
        rwa [hday.unique hday']

/-- The daily timer of 02:30 fired on time; at 20:00 it is to fire again at once. -/
theorem not_catchUpExact_evening :
    ∃ spec, CalendarSpec.parse "02:30" = .ok spec ∧
      Text.parseUnsigned (2 ^ 64) (Text.trim "1767234600") = some 1767234600 ∧
      shouldCatchUp (some "1767234600") "02:30" 1767297600 1767297600 = some true ∧
      ¬CatchUpExact "1767234600" "02:30" spec 1767234600 1767297600 := by
  have hparse : CalendarSpec.parse "02:30" =
      .ok { hour := some 2, minute := 30, second := 0, minutely := false, weekday := none } := rfl
  have hsaved : Text.parseUnsigned (2 ^ 64) (Text.trim "1767234600") = some 1767234600 := by decide
  have hwait : shouldCatchUp (some "1767234600") "02:30" 1767297600 1767297600 = some true := by
    decide
  refine ⟨_, hparse, hsaved, hwait, ?_⟩
  rintro ⟨b, hb, hexact⟩
  rw [hwait] at hb
  cases hb
  obtain ⟨k, hk⟩ := hexact.1 rfl
  exact absurd ((missed_iff hparse (by decide)).1 ⟨k, hk⟩) (by decide)

/-- A day later it has missed one. -/
theorem catchUpExact_nextEvening :
    ∃ spec, CalendarSpec.parse "02:30" = .ok spec ∧
      CatchUpExact "1767234600" "02:30" spec 1767234600 1767384000 := by
  have hparse : CalendarSpec.parse "02:30" =
      .ok { hour := some 2, minute := 30, second := 0, minutely := false, weekday := none } := rfl
  refine ⟨_, hparse, (catchUpExact_iff (by decide) hparse (by decide) (by decide)).2 ?_⟩
  unfold ElapsedAgrees
  rw [if_neg Bool.false_ne_true, if_pos (by decide)]
  exact ⟨by decide, by decide⟩

end Quantra.Services

namespace Quantra.Timers
open Quantra.Services Quantra.Manager Runs

/-- The fields of a timer unit that its thread reads. -/
structure TimerSpec where
  name : String
  unit : String
  onBootSec : Option ℕ := none
  onCalendar : Option String := none
  onUnitActiveSec : Option ℕ := none
  persistent : Bool := false
  randomizedDelaySec : Option ℕ := none
  deriving DecidableEq, Repr

/-- Where the thread of a timer is in `run_timer`. -/
inductive Place
  | catchUp
  | boot
  | schedule
  | calendar (spec : CalendarSpec)
  | interval (secs : ℕ)
  | ended
  deriving DecidableEq, Repr

/-- What a step of the thread reads: the clock (twice, for a catch-up), the random number, and the
time it saves, if the state file can be written. -/
structure Reading where
  now : ℕ
  later : ℕ
  random : ℕ
  saves : Option ℕ

/-- Where a step leads, whether it fires, and whether it then saves the time. -/
structure Turn where
  next : Place
  fires : Bool := false
  saves : Bool := false

/-- The wait with its jitter; the sum of two durations may leave the type. `random_u64` reads
`/dev/urandom` to its end, and `random` is what it gives where there is one: a thread that waits for
the end of an endless device fires no more. -/
def jittered (timer : TimerSpec) (random wait : ℕ) : Option ℕ :=
  match timer.randomizedDelaySec with
  | some jitterMax => if jitterMax > 0 then Checked.add (2 ^ 64) wait (random % jitterMax) else some wait
  | none => some wait

/-- A pass of one of the two loops: sleep, fire, save. A panic ends the thread. -/
def pass (timer : TimerSpec) (here : Place) (random : ℕ) (wait : Option ℕ) : Turn :=
  match wait.bind (jittered timer random) with
  | some _ => { next := here, fires := true, saves := timer.persistent }
  | none => { next := .ended }

/-- `run_timer`, up to its next firing or the next branch. -/
def runTimer (timer : TimerSpec) (stateFile : Option String) (r : Reading) : Place → Option Turn
  | .catchUp =>
    match timer.persistent, timer.onCalendar with
    | true, some specStr =>
      match shouldCatchUp stateFile specStr r.now r.later with
      | some true => some { next := .boot, fires := true, saves := true }
      | some false => some { next := .boot }
      | none => some { next := .ended }
    | _, _ => some { next := .boot }
  | .boot => some { next := .schedule, fires := timer.onBootSec.isSome }
  | .schedule =>
    match timer.onCalendar, timer.onUnitActiveSec with
    | some specStr, _ =>
      match CalendarSpec.parse specStr with
      | .ok spec => some { next := .calendar spec }
      | .error _ => some { next := .ended }
    | none, some secs => some { next := .interval secs }
    | none, none => some { next := .ended }
  | .calendar spec => some (pass timer (.calendar spec) r.random (spec.timeUntilNext r.now))
  | .interval secs => some (pass timer (.interval secs) r.random (some secs))
  | .ended => none

/-- The timer threads, the channel to the dispatcher and the service manager. `fired` and `applied`
keep what was done: the timers that fired, and the names that `start_named_service` was given, with
whether it knew them. -/
structure System where
  manager : ServiceManager
  threads : List Place
  files : String → Option String
  channel : List String := []
  fired : List TimerSpec := []
  applied : List (String × Bool) := []

/-- A step of a timer thread, the next activation of the dispatcher, or something that another
thread does to the manager. -/
inductive Event
  | timer (i : ℕ) (r : Reading)
  | dispatch (result : StartResult)
  | manager (e : Manager.Event)

/-- `start_named_service` knows the name. -/
def finds (m : ServiceManager) (name : String) : Bool :=
  (m.find name).isSome || (m.catalog name).isSome

def saveLastFired (files : String → Option String) (timer : TimerSpec) :
    Option ℕ → String → Option String
  | some now => Function.update files timer.name (some (toString now))
  | none => files

/-- `fire_timer`: the unit is sent to the dispatcher. -/
def System.fire (s : System) (timer : TimerSpec) : System :=
  { s with channel := s.channel ++ [timer.unit], fired := s.fired ++ [timer] }

def System.take (s : System) (i : ℕ) (timer : TimerSpec) (turn : Turn) (saves : Option ℕ) : System :=
  let s := { s with threads := s.threads.set i turn.next }
  let s := if turn.fires then s.fire timer else s
  if turn.saves then { s with files := saveLastFired s.files timer saves } else s

def step (timers : List TimerSpec) (s : System) : Event → Option System
  | .timer i r =>
    (timers[i]?).bind fun timer => (s.threads[i]?).bind fun place =>
      (runTimer timer (s.files timer.name) r place).map fun turn => s.take i timer turn r.saves
  | .dispatch result =>
    match s.channel with
    | [] => none
    | unit :: rest =>
      some { s with
        channel := rest
        manager := (s.manager.startNamedService unit result).1
        applied := s.applied ++ [(unit, finds s.manager unit)] }
  | .manager e => (Manager.step s.manager e).map fun m => { s with manager := m }

def start (timers : List TimerSpec) (m : ServiceManager) (files : String → Option String) : System where
  manager := m
  threads := timers.map fun _ => .catchUp
  files := files

/-- Only the dispatcher has to be scheduled again and again. -/
def dispatcher : Event → Option Unit
  | .dispatch _ => some ()
  | _ => none

/-- All that a step can do to the logs, the channel and the manager. -/
inductive Effect (timers : List TimerSpec) (s s' : System) : Event → Prop
  | fire {i : ℕ} {r : Reading} {timer : TimerSpec} : timer ∈ timers →
      s'.channel = s.channel ++ [timer.unit] → s'.fired = s.fired ++ [timer] →
      s'.applied = s.applied → s'.manager = s.manager → Effect timers s s' (.timer i r)
  | quiet {i : ℕ} {r : Reading} : s'.channel = s.channel → s'.fired = s.fired →
      s'.applied = s.applied → s'.manager = s.manager → Effect timers s s' (.timer i r)
  | dispatch {result : StartResult} {unit : String} : s.channel = unit :: s'.channel →
      s'.fired = s.fired → s'.applied = s.applied ++ [(unit, finds s.manager unit)] →
      s'.manager = (s.manager.startNamedService unit result).1 →
      Effect timers s s' (.dispatch result)
  | manager {e : Manager.Event} : s'.channel = s.channel → s'.fired = s.fired →
      s'.applied = s.applied → Manager.step s.manager e = some s'.manager →
      Effect timers s s' (.manager e)

theorem effect_of_step {timers : List TimerSpec} {s s' : System} {e : Event}
    (h : step timers s e = some s') : Effect timers s s' e := by
  cases e with
  | timer i r =>
    obtain ⟨timer, htimer, h⟩ := Option.bind_eq_some_iff.1 h
    obtain ⟨place, -, h⟩ := Option.bind_eq_some_iff.1 h
    obtain ⟨turn, -, rfl⟩ := Option.map_eq_some_iff.1 h
    have hmem : timer ∈ timers := List.mem_of_getElem? htimer
    cases hfires : turn.fires with
    | true =>
      refine .fire hmem ?_ ?_ ?_ ?_ <;>
      · unfold System.take
        rw [hfires]
        cases turn.saves <;> rfl
    | false =>
      refine .quiet ?_ ?_ ?_ ?_ <;>
      · unfold System.take
        rw [hfires]
        cases turn.saves <;> rfl
  | dispatch result =>
    unfold step at h
    cases hchannel : s.channel with
    | nil =>
      rw [hchannel] at h
      cases h
    | cons unit rest =>
      rw [hchannel] at h
      cases h
      exact .dispatch hchannel rfl rfl rfl
  | manager e =>
    obtain ⟨m, hm, rfl⟩ := Option.map_eq_some_iff.1 h
    exact .manager rfl rfl rfl hm

/-- What was applied and what is waiting in the channel are the firings in their order, and the
services of the catalog are known. -/
structure Ledger (timers : List TimerSpec) (known : String → Prop) (s : System) : Prop where
  timers : ∀ timer ∈ s.fired, timer ∈ timers
  ordered : s.applied.map Prod.fst ++ s.channel = s.fired.map TimerSpec.unit
  catalog : ∀ name, known name → (s.manager.catalog name).isSome
  found : ∀ p ∈ s.applied, known p.1 → p.2 = true

theorem ledger_step {timers : List TimerSpec} {known : String → Prop} {s s' : System} {e : Event}
    (hs : Ledger timers known s) (h : step timers s e = some s') : Ledger timers known s' := by
  obtain ⟨htimers, hordered, hcatalog, hfound⟩ := hs
  cases effect_of_step h with
  | @fire i r timer hmem hchannel hfired happlied hmanager =>
    refine ⟨?_, ?_, ?_, ?_⟩
    · intro timer' htimer'
      rw [hfired, List.mem_append, List.mem_singleton] at htimer'
      obtain htimer' | rfl := htimer'
      · exact htimers timer' htimer'
      · exact hmem
    · rw [hchannel, hfired, happlied, ← List.append_assoc, hordered, List.map_append]
      rfl
    · rwa [hmanager]
    · rwa [happlied]
  | quiet hchannel hfired happlied hmanager =>
    refine ⟨?_, ?_, ?_, ?_⟩
    · rwa [hfired]
    · rwa [hchannel, hfired, happlied]
    · rwa [hmanager]
    · rwa [happlied]
  | @dispatch result unit hchannel hfired happlied hmanager =>
    refine ⟨?_, ?_, ?_, ?_⟩
    · rwa [hfired]
    · rw [hchannel] at hordered
      rw [hfired, happlied, List.map_append, List.append_assoc]
      exact hordered
    · intro name hname
      rw [hmanager]
      exact catalog_isSome_step (e := .startNamed unit result) rfl (hcatalog name hname)
    · intro p hp hknown
      rw [happlied, List.mem_append, List.mem_singleton] at hp
      obtain hp | rfl := hp
      · exact hfound p hp hknown
      · show finds s.manager unit = true
        unfold finds
        rw [hcatalog unit hknown, Bool.or_true]
  | manager hchannel hfired happlied hmanager =>
    refine ⟨?_, ?_, ?_, ?_⟩
    · rwa [hfired]
    · rwa [hchannel, hfired, happlied]
    · intro name hname
      exact catalog_isSome_step hmanager (hcatalog name hname)
    · rwa [happlied]

/-- Both logs only grow. -/
theorem logs_step {timers : List TimerSpec} {s s' : System} {e : Event}
    (h : step timers s e = some s') : s.fired <+: s'.fired ∧ s.applied <+: s'.applied := by
  cases effect_of_step h with
  | fire _ _ hfired happlied _ =>
    rw [hfired, happlied]
    exact ⟨List.prefix_append _ _, List.prefix_refl _⟩
  | quiet _ hfired happlied _ =>
    rw [hfired, happlied]
    exact ⟨List.prefix_refl _, List.prefix_refl _⟩
  | dispatch _ hfired happlied _ =>
    rw [hfired, happlied]
    exact ⟨List.prefix_refl _, List.prefix_append _ _⟩
  | manager _ hfired happlied _ =>
    rw [hfired, happlied]
    exact ⟨List.prefix_refl _, List.prefix_refl _⟩

theorem getElem?_grown {α : Type*} {l l' : List α} (h : l <+: l') {i : ℕ} {a : α}
    (ha : l[i]? = some a) : l'[i]? = some a := by
  obtain ⟨rest, rfl⟩ := h
  rw [List.getElem?_append_left (List.getElem?_eq_some_iff.1 ha).1, ha]

section Run
variable {timers : List TimerSpec} {m : ServiceManager} {files : String → Option String}

theorem ledger_run (run : Trace (step timers) (start timers m files)) (n : ℕ) :
    Ledger timers (fun name => (m.catalog name).isSome) (run.state n) := by
  refine run.invariant_from ?_ (fun _ _ _ _ hstep hs => ledger_step hs hstep) (Nat.zero_le n)
  rw [run.start]
  exact ⟨fun _ h => absurd h List.not_mem_nil, rfl, fun _ h => h,
    fun _ h => absurd h List.not_mem_nil⟩

theorem logs_run (run : Trace (step timers) (start timers m files)) {n k : ℕ} (h : n ≤ k) :
    (run.state n).fired <+: (run.state k).fired ∧
      (run.state n).applied <+: (run.state k).applied := by
  refine run.invariant_from (P := fun s => (run.state n).fired <+: s.fired ∧
    (run.state n).applied <+: s.applied) ⟨List.prefix_refl _, List.prefix_refl _⟩ ?_ h
  intro k e hk hevent hstep hlogs
  exact ⟨hlogs.1.trans (logs_step hstep).1, hlogs.2.trans (logs_step hstep).2⟩

/-- Every firing gets its turn. -/
theorem applied_of_fired {run : Trace (step timers) (start timers m files)}
    (hfair : run.Fair dispatcher) {n i : ℕ} (hi : i < (run.state n).fired.length) :
    ∃ k, n ≤ k ∧ i < (run.state k).applied.length := by
  refine hfair.exceeds (a := ()) (f := fun s => s.applied.length) (fun hstep =>
    (logs_step hstep).2.length_le) ?_ fun k hk hle => ?_
  · intro s s' e hactor hstep
    cases effect_of_step hstep with
    | dispatch _ _ happlied _ => simp [happlied]
    | fire => cases hactor
    | quiet => cases hactor
    | manager => cases hactor
  · have hfired : (run.state n).fired.length ≤ (run.state k).fired.length :=
      (logs_run run hk).1.length_le
    have hordered := congrArg List.length (ledger_run run k).ordered
    rw [List.length_append, List.length_map, List.length_map] at hordered
    obtain ⟨unit, rest, hchannel⟩ : ∃ unit rest, (run.state k).channel = unit :: rest :=
      List.exists_cons_of_length_pos (by omega)
    refine ⟨.dispatch ⟨.ok (), true⟩, rfl, ?_⟩
    rw [step, hchannel]
    rfl

/-- The `i`-th activation is for the unit of the `i`-th firing. -/
theorem applied_eq {run : Trace (step timers) (start timers m files)} {k i : ℕ} {p : String × Bool}
    (hp : (run.state k).applied[i]? = some p) :
    ∃ timer, (run.state k).fired[i]? = some timer ∧ timer.unit = p.1 := by
  have hordered := (ledger_run run k).ordered
  have hlt : i < (run.state k).applied.length := (List.getElem?_eq_some_iff.1 hp).1
  have hget := congrArg (fun names => names[i]?) hordered
  simp only [List.getElem?_map] at hget
  rw [List.getElem?_append_left (by simpa using hlt), List.getElem?_map, hp] at hget
  obtain ⟨timer, htimer, hunit⟩ := Option.map_eq_some_iff.1 hget.symm
  exact ⟨timer, htimer, hunit⟩

/-- From some point on the `i`-th activation is the one of `name`, and `name` was known. -/
def Delivered (run : Trace (step timers) (start timers m files)) (i : ℕ) (name : String) : Prop :=
  ∃ k, ∀ l, k ≤ l → (run.state l).applied[i]? = some (name, true)

/-- Firings are processed in order, none is lost or processed twice, and the activation of a firing
is for the service of its timer exactly if the unit is the service's own name. -/
theorem firing_delivered_iff (target : TimerSpec → String)
    (htarget : ∀ timer ∈ timers, (m.catalog (target timer)).isSome ∧
      (timer.unit = target timer ∨ timer.unit = target timer ++ ".service"))
    (run : Trace (step timers) (start timers m files)) (hfair : run.Fair dispatcher) :
    (∀ n, (run.state n).applied.map Prod.fst ++ (run.state n).channel =
      (run.state n).fired.map TimerSpec.unit) ∧
    ∀ n i timer, (run.state n).fired[i]? = some timer →
      (Delivered run i (target timer) ↔ timer.unit = target timer) := by
  refine ⟨fun n => (ledger_run run n).ordered, fun n i timer htimer => ?_⟩
  obtain ⟨k, hk, hlt⟩ := applied_of_fired hfair (List.getElem?_eq_some_iff.1 htimer).1
  obtain ⟨⟨name, found⟩, hp⟩ : ∃ p, (run.state k).applied[i]? = some p :=
    ⟨_, List.getElem?_eq_getElem hlt⟩
  have happlied : ∀ l, k ≤ l → (run.state l).applied[i]? = some (name, found) := fun l hl =>
    getElem?_grown (logs_run run hl).2 hp
  have hname : timer.unit = name := by
    obtain ⟨timer', htimer', hunit⟩ := applied_eq hp
    rw [getElem?_grown (logs_run run hk).1 htimer] at htimer'
    cases htimer'
    exact hunit
  have hmem : timer ∈ timers := (ledger_run run n).timers timer (List.mem_of_getElem? htimer)
  constructor
  · rintro ⟨l, hl⟩
    have hboth := (hl (max k l) (Nat.le_max_right k l)).symm.trans
      (happlied (max k l) (Nat.le_max_left k l))
    cases hboth
    exact hname
  · intro hunit
    have hfound : found = true := by
      refine (ledger_run run k).found _ (List.mem_of_getElem? hp) ?_
      show (m.catalog name).isSome
      rw [← hname, hunit]
      exact (htarget timer hmem).1
    refine ⟨k, fun l hl => ?_⟩
    rw [happlied l hl, hfound, ← hunit, hname]

end Run

/-- The timer of the documentation fires once, after boot. -/
def backup (unit : String) : TimerSpec := { name := "backup", unit, onBootSec := some 300 }

def backupManager : ServiceManager where
  supervisors := []
  catalog name := if name = "backup" then some { name, command := "/bin/backup" } else none
  startedCount := 0
  failedCount := 0
  globalEnv := ∅

/-- The thread runs to its end, and the dispatcher takes what it sent. -/
def backupRun : List Event :=
  let r : Reading := ⟨1767225600, 1767225600, 0, none⟩
  [.timer 0 r, .timer 0 r, .timer 0 r, .dispatch up]

theorem exists_backupRun (unit : String) :
    ∃ run : Trace (step [backup unit]) (start [backup unit] backupManager fun _ => none),
      run.Fair dispatcher ∧ (run.state 4).fired = [backup unit] ∧
        (run.state 4).applied = [(unit, finds backupManager unit)] := by
  have hexec : (exec (step [backup unit]) (start [backup unit] backupManager fun _ => none)
    backupRun).isSome := rfl
  obtain ⟨t, ht⟩ := Option.isSome_iff_exists.1 hexec
  refine ⟨Trace.ofExec _ backupRun hexec, Trace.fair_ofExec hexec ht ?_, rfl, rfl⟩
  intro a e hactor
  cases ht
  cases e with
  | dispatch result => rfl
  | timer i r => cases hactor
  | manager e => cases hactor

theorem delivered_backup :
    ∃ run : Trace (step [backup "backup"]) (start [backup "backup"] backupManager fun _ => none),
      (run.state 4).fired = [backup "backup"] ∧ Delivered run 0 "backup" := by
  obtain ⟨run, hfair, hfired, -⟩ := exists_backupRun "backup"
  have htarget : ∀ timer ∈ [backup "backup"], (backupManager.catalog "backup").isSome ∧
      (timer.unit = "backup" ∨ timer.unit = "backup" ++ ".service") := by decide
  have hzero : (run.state 4).fired[0]? = some (backup "backup") := by
    rw [hfired]
    rfl
  exact ⟨run, hfired,
    ((firing_delivered_iff (fun _ => "backup") htarget run hfair).2 4 0 _ hzero).2 rfl⟩

/-- `backup.service` is not the name of the service, and of none. -/
theorem not_delivered_backupService :
    ∃ run : Trace (step [backup "backup.service"])
        (start [backup "backup.service"] backupManager fun _ => none),
      run.Fair dispatcher ∧ (run.state 4).fired = [backup "backup.service"] ∧
        (run.state 4).applied = [("backup.service", false)] ∧ ¬Delivered run 0 "backup" := by
  obtain ⟨run, hfair, hfired, happlied⟩ := exists_backupRun "backup.service"
  refine ⟨run, hfair, hfired, happlied, ?_⟩
  rintro ⟨k, hk⟩
  have hzero : (run.state 4).applied[0]? = some ("backup.service", false) := by
    rw [happlied]
    rfl
  have hlater := getElem?_grown (logs_run run (Nat.le_max_right k 4)).2 hzero
  rw [hk (max k 4) (Nat.le_max_left k 4)] at hlater
  exact absurd hlater (by decide)

end Quantra.Timers
