import Quantra.Logind.Control

/-! `PowerManager::wait_delay`: the wait for delay inhibitors, in which the caller keeps the guards
that it came with. -/
namespace Quantra.Logind
open Runs Locks Locks.Code Locks.Machine
open PowerManager (PowerCall)

/-- The locks that guard what a call touches. The timer belongs to its thread. -/
def guards : Op → List Lock
  | .openSession .. | .uidOf _ | .seatOf _ | .vtOf _ | .getSession _ | .closeSession _
  | .activateSession _ | .assignSeat .. | .lockSession _ | .unlockSession _ | .lockAll | .unlockAll
  | .setIdleHint .. | .setLockedHint .. | .allSessions | .sessionByPid .. => [.sessions]
  | .login .. | .logout .. | .setLinger .. | .terminate .. | .getUser _ | .allUsers => [.users]
  | .addSession .. | .removeSession .. | .activateOnSeat .. | .switchToVt .. | .takeDevice ..
  | .releaseDevice .. | .getSeat _ | .allSeats => [.seats]
  | .takeInhibitor .. | .releaseInhibitor _ | .allInhibitors | .isBlocked _ | .gcDeadPids _ =>
    [.inhibitors]
  | .execute .. => [.inhibitors, .power]
  | .power | .setBrightness .. | .getBrightness .. | .scheduleShutdown ..
  | .cancelScheduledShutdown => [.power]
  | .idleTimer .. => []
  | .broadcast .. => [.bus]

/-- Every call of the program is made under its guards. -/
def Covered {α : Type} (c : Handler α) : Prop := c.Covers guards []

/-- The guards of a call are known from its name, so that it is enough to compare the lists. -/
theorem guards_subset {o : Op} {held : List Lock} (h : (guards o).all (held.contains ·) = true) :
    guards o ⊆ held := by
  intro m hm
  exact List.contains_iff_mem.1 (List.all_eq_true.1 h m hm)

section Covered
variable {α β : Type}

theorem covered_ret (a : α) : Covered (ret a) := rfl

theorem Covered.bind {c : Handler α} {f : α → Handler β} (hc : Covered c)
    (hf : ∀ a, Covered (f a)) : Covered (c >>= f) := Covers.bind hc hf

theorem covered_within {m : Lock} {o : Op} (h : guards o = [m]) : Covered (within m o) :=
  covers_guarded (by rw [h]; exact List.Subset.refl _)

theorem covered_broadcastEvent (out : Outside) (e : LogindEvent) :
    Covered (broadcastEvent out e) := covered_within rfl

theorem Covered.ite {p : Prop} [Decidable p] {c d : Handler α} (hc : Covered c) (hd : Covered d) :
    Covered (if p then c else d) := by
  split
  · exact hc
  · exact hd

/-- A section of its own, and then a pure answer. -/
theorem covered_within_ret {m : Lock} {o : Op} (h : guards o = [m]) (f : Reply o → α) :
    Covered (within m o >>= fun r => pure (f r)) :=
  (covered_within h).bind fun r => covered_ret (f r)

theorem Covered.forSome {o : Option α} {f : α → Handler Unit} (hf : ∀ a, Covered (f a)) :
    Covered (forSome o f) := by
  cases o with
  | none => exact covered_ret ()
  | some a => exact hf a

theorem Covered.ignoring {c : Handler α} (hc : Covered c) : Covered (ignoring c) :=
  hc.bind fun _ => covered_ret ()

theorem covered_openSession (peer : Uid) (out : Outside) (args : OpenSession) :
    Covered (openSession peer out args) := by
  refine (covered_ret _).ite ((covered_within rfl).bind fun sid => ?_)
  refine (covered_within rfl).bind fun r => ?_
  cases r with
  | error e => exact covered_ret _
  | ok _ =>
    exact (covered_within rfl).bind fun _ => (covered_within rfl).bind fun _ =>
      (covered_broadcastEvent _ _).bind fun _ => (covered_broadcastEvent _ _).bind fun _ =>
        covered_ret _

theorem covered_closeSession (config : LogindConfig) (peer : Uid) (out : Outside)
    (id : SessionId) : Covered (closeSession config peer out id) := by
  refine (covered_within rfl).bind fun uid => (covered_within rfl).bind fun seat => ?_
  cases uid with
  | none => exact covered_ret _
  | some uid =>
    refine (covered_ret _).ite ((covered_within rfl).bind fun session => ?_)
    refine Covered.bind (.forSome fun _ => (covered_within rfl).ignoring) fun _ => ?_
    refine Covered.bind (.forSome fun seat => covered_within rfl) fun _ => ?_
    refine (covered_within rfl).bind fun r => ?_
    cases r with
    | error e => exact covered_ret _
    | ok _ =>
      exact (covered_within rfl).bind fun _ => (covered_broadcastEvent _ _).bind fun _ =>
        covered_ret _

theorem covered_activateSession (out : Outside) (id : SessionId) :
    Covered (activateSession out id) := by
  refine (covered_within rfl).bind fun r => ?_
  cases r with
  | error e => exact covered_ret _
  | ok _ =>
    refine (covered_within rfl).bind fun seat => ?_
    refine Covered.bind (.forSome fun seat => (covered_within rfl).ignoring) fun _ => ?_
    refine (covered_within rfl).bind fun vt => ?_
    refine Covered.bind (.forSome fun n => ?_) fun _ => covered_ret _
    exact (covered_within rfl).ignoring.bind fun _ => covered_broadcastEvent _ _

theorem covered_switchTo (peer : Uid) (out : Outside) (vt : ℕ) :
    Covered (switchTo peer out vt) := by
  refine (covered_ret _).ite ⟨guards_subset rfl, fun r => ?_⟩
  cases r with
  | error e => exact ⟨by simp, rfl⟩
  | ok _ => exact ⟨guards_subset rfl, fun _ => ⟨by simp, by simp, rfl⟩⟩

theorem covered_executePower (out : Outside) (c : PowerCall) (interactive : Bool) :
    Covered (executePower out c interactive) :=
  ⟨guards_subset rfl, fun _ => ⟨by simp, by simp, rfl⟩⟩

theorem covered_setBrightness (out : Outside) (subsystem name : String) (value : ℕ) :
    Covered (setBrightness out subsystem name value) := by
  refine ⟨guards_subset rfl, fun r => ?_⟩
  cases r with
  | error e => exact ⟨by simp, rfl⟩
  | ok _ => exact ⟨guards_subset rfl, fun _ => ⟨by simp, by simp, rfl⟩⟩

theorem covered_scheduleShutdown (peer : Uid) (out : Outside) (action : String) (usec : ℕ) :
    Covered (scheduleShutdown peer out action usec) :=
  (covered_ret _).ite ⟨guards_subset rfl, fun _ => ⟨guards_subset rfl, fun _ =>
    ⟨by simp, by simp, rfl⟩⟩⟩

theorem covered_status : Covered status := by
  refine ⟨guards_subset rfl, fun _ => ⟨guards_subset rfl, fun _ => ?_⟩⟩
  refine ⟨guards_subset rfl, fun _ => ⟨guards_subset rfl, fun _ => ?_⟩⟩
  refine ⟨guards_subset rfl, fun _ => ⟨by simp, ?_⟩⟩
  exact ⟨guards_subset rfl, fun _ => ⟨by simp, by simp, by simp, by simp, by simp, rfl⟩⟩

theorem covered_dispatch (config : LogindConfig) (peer : Uid) (out : Outside) (req : Request) :
    Covered (dispatch config peer out req) := by
  cases req with
  | openSession args => exact covered_openSession peer out args
  | closeSession id => exact covered_closeSession config peer out id
  | activateSession id => exact covered_activateSession out id
  | lockSession id | unlockSession id =>
    refine (covered_within rfl).bind fun r => ?_
    cases r with
    | error e => exact covered_ret _
    | ok _ => exact (covered_broadcastEvent _ _).bind fun _ => covered_ret _
  | activateSessionOnSeat id seatId =>
    refine (covered_within rfl).bind fun r => ?_
    cases r with
    | error e => exact covered_ret _
    | ok _ => exact (covered_within rfl).ignoring.bind fun _ => covered_ret _
  | switchTo vt => exact covered_switchTo peer out vt
  | getUser uid | listUsers | setLinger uid enable | terminateUser uid =>
    exact (covered_ret _).ite (covered_within_ret rfl _)
  | takeDevice seatId devpath =>
    refine (covered_ret _).ite ((covered_within rfl).bind fun r => ?_)
    cases r <;> exact covered_ret _
  | getBrightness subsystem name =>
    refine (covered_within rfl).bind fun r => ?_
    cases r <;> exact covered_ret _
  | releaseDevice seatId devpath =>
    exact (covered_within rfl).ignoring.bind fun _ => covered_ret _
  | powerOff interactive | reboot interactive | rebootToFirmwareSetup interactive
  | halt interactive => exact (covered_ret _).ite (covered_executePower _ _ _)
  | suspend interactive | hibernate interactive | hybridSleep interactive
  | suspendThenHibernate interactive => exact covered_executePower _ _ _
  | setBrightness subsystem name value => exact covered_setBrightness out subsystem name value
  | scheduleShutdown action usec => exact covered_scheduleShutdown peer out action usec
  | status => exact covered_status
  | subscribe | version => exact covered_ret _
  | lockSessions | unlockSessions | listSessions | getSession _ | getSessionByPid _
  | setIdleHint _ _ | setLockedHint _ _ | listSeats | getSeat _ | takeInhibitor _
  | releaseInhibitor _ | listInhibitors | canPowerOff | canReboot | canSuspend | canHibernate
  | canHybridSleep | canSuspendThenHibernate | cancelScheduledShutdown =>
    exact covered_within_ret rfl _

theorem covered_handleAcpiEvent (config : LogindConfig) (e : AcpiEvent) (answers : PowerAnswers) :
    Covered (handleAcpiEvent config e answers) := by
  unfold handleAcpiEvent
  cases acpiAction config e with
  | none => exact covered_ret ()
  | some action =>
    dsimp only
    cases acpiCall action with
    | none => exact ⟨by simp, by simp, rfl⟩
    | some c => exact ⟨guards_subset rfl, fun _ => ⟨by simp, by simp, rfl⟩⟩

theorem covered_idleAct (config : LogindConfig) (answers : PowerAnswers) :
    Covered (idleAct config answers) := by
  unfold idleAct
  split
  · exact ⟨guards_subset rfl, fun _ => ⟨by simp, by simp, by simp, rfl⟩⟩
  · cases idleCall config.idleAction with
    | none => exact ⟨by simp, by simp, rfl⟩
    | some c => exact ⟨guards_subset rfl, fun _ => ⟨by simp, by simp, rfl⟩⟩

theorem covered_idleTurn (config : LogindConfig) (now : ℕ) (answers : PowerAnswers) :
    Covered (idleTurn config now answers) := by
  have htimer : ∀ allIdle now threshold, Covered (invoke (.idleTimer allIdle now threshold)) :=
    fun _ _ _ => ⟨List.Subset.refl _, fun _ => rfl⟩
  refine (covered_ret ()).ite ((covered_within rfl).bind fun blocked => ?_)
  refine (htimer _ _ _).ignoring.ite ((covered_within rfl).bind fun sessions => ?_)
  exact (htimer _ _ _).bind fun fire => (covered_idleAct config answers).ite (covered_ret ())

theorem covered_program (config : LogindConfig) (task : Task) : Covered (program config task) := by
  cases task with
  | request peer req out => exact (covered_dispatch config peer out req).ignoring
  | acpi e answers => exact covered_handleAcpiEvent config e answers
  | idle now answers => exact covered_idleTurn config now answers
  | gc pidExists => exact covered_within rfl

end Covered

/-- Check if any Delay inhibitor is held for `what`. -/
def InhibitorManager.hasDelay (im : InhibitorManager) (what : InhibitWhat) : Bool :=
  im.inhibitors.rows.any fun i => i.mode = .delay ∧ what ∈ i.what

/-- What an action waits for, once it has passed its checks. -/
def PowerManager.waitsFor (pm : PowerManager) (inh : InhibitorManager) (interactive : Bool) :
    PowerCall → Option InhibitWhat
  | .powerOff | .reboot | .halt =>
    if (checkBlock inh .shutdown interactive).isOk then some .shutdown else none
  | .rebootToFirmware => none
  | .suspend =>
    if pm.canSuspend && (pm.config.suspendKeyIgnoreInhibited ||
        (checkBlock inh .sleep interactive).isOk) then some .sleep
    else none
  | .hibernate =>
    if pm.canHibernate && (pm.config.hibernateKeyIgnoreInhibited ||
        (checkBlock inh .sleep interactive).isOk) then some .sleep
    else none
  | .hybridSleep =>
    if pm.canHybridSleep && (checkBlock inh .sleep interactive).isOk then some .sleep else none
  | .suspendThenHibernate =>
    if pm.canSuspendThenHibernate && (checkBlock inh .sleep interactive).isOk then some .sleep
    else none

/-- A thread inside `wait_delay`: when it came there, and until when it sleeps. Times are in
milliseconds. -/
structure Wait where
  what : InhibitWhat
  since : ℕ
  wake : ℕ
  deriving DecidableEq, Repr

structure Delayed where
  machine : LogindMachine
  now : ℕ
  waits : Thread → Option Wait

inductive DelayEvent
  | thread (e : Event Thread Task)
  | tick (ms : ℕ)

namespace Delayed

def init (config : LogindConfig) (boot : Boot) : Delayed where
  machine := .init config boot
  now := 0
  waits _ := none

/-- `wait_delay` returns at once without a delay inhibitor. -/
def entering (s : Delayed) (t : Thread) : Option InhibitWhat :=
  match s.machine.code t with
  | .call (.execute c interactive _) _ =>
    (s.machine.shared.power.waitsFor s.machine.shared.inhibitors interactive c).filter
      s.machine.shared.inhibitors.hasDelay
  | _ => none

/-- The loop goes on: there is time left, and an inhibitor. -/
def goesOn (s : Delayed) (w : Wait) : Bool :=
  s.now - w.since < s.machine.shared.power.config.inhibitDelayMaxSec * 1000 &&
    s.machine.shared.inhibitors.hasDelay w.what

def setWait (s : Delayed) (t : Thread) (w : Option Wait) : Delayed :=
  { s with waits := Function.update s.waits t w }

/-- A step of the threads, which ends the wait of the thread that makes it. -/
def move (config : LogindConfig) (s : Delayed) (e : Event Thread Task) : Option Delayed :=
  ((system config).step s.machine e).map fun machine => { s with machine }

/-- A thread that comes to a power or sleep action first waits; it sleeps for 200 ms at a time, and
what the action does after the wait is the step that the threads without it make. -/
def step (config : LogindConfig) (s : Delayed) : DelayEvent → Option Delayed
  | .tick ms => some { s with now := s.now + ms }
  | .thread (.start t task) => s.move config (.start t task)
  | .thread (.run t) =>
    match s.waits t with
    | some w =>
      if s.now < w.wake then none
      else if s.goesOn w then some (s.setWait t (some { w with wake := s.now + 200 }))
      else (s.setWait t none).move config (.run t)
    | none =>
      match s.entering t with
      | some what => some (s.setWait t (some ⟨what, s.now, s.now⟩))
      | none => s.move config (.run t)

/-- The thread is not out of its wait after the step. -/
def Stays (config : LogindConfig) (t : Thread) (s : Delayed) (e : DelayEvent) : Prop :=
  ∀ s', s.step config e = some s' → (s'.waits t).isSome

/-- Another connection can come to release the inhibitor before the wait of `t` has timed out. -/
def Releasable (config : LogindConfig) (s : Delayed) (t : Thread) (id : InhibitorId) : Prop :=
  ∃ n s₁ s₂ w next, .conn n ≠ t ∧ Reach (step config) (Stays config t) s s₁ ∧
    s₁.waits t = some w ∧ s₁.now - w.since < config.inhibitDelayMaxSec * 1000 ∧
    s₁.machine.code (.conn n) = .call (.releaseInhibitor id) next ∧
    s₁.step config (.thread (.run (.conn n))) = some s₂

/-- Every inhibitor that a thread waits for can be released meanwhile, and without one the wait is
over when the thread next wakes. -/
def DelayLaw (config : LogindConfig) (s : Delayed) : Prop :=
  ∀ t w, s.waits t = some w →
    (∀ i ∈ s.machine.shared.inhibitors.inhibitors.rows, i.mode = .delay → w.what ∈ i.what →
      Releasable config s t i.id) ∧
    (s.machine.shared.inhibitors.hasDelay w.what = false →
      ∀ s', s.step config (.thread (.run t)) = some s' → s'.waits t = none)

/-- No action gets past its checks while a delay inhibitor is held for it. -/
def UndelayedStep (s : Delayed) : DelayEvent → Prop
  | .thread (.run t) => s.waits t = none → s.entering t = none
  | _ => True

variable {config : LogindConfig} {s s' : Delayed} {e : DelayEvent} {t : Thread}

theorem move_cases {e : Event Thread Task} (h : s.move config e = some s') :
    (system config).step s.machine e = some s'.machine ∧ s'.waits = s.waits := by
  obtain ⟨M, hM, rfl⟩ := Option.map_eq_some_iff.1 h
  exact ⟨hM, rfl⟩

/-- What a step can be. -/
theorem step_cases (h : s.step config e = some s') :
    ((∃ ms, e = .tick ms) ∧ s'.machine = s.machine ∧ s'.waits = s.waits) ∨
    (∃ t w, e = .thread (.run t) ∧ s.waits t = some w ∧ s'.machine = s.machine ∧
      s'.waits = Function.update s.waits t (some { w with wake := s.now + 200 })) ∨
    (∃ t what, e = .thread (.run t) ∧ s.waits t = none ∧ s.entering t = some what ∧
      s' = s.setWait t (some ⟨what, s.now, s.now⟩)) ∨
    ∃ e', e = .thread e' ∧ (system config).step s.machine e' = some s'.machine ∧
      (∀ t, e' = .run t → s'.waits t = none ∧ (s.waits t = none → s.entering t = none)) ∧
      ∀ t, s.waits t = none → s'.waits t = none := by
  cases e with
  | tick ms =>
    cases h
    exact .inl ⟨⟨ms, rfl⟩, rfl, rfl⟩
  | thread e =>
    cases e with
    | start t task =>
      obtain ⟨hstep, hwaits⟩ := move_cases h
      refine .inr (.inr (.inr ⟨_, rfl, hstep, fun _ heq => ?_, fun t hnone => ?_⟩))
      · cases heq
      · rw [hwaits, hnone]
    | run t =>
      unfold step at h
      dsimp only at h
      cases hwait : s.waits t with
      | some w =>
        rw [hwait] at h
        dsimp only at h
        split at h
        · cases h
        · split at h
          · cases h
            exact .inr (.inl ⟨t, w, rfl, hwait, rfl, rfl⟩)
          · obtain ⟨hstep, hwaits⟩ := move_cases h
            have hleft : s'.waits t = none := by
              rw [hwaits]
              exact Function.update_self ..
            refine .inr (.inr (.inr ⟨_, rfl, hstep, fun u heq => ?_, fun u hnone => ?_⟩))
            · cases heq
              refine ⟨hleft, fun hnone => ?_⟩
              rw [hwait] at hnone
              cases hnone
            · by_cases hu : u = t
              · exact hu ▸ hleft
              · rw [hwaits]
                exact (Function.update_of_ne hu ..).trans hnone
      | none =>
        rw [hwait] at h
        dsimp only at h
        cases hentering : s.entering t with
        | some what =>
          rw [hentering] at h
          cases h
          exact .inr (.inr (.inl ⟨t, what, rfl, hwait, hentering, rfl⟩))
        | none =>
          rw [hentering] at h
          obtain ⟨hstep, hwaits⟩ := move_cases h
          refine .inr (.inr (.inr ⟨_, rfl, hstep, fun u heq => ?_, fun u hnone => ?_⟩))
          · cases heq
            exact ⟨hwaits ▸ hwait, fun _ => hentering⟩
          · rw [hwaits, hnone]

/-- Every thread that is to make a call holds its guards. -/
def Guarded (s : Delayed) : Prop :=
  s.machine.Holding fun c (_ : Last Lock) => c.Covers guards

theorem Guarded.step (h : s.Guarded) (hstep : s.step config e = some s') : s'.Guarded := by
  unfold Guarded
  obtain ⟨-, hmachine, -⟩ | ⟨_, _, -, -, hmachine, -⟩ | ⟨_, _, -, -, -, rfl⟩ |
    ⟨e', -, hmachine, -⟩ := step_cases hstep
  · rw [hmachine]
    exact h
  · rw [hmachine]
    exact h
  · exact h
  · have hprogram : ∀ task, ((system config).program task).Covers guards [] := covered_program config
    exact Holding.step stable_covers hprogram h hmachine

theorem guarded_init (boot : Boot) : (init config boot).Guarded := by
  refine fun t => ⟨.start, [], fun m => ?_, List.nodup_nil, rfl⟩
  exact iff_of_false (fun h => by cases h) List.not_mem_nil

/-- The thread is inside the wait, with its action still to do. -/
def InWait (s : Delayed) (t : Thread) : Prop :=
  (s.waits t).isSome ∧ ∃ c interactive answers next,
    s.machine.code t = .call (.execute c interactive answers) next

theorem InWait.step (h : s.InWait t) (hstays : Stays config t s e)
    (hstep : s.step config e = some s') : s'.InWait t := by
  refine ⟨hstays s' hstep, ?_⟩
  have hcode := h.2
  obtain ⟨-, hmachine, -⟩ | ⟨_, _, -, -, hmachine, -⟩ | ⟨_, _, -, -, -, rfl⟩ |
    ⟨e', rfl, hmachine, hrun, -⟩ := step_cases hstep
  · rw [hmachine]
    exact hcode
  · rw [hmachine]
    exact hcode
  · exact hcode
  · have hne : t ≠ e'.thread := by
      rintro rfl
      cases e' with
      | start u task =>
        obtain ⟨⟨a, hret⟩, -⟩ := System.step_start hmachine
        obtain ⟨c, interactive, answers, next, hcall⟩ := hcode
        rw [Event.thread, hret] at hcall
        cases hcall
      | run u =>
        have hstill := hstays s' hstep
        rw [Event.thread, (hrun u rfl).1] at hstill
        cases hstill
    rw [System.step_code_ne hmachine hne]
    exact hcode

/-- While a thread waits, nobody else has the inhibitors. -/
theorem not_releasable (hguarded : s.Guarded) (hwait : s.InWait t) (id : InhibitorId) :
    ¬Releasable config s t id := by
  rintro ⟨n, s₁, s₂, w, next, hne, hreach, -, -, hcode, -⟩
  have hkeep : ∀ {s s' : Delayed} {e : DelayEvent}, s.Guarded ∧ s.InWait t → Stays config t s e →
      s.step config e = some s' → s'.Guarded ∧ s'.InWait t :=
    fun h hstays hstep => ⟨h.1.step hstep, h.2.step hstays hstep⟩
  obtain ⟨hguarded₁, -, c, interactive, answers, next', hcode'⟩ :=
    hreach.invariant hkeep ⟨hguarded, hwait⟩
  have hconn : s₁.machine.owner .inhibitors = some (.conn n) :=
    hguarded₁.owner hcode List.mem_cons_self
  have ht : s₁.machine.owner .inhibitors = some t := hguarded₁.owner hcode' List.mem_cons_self
  rw [ht] at hconn
  exact hne (Option.some.inj hconn).symm

theorem exists_of_entering {what : InhibitWhat} (h : s.entering t = some what) :
    (∃ c interactive answers next, s.machine.code t = .call (.execute c interactive answers) next) ∧
      ∃ i ∈ s.machine.shared.inhibitors.inhibitors.rows, i.mode = .delay ∧ what ∈ i.what := by
  unfold entering at h
  split at h
  · rename_i c interactive answers next hcode
    have hdelay := (Option.filter_eq_some_iff.1 h).2
    unfold InhibitorManager.hasDelay at hdelay
    exact ⟨⟨c, interactive, answers, next, hcode⟩, by simpa using hdelay⟩
  · cases h

theorem delayLaw_of_no_waits (h : ∀ t, s.waits t = none) : DelayLaw config s := by
  intro t w hw
  rw [h t] at hw
  cases hw

/-- The wait has just begun, and there is no end to it. -/
theorem not_delayLaw_of_entering {what : InhibitWhat} (hguarded : s.Guarded)
    (hentering : s.entering t = some what) :
    ¬DelayLaw config (s.setWait t (some ⟨what, s.now, s.now⟩)) := by
  intro h
  obtain ⟨hcode, i, hi, hmode, hwhat⟩ := exists_of_entering hentering
  have hself : (s.setWait t (some ⟨what, s.now, s.now⟩)).waits t = some ⟨what, s.now, s.now⟩ :=
    Function.update_self ..
  have hin : (s.setWait t (some ⟨what, s.now, s.now⟩)).InWait t := ⟨by rw [hself]; rfl, hcode⟩
  have hguarded' : (s.setWait t (some ⟨what, s.now, s.now⟩)).Guarded := hguarded
  exact not_releasable hguarded' hin i.id ((h t _ hself).1 i hi hmode hwhat)

/-- With nobody waiting, the law is kept exactly if nobody comes to wait. -/
theorem delayLaw_step_iff (hguarded : s.Guarded) (hnone : ∀ t, s.waits t = none)
    (hstep : s.step config e = some s') :
    (DelayLaw config s' ↔ UndelayedStep s e) ∧ (UndelayedStep s e → ∀ t, s'.waits t = none) := by
  obtain ⟨⟨ms, rfl⟩, -, hwaits⟩ | ⟨t, w, -, hw, -⟩ | ⟨t, what, rfl, -, hentering, rfl⟩ |
    ⟨e', rfl, -, hrun, hwaits⟩ := step_cases hstep
  · have hnone' : ∀ t, s'.waits t = none := fun t => by rw [hwaits, hnone t]
    exact ⟨iff_of_true (delayLaw_of_no_waits hnone') trivial, fun _ => hnone'⟩
  · rw [hnone t] at hw
    cases hw
  · have hnot : ¬UndelayedStep s (.thread (.run t)) := by
      intro h
      rw [h (hnone t)] at hentering
      cases hentering
    exact ⟨iff_of_false (not_delayLaw_of_entering hguarded hentering) hnot, fun h => absurd h hnot⟩
  · have hnone' : ∀ t, s'.waits t = none := fun t => hwaits t (hnone t)
    have hok : UndelayedStep s (.thread e') := by
      cases e' with
      | start t task => trivial
      | run t => exact (hrun t rfl).2
    exact ⟨iff_of_true (delayLaw_of_no_waits hnone') hok, fun _ => hnone'⟩

theorem delayLaw_iff (config : LogindConfig) (boot : Boot) (es : List DelayEvent) :
    Always (step config) (DelayLaw config) (init config boot) es ↔
      Meets (step config) UndelayedStep (init config boot) es := by
  have hinit : ∀ t, (init config boot).waits t = none := fun _ => rfl
  have hkeep : ∀ {s s' : Delayed} {e : DelayEvent}, (s.Guarded ∧ ∀ t, s.waits t = none) →
      DelayLaw config s → UndelayedStep s e → s.step config e = some s' →
        s'.Guarded ∧ ∀ t, s'.waits t = none :=
    fun hJ _ hok hstep => ⟨hJ.1.step hstep, (delayLaw_step_iff hJ.1 hJ.2 hstep).2 hok⟩
  exact always_iff_meets_of_invariant hkeep
    (fun hJ _ hstep => (delayLaw_step_iff hJ.1 hJ.2 hstep).1) ⟨guarded_init boot, hinit⟩
    (delayLaw_of_no_waits hinit) es

/-- An editor takes a delay inhibitor on shutdown and root powers the machine off. -/
def delayedPowerOff : List DelayEvent :=
  [.thread (.start (.conn 0) (.request 1000
      (.takeInhibitor ⟨[.shutdown], "editor", "unsaved files", .delay, 1000, 300⟩) {})),
    .thread (.run (.conn 0)), .thread (.run (.conn 0)), .thread (.run (.conn 0)),
    .thread (.start (.conn 1) (.request 0 (.powerOff false) {})),
    .thread (.run (.conn 1)), .thread (.run (.conn 1))]

theorem not_delayLaw_delayedPowerOff :
    ¬Always (step {}) (DelayLaw {}) (init {} {}) (delayedPowerOff ++ [.thread (.run (.conn 1))]) := by
  intro h
  have hexec : exec (step {}) (init {} {}) delayedPowerOff = some _ := rfl
  have hguarded := exec_invariant Guarded.step (guarded_init {}) hexec
  have hlast : exec (step {}) (init {} {}) (delayedPowerOff ++ [.thread (.run (.conn 1))]) =
      some _ := rfl
  -- the last step is the one into the wait
  exact not_delayLaw_of_entering (t := .conn 1) hguarded rfl (h.last hlast)

end Delayed

end Quantra.Logind
