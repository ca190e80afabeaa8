import Quantra.Logind.Control
import Mathlib.Tactic.Tauto

/-! Which power and sleep actions are executed in spite of an inhibitor. -/
namespace Quantra.Logind
open Locks Locks.Code
open PowerManager (PowerCall)

/-- What can have an action executed without a user being asked: a request, an ACPI event and the
idle timer. -/
inductive Trigger
  | request (peer : Uid) (c : PowerCall)
  | acpi (e : AcpiEvent)
  | idle (now : ℕ)

def powerRequest : PowerCall → Request
  | .powerOff => .powerOff false
  | .reboot => .reboot false
  | .rebootToFirmware => .rebootToFirmwareSetup false
  | .halt => .halt false
  | .suspend => .suspend false
  | .hibernate => .hibernate false
  | .hybridSleep => .hybridSleep false
  | .suspendThenHibernate => .suspendThenHibernate false

/-- What is inhibited when a call is to be held back. -/
def covering : PowerCall → InhibitWhat
  | .powerOff | .reboot | .rebootToFirmware | .halt => .shutdown
  | .suspend | .hibernate | .hybridSleep | .suspendThenHibernate => .sleep

namespace Trigger

def program (config : LogindConfig) (out : Outside) : Trigger → Handler Unit
  | .request peer c => ignoring (dispatch config peer out (powerRequest c))
  | .acpi e => handleAcpiEvent config e out.power
  | .idle now => idleTurn config now out.power

/-- The state after the trigger has been handled. -/
def after (tr : Trigger) (s : State) (out : Outside) : State :=
  ((tr.program s.power.config out).run perform s).2

/-- The kernel was given a command. -/
def Executes (tr : Trigger) (s : State) (out : Outside) : Prop :=
  (tr.after s out).commands ≠ s.commands

/-- The idle timer runs out in this turn. -/
def idleFires (s : State) (now : ℕ) : Bool :=
  !s.inhibitors.isBlocked .idle &&
    (s.idleTimer (!s.sessions.all.isEmpty && s.sessions.all.all (·.idleHint)) now
      (max s.power.config.idleActionSec 1 * 10 ^ 9)).1

/-- The call that a trigger leads to. -/
def call (s : State) : Trigger → Option PowerCall
  | .request peer c => if peer ≠ 0 ∧ covering c = .shutdown then none else some c
  | .acpi e => (acpiAction s.power.config e).bind acpiCall
  | .idle now => if idleFires s now then idleCall s.power.config.idleAction else none

/-- The inhibitor of the key or switch itself. -/
def handleInhibitor : Trigger → Option InhibitWhat
  | .acpi .powerButton => some .handlePowerKey
  | .acpi .sleepButton => some .handleSuspendKey
  | .acpi .lidClose => some .handleLidSwitch
  | _ => none

/-- The option of the key or switch by which inhibitors are ignored. -/
def exempt (config : LogindConfig) : Trigger → Bool
  | .acpi .powerButton => config.powerKeyIgnoreInhibited
  | .acpi .sleepButton => config.suspendKeyIgnoreInhibited
  | .acpi .lidClose => config.lidSwitchIgnoreInhibited
  | _ => false

end Trigger

/-- Block inhibitors hold back what they cover, and those of a key what the key leads to. The option
of a key exempts it from its own inhibitor and, read widely, from the others too. -/
def Honoured (wide : Bool) (s : State) (out : Outside) (tr : Trigger) : Prop :=
  tr.Executes s out →
    (∀ c, tr.call s = some c → ¬(wide ∧ tr.exempt s.power.config) →
      ¬s.inhibitors.isBlocked (covering c)) ∧
    ∀ what, tr.handleInhibitor = some what → ¬tr.exempt s.power.config →
      ¬s.inhibitors.isBlocked what

/-- The hardware can do it. -/
def supported (pm : PowerManager) : PowerCall → Bool
  | .suspend => pm.canSuspend
  | .hibernate => pm.canHibernate
  | .hybridSleep => pm.canHybridSleep
  | .suspendThenHibernate => pm.canSuspendThenHibernate
  | _ => true

/-- The call does not look at the inhibitors: the option of the key is read for every trigger. -/
def bypasses (config : LogindConfig) : PowerCall → Bool
  | .suspend => config.suspendKeyIgnoreInhibited
  | .hibernate => config.hibernateKeyIgnoreInhibited
  | _ => false

/-- The firmware could be told to open its setup. -/
def prepared (out : Outside) : PowerCall → Bool
  | .rebootToFirmware => out.power.efi.isOk
  | _ => true

section Executes
variable {s : State} {out : Outside} {tr : Trigger} {c : PowerCall}

theorem checkBlock_isOk (inh : InhibitorManager) (what : InhibitWhat) :
    (PowerManager.checkBlock inh what false).isOk = !inh.isBlocked what := by
  unfold PowerManager.checkBlock
  cases inh.isBlocked what <;> rfl

theorem isOk_ok (u : Unit) : (Except.ok u : Except String Unit).isOk = true := rfl

theorem afterCheck_ne_nil (check result : Except String Unit) (commands : List Command) :
    (PowerManager.afterCheck check result commands).2 ≠ [] ↔ check.isOk ∧ commands ≠ [] := by
  cases check <;> simp [PowerManager.afterCheck, Except.isOk, Except.toBool]

theorem commands_idleAct (config : LogindConfig) (answers : PowerAnswers) (s : State) :
    ((idleAct config answers).run perform s).2.commands = s.commands ++
      (match idleCall config.idleAction with
      | none => []
      | some c => (s.power.execute s.inhibitors false answers c).2) := by
  by_cases hlock : config.idleAction = .lock
  · simp [idleAct, hlock, idleCall, acquire, release, within, guarded, perform, State.putSessions]
  · cases hcall : idleCall config.idleAction <;>
      simp [idleAct, hlock, hcall, acquire, release, forSome, ignoring, invoke, perform,
        State.putCommands]

theorem commands_after_idle {now : ℕ} : (Trigger.after (.idle now) s out).commands = s.commands ++
    (match Trigger.call s (.idle now) with
    | none => []
    | some c => (s.power.execute s.inhibitors false out.power c).2) := by
  unfold Trigger.after Trigger.program Trigger.call Trigger.idleFires idleTurn
  dsimp only
  generalize max s.power.config.idleActionSec 1 * 10 ^ 9 = threshold
  by_cases hignore : s.power.config.idleAction = .ignore
  · simp [hignore, idleCall]
  · cases hblocked : s.inhibitors.isBlocked .idle with
    | true =>
      obtain ⟨since, hsince⟩ := s.idleTimer_snd false now threshold
      simp [hignore, within, guarded, perform, ignoring, invoke, hblocked, hsince]
    | false =>
      obtain ⟨since, hsince⟩ := s.idleTimer_snd
        (!s.sessions.all.isEmpty && s.sessions.all.all (·.idleHint)) now threshold
      cases hfire : (s.idleTimer (!s.sessions.all.isEmpty && s.sessions.all.all (·.idleHint)) now
          threshold).1 <;>
        simp [hignore, within, guarded, perform, invoke, hblocked, hsince, hfire, commands_idleAct]

/-- The trigger makes the call that it leads to, and nothing else. -/
theorem commands_after : (tr.after s out).commands = s.commands ++
    (match tr.call s with
    | none => []
    | some c => (s.power.execute s.inhibitors false out.power c).2) := by
  cases tr with
  | request peer c =>
    by_cases hpeer : peer = 0 <;> cases c <;>
      simp [Trigger.after, Trigger.program, Trigger.call, covering, powerRequest, dispatch, hpeer,
        rootPower, executePower, ignoring, acquire, release, invoke, perform, State.putCommands]
  | acpi e =>
    cases haction : acpiAction s.power.config e with
    | none => simp [Trigger.after, Trigger.program, Trigger.call, handleAcpiEvent, haction]
    | some action =>
      cases hcall : acpiCall action <;>
        simp [Trigger.after, Trigger.program, Trigger.call, handleAcpiEvent, haction, hcall, forSome,
          ignoring, acquire, release, invoke, perform, State.putCommands]
  | idle now => exact commands_after_idle

theorem execute_ne_nil : (s.power.execute s.inhibitors false out.power c).2 ≠ [] ↔
    supported s.power c ∧ prepared out c ∧
      (s.inhibitors.isBlocked (covering c) → bypasses s.power.config c) := by
  cases c with
  | powerOff | reboot | halt =>
    simp [PowerManager.execute, PowerManager.powerOff, PowerManager.reboot, PowerManager.halt,
      supported, prepared, covering, bypasses, afterCheck_ne_nil, checkBlock_isOk]
  | rebootToFirmware =>
    unfold PowerManager.execute PowerManager.rebootToFirmware
    have hcheck := checkBlock_isOk s.inhibitors .shutdown
    cases hres : PowerManager.checkBlock s.inhibitors .shutdown false <;> rw [hres] at hcheck <;>
      cases hefi : out.power.efi <;>
        simp_all [Except.isOk, Except.toBool, Except.mapError, supported, prepared, covering, bypasses,
          PowerManager.afterCheck]
  | suspend =>
    cases hcan : s.power.canSuspend <;> cases hignore : s.power.config.suspendKeyIgnoreInhibited <;>
      simp [PowerManager.execute, PowerManager.suspend, supported, prepared, covering, bypasses, hcan,
        hignore, afterCheck_ne_nil, checkBlock_isOk, isOk_ok]
  | hibernate =>
    cases hcan : s.power.canHibernate <;>
      cases hignore : s.power.config.hibernateKeyIgnoreInhibited <;>
      simp [PowerManager.execute, PowerManager.hibernate, supported, prepared, covering, bypasses,
        hcan, hignore, afterCheck_ne_nil, checkBlock_isOk, isOk_ok]
  | hybridSleep =>
    cases hcan : s.power.canHybridSleep <;>
      simp [PowerManager.execute, PowerManager.hybridSleep, supported, prepared, covering, bypasses,
        hcan, afterCheck_ne_nil, checkBlock_isOk]
  | suspendThenHibernate =>
    cases hcan : s.power.canSuspendThenHibernate <;>
      simp [PowerManager.execute, PowerManager.suspendThenHibernate, supported, prepared, covering,
        bypasses, hcan, afterCheck_ne_nil, checkBlock_isOk]

theorem executes_iff : tr.Executes s out ↔ ∃ c, tr.call s = some c ∧ supported s.power c ∧
    prepared out c ∧ (s.inhibitors.isBlocked (covering c) → bypasses s.power.config c) := by
  unfold Trigger.Executes
  rw [commands_after, Ne, List.append_right_eq_self]
  cases tr.call s with
  | none => simp
  | some c =>
    rw [← Ne, execute_ne_nil]
    simp

/-- A trigger gets round an inhibitor in two ways: `suspend` and `hibernate` do not look at the
inhibitors at all when the option of their key is set, and no key looks at its own inhibitor. -/
theorem honoured_iff (wide : Bool) (s : State) (out : Outside) (tr : Trigger) :
    Honoured wide s out tr ↔ ∀ c, tr.call s = some c → supported s.power c → prepared out c →
      (s.inhibitors.isBlocked (covering c) → bypasses s.power.config c →
        wide ∧ tr.exempt s.power.config) ∧
      ∀ what, tr.handleInhibitor = some what → s.inhibitors.isBlocked what →
        tr.exempt s.power.config ∨
          (s.inhibitors.isBlocked (covering c) ∧ ¬bypasses s.power.config c) := by
  unfold Honoured
  rw [executes_iff]
  constructor
  · intro h c hcall hsupported hprepared
    constructor
    · intro hblocked hbypass
      by_contra hexempt
      exact (h ⟨c, hcall, hsupported, hprepared, fun _ => hbypass⟩).1 c hcall hexempt hblocked
    · intro what hwhat hblocked
      by_contra hnot
      rw [not_or] at hnot
      refine (h ⟨c, hcall, hsupported, hprepared, ?_⟩).2 what hwhat hnot.1 hblocked
      intro hcovered
      by_contra hbypass
      exact hnot.2 ⟨hcovered, hbypass⟩
  · rintro h ⟨c, hcall, hsupported, hprepared, hbypass⟩
    obtain ⟨hcover, hkey⟩ := h c hcall hsupported hprepared
    constructor
    · intro c' hcall' hexempt hblocked
      rw [hcall] at hcall'
      cases hcall'
      exact hexempt (hcover hblocked (hbypass hblocked))
    · intro what hwhat hexempt hblocked
      rcases hkey what hwhat hblocked with hkept | ⟨hcovered, hnot⟩
      · exact hexempt hkept
      · exact hnot (hbypass hcovered)

end Executes

/-- A state with one block inhibitor. -/
def State.inhibited (config : LogindConfig) (what : InhibitWhat) : State :=
  (perform (.takeInhibitor
      { what := [what], who := "shell", why := "menu", mode := .block, uid := 1000, pid := 100 } 0)
    (State.init config { canSuspend := true })).2

/-- The power key shuts down in spite of its own inhibitor, and a suspend request is executed in
spite of one on sleep once the option of the suspend key is set. -/
theorem not_honoured_powerButton_suspend :
    (¬Honoured true (.inhibited {} .handlePowerKey) {} (.acpi .powerButton) ∧
      ¬Honoured false (.inhibited {} .handlePowerKey) {} (.acpi .powerButton)) ∧
    ¬Honoured true (.inhibited { suspendKeyIgnoreInhibited := true } .sleep) {}
        (.request 1000 .suspend) ∧
      ¬Honoured false (.inhibited { suspendKeyIgnoreInhibited := true } .sleep) {}
        (.request 1000 .suspend) := by
  have hpower : (Trigger.acpi .powerButton).Executes (.inhibited {} .handlePowerKey) {} :=
    executes_iff.2 ⟨.powerOff, rfl, rfl, rfl, by decide⟩
  have hsuspend : (Trigger.request 1000 .suspend).Executes
      (.inhibited { suspendKeyIgnoreInhibited := true } .sleep) {} :=
    executes_iff.2 ⟨.suspend, rfl, rfl, rfl, by decide⟩
  refine ⟨⟨fun h => ?_, fun h => ?_⟩, fun h => ?_, fun h => ?_⟩
  · exact (h hpower).2 .handlePowerKey rfl (by decide) rfl
  · exact (h hpower).2 .handlePowerKey rfl (by decide) rfl
  · exact (h hsuspend).1 .suspend rfl (by decide) rfl
  · exact (h hsuspend).1 .suspend rfl (by decide) rfl

end Quantra.Logind
