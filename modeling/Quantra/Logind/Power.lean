import Quantra.Logind.Types

/-! `inhibitor.rs` and `power.rs`: inhibitors, and the power and sleep actions that they hold back.
Wall messages and the flush of the disks are left out, and `execute` has no wait for delay inhibitors
in it. -/
namespace Quantra.Logind
open Text

structure InhibitorManager where
  inhibitors : Table InhibitorId Inhibitor Inhibitor.id
  nextId : InhibitorId

namespace InhibitorManager

def new : InhibitorManager where
  inhibitors := .empty
  nextId := 1

def taken (id : InhibitorId) (args : TakeInhibitor) (now : ℕ) : Inhibitor where
  id := id
  what := args.what
  who := args.who
  why := args.why
  mode := args.mode
  uid := args.uid
  pid := args.pid
  created := now

def take (im : InhibitorManager) (args : TakeInhibitor) (now : ℕ) :
    InhibitorId × InhibitorManager :=
  (im.nextId,
    { inhibitors := im.inhibitors.insert (taken im.nextId args now), nextId := im.nextId + 1 })

def release (im : InhibitorManager) (id : InhibitorId) : Bool × InhibitorManager :=
  ((im.inhibitors.get? id).isSome, { im with inhibitors := im.inhibitors.remove id })

/-- `is_blocked`, and `is_handle_blocked`, which has the same body. -/
def isBlocked (im : InhibitorManager) (what : InhibitWhat) : Bool :=
  im.inhibitors.rows.any fun i => i.mode = .block ∧ what ∈ i.what

def gcDeadPids (im : InhibitorManager) (pidExists : ℕ → Bool) : InhibitorManager :=
  let dead := (im.inhibitors.rows.filter fun i => !pidExists i.pid).map (·.id)
  { im with inhibitors := dead.foldl (fun t id => t.remove id) im.inhibitors }

def all (im : InhibitorManager) : List Inhibitor :=
  im.inhibitors.rows.mergeSort fun a b => a.id ≤ b.id

end InhibitorManager

inductive RebootCmd
  | powerOff
  | restart
  | halt
  deriving DecidableEq, Repr

/-- What the manager has the kernel do. -/
inductive Command
  | reboot (cmd : RebootCmd)
  | writePowerState (text : String)
  | writePowerDisk (text : String)
  | writeBrightness (path : String) (value : ℕ)
  deriving DecidableEq, Repr

structure PowerManager where
  canSuspend : Bool
  canHibernate : Bool
  canHybridSleep : Bool
  canSuspendThenHibernate : Bool
  scheduledShutdown : Option ScheduledShutdown := none
  config : LogindConfig
  deriving DecidableEq, Repr

/-- The answers to the writes of the power actions. -/
structure PowerAnswers where
  efi : Except String Unit := .ok ()
  state : Except String Unit := .ok ()

/-- The answers to the calls about a brightness device. -/
structure BrightnessAnswers where
  exists_ : Bool := true
  max : Option ℕ := none
  write : Except String Unit := .ok ()
  read : Except String String := .ok ""

namespace PowerManager

def whatName : InhibitWhat → String
  | .shutdown => "Shutdown"
  | .sleep => "Sleep"
  | .idle => "Idle"
  | .handlePowerKey => "HandlePowerKey"
  | .handleSuspendKey => "HandleSuspendKey"
  | .handleHibernateKey => "HandleHibernateKey"
  | .handleLidSwitch => "HandleLidSwitch"
  | .handleRebootKey => "HandleRebootKey"

def checkBlock (inh : InhibitorManager) (what : InhibitWhat) (interactive : Bool) :
    Except String Unit :=
  if inh.isBlocked what && !interactive then
    .error (whatName what ++ " blocked by inhibitor — use interactive=true to override")
  else .ok ()

/-- Go on to the commands once a check has passed. -/
def afterCheck (check : Except String Unit) (result : Except String Unit)
    (commands : List Command) : Except String Unit × List Command :=
  match check with
  | .error e => (.error e, [])
  | .ok _ => (result, commands)

def powerOff (inh : InhibitorManager) (interactive : Bool) : Except String Unit × List Command :=
  afterCheck (checkBlock inh .shutdown interactive) (.ok ()) [.reboot .powerOff]

def reboot (inh : InhibitorManager) (interactive : Bool) : Except String Unit × List Command :=
  afterCheck (checkBlock inh .shutdown interactive) (.ok ()) [.reboot .restart]

def rebootToFirmware (inh : InhibitorManager) (interactive : Bool) (answers : PowerAnswers) :
    Except String Unit × List Command :=
  match checkBlock inh .shutdown interactive with
  | .error e => (.error e, [])
  | .ok _ =>
    afterCheck (answers.efi.mapError ("set EFI OsIndications: " ++ ·)) (.ok ()) [.reboot .restart]

def halt (inh : InhibitorManager) (interactive : Bool) : Except String Unit × List Command :=
  afterCheck (checkBlock inh .shutdown interactive) (.ok ()) [.reboot .halt]

def stateResult (answers : PowerAnswers) : Except String Unit :=
  answers.state.mapError ("/sys/power/state: " ++ ·)

def suspend (pm : PowerManager) (inh : InhibitorManager) (interactive : Bool)
    (answers : PowerAnswers) : Except String Unit × List Command :=
  if !pm.canSuspend then (.error "suspend not supported on this hardware", [])
  else
    afterCheck
      (if pm.config.suspendKeyIgnoreInhibited then .ok () else checkBlock inh .sleep interactive)
      (stateResult answers) [.writePowerState "mem"]

def hibernate (pm : PowerManager) (inh : InhibitorManager) (interactive : Bool)
    (answers : PowerAnswers) : Except String Unit × List Command :=
  if !pm.canHibernate then (.error "hibernate not supported", [])
  else
    afterCheck
      (if pm.config.hibernateKeyIgnoreInhibited then .ok () else checkBlock inh .sleep interactive)
      (stateResult answers) [.writePowerState "disk"]

def hybridSleep (pm : PowerManager) (inh : InhibitorManager) (interactive : Bool)
    (answers : PowerAnswers) : Except String Unit × List Command :=
  if !pm.canHybridSleep then (.error "hybrid sleep not supported", [])
  else
    afterCheck (checkBlock inh .sleep interactive) (stateResult answers)
      [.writePowerDisk "suspend", .writePowerState "disk"]

def suspendThenHibernate (pm : PowerManager) (inh : InhibitorManager) (interactive : Bool)
    (answers : PowerAnswers) : Except String Unit × List Command :=
  if !pm.canSuspendThenHibernate then (.error "suspend-then-hibernate not supported", [])
  else
    afterCheck (checkBlock inh .sleep interactive) (stateResult answers)
      [.writePowerDisk "suspend", .writePowerState "mem"]

/-- The functions that execute an action. -/
inductive PowerCall
  | powerOff
  | reboot
  | rebootToFirmware
  | halt
  | suspend
  | hibernate
  | hybridSleep
  | suspendThenHibernate
  deriving DecidableEq, Repr

def execute (pm : PowerManager) (inh : InhibitorManager) (interactive : Bool)
    (answers : PowerAnswers) : PowerCall → Except String Unit × List Command
  | .powerOff => powerOff inh interactive
  | .reboot => reboot inh interactive
  | .rebootToFirmware => rebootToFirmware inh interactive answers
  | .halt => halt inh interactive
  | .suspend => pm.suspend inh interactive answers
  | .hibernate => pm.hibernate inh interactive answers
  | .hybridSleep => pm.hybridSleep inh interactive answers
  | .suspendThenHibernate => pm.suspendThenHibernate inh interactive answers

def scheduleShutdown (pm : PowerManager) (action : String) (timeUsec : ℕ) : PowerManager :=
  { pm with scheduledShutdown := some { action, timeUsec } }

def cancelScheduledShutdown (pm : PowerManager) : PowerManager :=
  { pm with scheduledShutdown := none }

def yesNo (b : Bool) : CanDo := if b then .yes else .no

def brightnessPath (subsystem name : String) (answers : BrightnessAnswers) :
    Except String String :=
  if subsystem = "backlight" ∨ subsystem = "leds" then
    let path := "/sys/class/" ++ subsystem ++ "/" ++ name ++ "/brightness"
    if answers.exists_ then .ok path else .error ("brightness device not found: " ++ path)
  else .error ("unknown brightness subsystem: " ++ subsystem)

def setBrightness (subsystem name : String) (value : ℕ) (answers : BrightnessAnswers) :
    Except String Unit × List Command :=
  match brightnessPath subsystem name answers with
  | .error e => (.error e, [])
  | .ok path =>
    (answers.write.mapError fun e => "write " ++ path ++ ": " ++ e,
      [.writeBrightness path (min value (answers.max.getD 100))])

/-- The text of the error of a failed `parse`. -/
def parseIntError (text : String) : String :=
  let digits := (dropLead "+" text).getD text
  if text = "" then "cannot parse integer from empty string"
  else if digits ≠ "" ∧ digits.toList.all Char.isDigit then
    "number too large to fit in target type"
  else "invalid digit found in string"

def getBrightness (subsystem name : String) (answers : BrightnessAnswers) : Except String ℕ :=
  match brightnessPath subsystem name answers with
  | .error e => .error e
  | .ok path =>
    match answers.read with
    | .error e => .error ("read " ++ path ++ ": " ++ e)
    | .ok text =>
      match parseU32 (trim text) with
      | none => .error ("parse brightness: " ++ parseIntError (trim text))
      | some v => .ok v

end PowerManager

inductive AcpiEvent
  | powerButton
  | sleepButton
  | lidClose
  | lidOpen
  | batteryLow
  | acAdapterInserted
  | acAdapterRemoved
  | brightnessUp
  | brightnessDown
  | videoSwitchMode
  deriving DecidableEq, Repr

/-- The configured action; the other events return before any lock is taken. -/
def acpiAction (config : LogindConfig) : AcpiEvent → Option PowerAction
  | .powerButton => some config.handlePowerKey
  | .sleepButton => some config.handleSuspendKey
  | .lidClose => some config.handleLidSwitch
  | _ => none

/-- The call by which an ACPI event has an action executed; the other actions are only logged. -/
def acpiCall : PowerAction → Option PowerManager.PowerCall
  | .powerOff => some .powerOff
  | .reboot => some .reboot
  | .suspend => some .suspend
  | .hibernate => some .hibernate
  | .hybridSleep => some .hybridSleep
  | _ => none

/-- The call by which the idle timer has an action executed. -/
def idleCall : PowerAction → Option PowerManager.PowerCall
  | .suspend => some .suspend
  | .hibernate => some .hibernate
  | .hybridSleep => some .hybridSleep
  | .powerOff => some .powerOff
  | _ => none

end Quantra.Logind
