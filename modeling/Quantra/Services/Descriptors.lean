import Quantra.Lib.Handles
import Quantra.Services.Environment

/-! The descriptors that PID 1 opens for a launch: the write end of the logger pipe and the activation
sockets. -/
namespace Quantra.Manager
open Quantra.Services Handles

/-- Whether `start_service_as` comes back with a process; `fork` tells whether `fork` succeeds. -/
def startServiceAs (fork : Bool) (l : ServiceLaunch) : Bool :=
  Text.isCString l.cmd && l.args.all Text.isCString && Text.isCString (l.workingDir.getD "/") &&
    l.ttyPath.all Text.isCString && fork

/-- One call of `start`, or one turn of `restart_monitor` from the credentials on. `admitted` tells
whether the conditions of the service are met and its hooks succeed, `logger` is the write end that
`create_service_logger` makes, if it makes one. -/
structure Launching where
  path : LaunchPath
  host : Host
  svc : Service
  admitted : Bool
  logger : Option ℤ
  fork : Bool

namespace Launching

/-- The write end; a service on the console has none. -/
def pipe (a : Launching) : Option ℤ := if a.svc.console then none else a.logger

/-- `start` comes to the logger. -/
def prepared (a : Launching) : Bool := a.admitted && (startCredentials a.host a.svc).isOk

def sockets (a : Launching) : List ℤ := (activationSockets a.host a.svc).map (·.fd)

def launch (a : Launching) : Option ServiceLaunch := a.path.launch a.host a.logger a.svc

/-- The descriptors that the attempt opens, in this order. The monitor makes the pipe when the launch
record can be built, and no sockets. -/
def opens (a : Launching) : List ℤ :=
  match a.path with
  | .start => if a.prepared then a.pipe.toList ++ a.sockets else []
  | .restart => if a.launch.isSome then a.pipe.toList else []

/-- Those that it closes: the pipe after a launch that succeeds, and the sockets when `start` returns.
The monitor closes nothing. -/
def closes (a : Launching) : List ℤ :=
  match a.path with
  | .start =>
    if a.prepared then
      (if a.launch.any (startServiceAs a.fork) then a.pipe.toList else []) ++ a.sockets
    else []
  | .restart => []

/-- There is no pipe, or it is closed again. -/
def PipeClosed (a : Launching) : Prop :=
  a.pipe = none ∨
    match a.path with
    | .start => a.prepared = false ∨ a.launch.any (startServiceAs a.fork)
    | .restart => a.launch = none

end Launching

/-- The kernel gives different numbers to descriptors that are open together. -/
structure Attempt extends Launching where
  distinct : toLaunching.opens.Nodup

namespace Attempt

theorem closes_sublist (a : Attempt) : a.closes.Sublist a.opens := by
  unfold Launching.closes Launching.opens
  cases a.path with
  | restart => exact List.nil_sublist _
  | start =>
    dsimp only
    split
    · refine List.Sublist.append ?_ (List.Sublist.refl _)
      split
      · exact List.Sublist.refl _
      · exact List.nil_sublist _
    · exact List.Sublist.refl _

def script (a : Attempt) : Script ℤ := .ofLists a.opens a.closes a.distinct a.closes_sublist

theorem heldFrom_script_iff (a : Attempt) : heldFrom [] a.script.acts = [] ↔ a.PipeClosed := by
  rw [script, heldFrom_ofLists]
  have hdistinct := a.distinct
  unfold Launching.PipeClosed
  cases hpath : a.path with
  | restart =>
    simp only [Launching.opens, Launching.closes, hpath, List.not_mem_nil, imp_false,
      ← List.eq_nil_iff_forall_not_mem]
    cases a.launch <;> cases a.pipe <;> simp
  | start =>
    simp only [Launching.opens, Launching.closes, hpath] at hdistinct ⊢
    cases hprepared : a.prepared with
    | false => simp
    | true =>
      simp only [hprepared, if_true] at hdistinct ⊢
      cases hlaunched : a.launch.any (startServiceAs a.fork) with
      | true => simp
      | false =>
        cases hpipe : a.pipe with
        | none => simp
        | some fd =>
          rw [hpipe, Option.toList_some, List.singleton_append, List.nodup_cons] at hdistinct
          simp [hdistinct.1]

end Attempt

/-- An attempt that finishes leaves no pipe behind. -/
def ClosingStep (s : Pool Attempt ℤ) : Handles.Event Attempt → Prop
  | .finish id => ∀ a todo, s.progress id = some (a, todo) → a.PipeClosed
  | _ => True

/-- However attempts to launch services are interleaved, the pipes and sockets that are open in PID 1
are those of attempts in progress exactly as long as each attempt that finishes had no pipe, or closed
it: `start` does not if it fails after the pipe was made, and the monitor never does. -/
theorem descriptors_bounded_iff (es : List (Handles.Event Attempt)) :
    Runs.Always (Pool.step Attempt.script) (Pool.Bounded Attempt.script) .init es ↔
      Runs.Meets (Pool.step Attempt.script) ClosingStep .init es := by
  have hstep : Pool.Balanced Attempt.script = ClosingStep := by
    funext s e
    cases e with
    | finish id => simp only [Pool.Balanced, ClosingStep, Attempt.heldFrom_script_iff]
    | begin | act => rfl
  rw [Pool.bounded_iff_balanced, hstep]

/-- One automatic restart that succeeds. -/
def webRestart : Attempt where
  path := .restart
  host := bareHost
  svc := { name := "web", command := "/bin/web", restart := .always }
  admitted := true
  logger := some 5
  fork := true
  distinct := by decide +kernel

theorem not_bounded_webRestart :
    ¬Runs.Always (Pool.step Attempt.script) (Pool.Bounded Attempt.script) .init
      [.begin webRestart, .act 0, .finish 0] := by
  intro h
  have hexec : (Runs.exec (Pool.step Attempt.script) .init
      [.begin webRestart, .act 0, .finish 0]).any
        fun s => s.table = [((5 : ℤ), 0)] ∧ (s.progress 0).isNone := by
    decide +kernel
  obtain ⟨s, hs, htable⟩ := (Option.any_eq_true _ _).1 hexec
  rw [decide_eq_true_eq] at htable
  have howned := (h.last hs).owned (5, 0) (by simp [htable.1])
  simp [Option.isNone_iff_eq_none.1 htable.2] at howned

end Quantra.Manager
