import Quantra.Lib.Runs
import Mathlib.Data.List.Basic

/-! The wait of the main thread for a shutdown (`shutdown.rs`), with the handlers and the control
request that set its flags (`signals.rs`, `control.rs`). -/
namespace Quantra.Shutdown

inductive ShutdownAction
  | powerOff
  | reboot
  deriving DecidableEq, Repr

/-- The signals with a handler. -/
inductive Signal
  | sigchld
  | sigterm
  | sigint
  | sigpwr
  | sigusr1
  deriving DecidableEq, Repr

/-- No thread blocks a signal, so the kernel may run a handler on any of them. -/
inductive Thread
  | main
  | other
  deriving DecidableEq, Repr

/-- Where the main thread is: before `wait_for_shutdown_signal`, about to call `pause`, blocked in
it, about to load one of the flags, or past the wait. -/
inductive Pc
  | boot
  | waiting
  | paused
  | loadReboot
  | loadShutdown
  | returned (action : ShutdownAction)
  deriving DecidableEq, Repr

structure Pid1 where
  shutdownRequested : Bool
  rebootRequested : Bool
  pending : List (Signal × Thread)
  pc : Pc
  deriving DecidableEq, Repr

namespace Pid1

def init : Pid1 := ⟨false, false, [], .boot⟩

/-- A flag is set. -/
def Requested (s : Pid1) : Prop := s.shutdownRequested ∨ s.rebootRequested

/-- A signal is pending that the main thread will take. -/
def WakePending (s : Pid1) : Prop := ∃ sig, (sig, Thread.main) ∈ s.pending

/-- Blocked with a request and nothing to wake it. -/
def Lost (s : Pid1) : Prop := s.Requested ∧ s.pc = .paused ∧ ¬s.WakePending

instance (s : Pid1) : Decidable s.Requested := inferInstanceAs (Decidable (_ ∨ _))

instance (s : Pid1) : Decidable s.WakePending :=
  decidable_of_iff (∃ p ∈ s.pending, p.2 = .main)
    ⟨fun ⟨p, hmem, hmain⟩ => ⟨p.1, hmain ▸ hmem⟩, fun ⟨sig, hmem⟩ => ⟨(sig, .main), hmem, rfl⟩⟩

instance (s : Pid1) : Decidable s.Lost := inferInstanceAs (Decidable (_ ∧ _))

/-- `handle_chld` writes to the pipe of the reaper, `handle_shutdown` and `handle_reboot` set a
flag. -/
def handle (s : Pid1) : Signal → Pid1
  | .sigchld => s
  | .sigterm => { s with shutdownRequested := true }
  | .sigint => { s with shutdownRequested := true }
  | .sigpwr => { s with shutdownRequested := true }
  | .sigusr1 => { s with rebootRequested := true }

/-- `ControlCommand::Shutdown` on the control thread. -/
def request (s : Pid1) (reboot : Bool) : Pid1 :=
  if reboot then { s with rebootRequested := true } else { s with shutdownRequested := true }

/-- A signal that is already pending is not queued again. -/
def raise (s : Pid1) (sig : Signal) (t : Thread) : Pid1 :=
  if s.pending.any (·.1 == sig) then s else { s with pending := (sig, t) :: s.pending }

/-- The handler of a pending signal runs on `t`. On the main thread this ends `pause`, which is
not restarted. -/
def deliver (s : Pid1) (sig : Signal) (t : Thread) : Option Pid1 :=
  if (sig, t) ∈ s.pending then
    let s := { s.handle sig with pending := s.pending.erase (sig, t) }
    if t = .main ∧ s.pc = .paused then some { s with pc := .loadReboot } else some s
  else none

/-- The next step of the main thread. -/
def main (s : Pid1) : Option Pid1 :=
  match s.pc with
  | .boot => some { s with pc := .waiting }
  | .waiting => some { s with pc := .paused }
  | .paused => none
  | .loadReboot =>
    some { s with pc := if s.rebootRequested then .returned .reboot else .loadShutdown }
  | .loadShutdown =>
    some { s with pc := if s.shutdownRequested then .returned .powerOff else .waiting }
  | .returned _ => none

end Pid1

inductive Event
  | request (reboot : Bool)
  | raise (sig : Signal) (t : Thread)
  | deliver (sig : Signal) (t : Thread)
  | main
  deriving DecidableEq, Repr

def step (s : Pid1) : Event → Option Pid1
  | .request reboot => some (s.request reboot)
  | .raise sig t => some (s.raise sig t)
  | .deliver sig t => s.deliver sig t
  | .main => s.main

/-- What a step must not do: set a flag from elsewhere while the main thread is in `pause`, or
call `pause` with a flag set, unless a signal is on its way to the main thread. -/
def Wakes (s : Pid1) : Event → Prop
  | .request _ => s.pc = .paused → s.WakePending
  | .raise _ _ => True
  | .deliver _ .main => True
  | .deliver sig .other => sig ≠ .sigchld → s.pc = .paused → s.WakePending
  | .main => s.pc = .waiting → s.Requested → s.WakePending

/-! One lemma for each kind of step. -/

namespace Pid1
variable {s t : Pid1}

theorem not_lost_iff : ¬s.Lost ↔ (s.Requested → s.pc = .paused → s.WakePending) := by
  simp only [Lost, not_and, not_not]

theorem not_lost_of_pc (h : s.pc ≠ .paused) : ¬s.Lost := fun hlost => h hlost.2.1

theorem request_not_lost_iff (reboot : Bool) :
    ¬(s.request reboot).Lost ↔ (s.pc = .paused → s.WakePending) := by
  unfold request Lost Requested WakePending
  cases reboot <;> simp

theorem raise_not_lost (sig : Signal) (u : Thread) (h : ¬s.Lost) : ¬(s.raise sig u).Lost := by
  unfold raise
  split
  · exact h
  · intro hlost
    apply h
    refine ⟨hlost.1, hlost.2.1, fun hwake => hlost.2.2 ?_⟩
    obtain ⟨sig', hmem⟩ := hwake
    exact ⟨sig', List.mem_cons_of_mem _ hmem⟩

theorem handle_pc (sig : Signal) : (s.handle sig).pc = s.pc := by
  cases sig <;> rfl

theorem handle_requested (sig : Signal) :
    (s.handle sig).Requested ↔ s.Requested ∨ sig ≠ .sigchld := by
  unfold handle Requested
  cases sig <;> simp

theorem deliver_main_pc {sig : Signal} (h : s.deliver sig .main = some t) : t.pc ≠ .paused := by
  unfold deliver at h
  split at h
  · dsimp only at h
    split at h
    · cases h
      simp
    · rename_i hpc
      cases h
      exact fun hpaused => hpc ⟨rfl, hpaused⟩
  · cases h

/-- A handler on another thread does not wake the main one. -/
theorem deliver_other_eq {sig : Signal} (h : s.deliver sig .other = some t) :
    t = { s.handle sig with pending := s.pending.erase (sig, .other) } := by
  unfold deliver at h
  split at h
  · dsimp only at h
    rw [if_neg (by simp)] at h
    cases h
    rfl
  · cases h

theorem deliver_other_not_lost_iff {sig : Signal} (h : s.deliver sig .other = some t)
    (hs : ¬s.Lost) : ¬t.Lost ↔ (sig ≠ .sigchld → s.pc = .paused → s.WakePending) := by
  have ht := deliver_other_eq h
  have hpc : t.pc = s.pc := by
    rw [ht]
    exact handle_pc sig
  have hreq : t.Requested ↔ s.Requested ∨ sig ≠ .sigchld := by
    rw [← handle_requested sig, ht]
    rfl
  have hwake : t.WakePending ↔ s.WakePending := by
    apply exists_congr
    intro sig'
    rw [ht]
    exact List.mem_erase_of_ne (by simp)
  rw [not_lost_iff] at hs ⊢
  rw [hpc, hreq, hwake]
  constructor
  · intro hall hsig
    exact hall (.inr hsig)
  · intro hall hor
    obtain hold | hsig := hor
    · exact hs hold
    · exact hall hsig

theorem main_not_lost_iff (h : s.main = some t) :
    ¬t.Lost ↔ (s.pc = .waiting → s.Requested → s.WakePending) := by
  by_cases hwaiting : s.pc = .waiting
  · have ht : t = { s with pc := .paused } := by
      unfold main at h
      rw [hwaiting] at h
      exact (Option.some.inj h).symm
    rw [ht, not_lost_iff]
    exact ⟨fun hall _ hreq => hall hreq rfl, fun hall hreq _ => hall hwaiting hreq⟩
  · have hpc : t.pc ≠ .paused := by
      unfold main at h
      split at h <;> cases h
      · simp
      · contradiction
      · dsimp only
        split <;> simp
      · dsimp only
        split <;> simp
    exact ⟨fun _ hw => absurd hw hwaiting, fun _ => not_lost_of_pc hpc⟩

end Pid1

theorem step_not_lost_iff {s t : Pid1} {e : Event} (hs : ¬s.Lost) (h : step s e = some t) :
    ¬t.Lost ↔ Wakes s e := by
  cases e with
  | request reboot =>
    cases h
    exact Pid1.request_not_lost_iff reboot
  | raise sig u =>
    cases h
    exact ⟨fun _ => trivial, fun _ => Pid1.raise_not_lost sig u hs⟩
  | deliver sig u =>
    cases u with
    | main => exact ⟨fun _ => trivial, fun _ => Pid1.not_lost_of_pc (Pid1.deliver_main_pc h)⟩
    | other => exact Pid1.deliver_other_not_lost_iff h hs
  | main => exact Pid1.main_not_lost_iff h

/-- A run in which no request is ever lost, step by step. -/
theorem no_lost_shutdown_iff (es : List Event) :
    Runs.Always step (fun s => ¬s.Lost) .init es ↔ Runs.Meets step Wakes .init es :=
  Runs.always_iff_meets step_not_lost_iff (Pid1.not_lost_of_pc (by simp [Pid1.init])) es

/-- A shutdown requested over the control socket while the main thread sleeps, and a SIGTERM taken
before it calls `pause`. -/
theorem shutdown_lost :
    (∃ s, Runs.exec step .init [.main, .main, .request false] = some s ∧ s.Lost) ∧
    ∃ s, Runs.exec step .init [.main, .raise .sigterm .main, .deliver .sigterm .main, .main] =
      some s ∧ s.Lost :=
  ⟨⟨_, rfl, by decide⟩, ⟨_, rfl, by decide⟩⟩

/-! A request that is not lost is served: the signal on its way ends `pause`, and the loads that
follow see the flag. -/

theorem exec_loadReboot {s : Pid1} (hpc : s.pc = .loadReboot) (hreq : s.Requested) :
    ∃ es t action, Runs.exec step s es = some t ∧ t.pc = .returned action := by
  by_cases hreboot : s.rebootRequested
  · refine ⟨[.main], { s with pc := .returned .reboot }, .reboot, ?_, rfl⟩
    simp [Runs.exec, step, Pid1.main, hpc, hreboot]
  · have hshutdown : s.shutdownRequested := hreq.resolve_right hreboot
    refine ⟨[.main, .main], { s with pc := .returned .powerOff }, .powerOff, ?_, rfl⟩
    simp [Runs.exec, step, Pid1.main, hpc, hreboot, hshutdown]

theorem returns_of_not_lost {s : Pid1} (hs : ¬s.Lost) (hreq : s.Requested)
    (hpc : s.pc = .paused) :
    ∃ es t action, Runs.exec step s es = some t ∧ t.pc = .returned action := by
  obtain ⟨sig, hmem⟩ := Pid1.not_lost_iff.1 hs hreq hpc
  let woken : Pid1 :=
    { s.handle sig with pending := s.pending.erase (sig, .main), pc := .loadReboot }
  have hdeliver : step s (.deliver sig .main) = some woken := by
    have hpaused : (s.handle sig).pc = .paused := by rw [Pid1.handle_pc, hpc]
    simp [step, Pid1.deliver, hmem, hpaused, woken]
  have hwoken : woken.Requested := (Pid1.handle_requested sig).2 (.inl hreq)
  obtain ⟨es, t, action, hexec, hreturned⟩ := exec_loadReboot (s := woken) rfl hwoken
  refine ⟨.deliver sig .main :: es, t, action, ?_, hreturned⟩
  simp only [Runs.exec, hdeliver, Option.bind_some, hexec]

end Quantra.Shutdown
