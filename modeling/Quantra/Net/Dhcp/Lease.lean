import Quantra.Lib.Runs
import Quantra.Net.Dhcp.Exchange
import Mathlib.Logic.Function.Basic

/-! Stored leases and renewal tasks of `quantra-netd`. Operations are asynchronous: between two
of their awaits any other operation may run, so each await is a program point here. -/
namespace Quantra.Dhcp
open Quantra.Net

structure ActiveLease where
  yourIp : Ipv4Addr
  serverId : Ipv4Addr
  leaseSecs : UInt32
  mac : Mac
  deriving DecidableEq, Repr

/-- Where a renewal task is suspended: the sleep until T1, `dhcp_renew` with the lease it found
or the full acquire it falls back to, the sleep until T2, and the rebind. -/
inductive Phase
  | untilT1
  | renewing (stored : ActiveLease)
  | reacquiring
  | untilT2
  | rebinding
  deriving DecidableEq, Repr

/-- An operation in flight: the handlers of the three commands and the renewal task. -/
inductive Op
  | acquire (iface : String)
  | renew (iface : String) (stored : ActiveLease)
  | release (iface : String) (stored : ActiveLease)
  | task (iface : String) (phase : Phase)
  | done
  deriving DecidableEq, Repr

structure Daemon where
  leases : String → Option ActiveLease
  ops : List Op

def Daemon.init : Daemon := ⟨fun _ => none, []⟩

namespace Daemon

def storeLease (s : Daemon) (iface : String) (ack : DhcpReply) (mac : Mac) : Daemon :=
  let lease : ActiveLease := ⟨ack.yourIp, ack.serverId, ack.leaseSecs, mac⟩
  { s with leases := Function.update s.leases iface (some lease) }

def removeLease (s : Daemon) (iface : String) : Daemon :=
  { s with leases := Function.update s.leases iface none }

def setOp (s : Daemon) (i : ℕ) (op : Op) : Daemon := { s with ops := s.ops.set i op }

def push (s : Daemon) (op : Op) : Daemon := { s with ops := s.ops ++ [op] }

end Daemon

/-- `lease_secs * 7` fits in a `u32`, or the build wraps it silently. -/
def TimersFit (checks : Bool) (leaseSecs : UInt32) : Prop :=
  checks = true → leaseSecs.toNat * 7 < 2 ^ 32

instance (checks : Bool) (leaseSecs : UInt32) : Decidable (TimersFit checks leaseSecs) :=
  inferInstanceAs (Decidable (_ → _))

/-- The task computes its timers first: with overflow checks it dies there on a lease time whose
T2 overflows. -/
def Daemon.spawnRenewal (checks : Bool) (s : Daemon) (iface : String) (leaseSecs : UInt32) :
    Daemon :=
  if TimersFit checks leaseSecs then s.push (.task iface .untilT1) else s.push .done

/-- How an operation in flight ends its await: the renewal ACK arrived; a handshake succeeded and
its lease was applied; RELEASE was sent; or an error came back. -/
inductive Completion
  | acked (ack : DhcpReply)
  | leased (ack : DhcpReply) (mac : Mac)
  | sent
  | failed
  deriving DecidableEq, Repr

inductive LeaseEvent
  | acquire (iface : String)
  | renew (iface : String)
  | release (iface : String)
  | timer (i : ℕ)
  | complete (i : ℕ) (c : Completion)
  deriving DecidableEq, Repr

/-- `dhcp_acquire` after a successful handshake: store, then spawn. -/
def Daemon.acquired (checks : Bool) (s : Daemon) (iface : String) (ack : DhcpReply) (mac : Mac) :
    Daemon :=
  (s.storeLease iface ack mac).spawnRenewal checks iface ack.leaseSecs

/-- The code between one await of an operation and its next. -/
def resume (checks : Bool) (s : Daemon) (i : ℕ) : Op → Completion → Option Daemon
  | .acquire iface, .leased ack mac => some ((s.setOp i .done).acquired checks iface ack mac)
  | .acquire _, .failed => some (s.setOp i .done)
  | .renew iface stored, .acked ack => some ((s.setOp i .done).storeLease iface ack stored.mac)
  | .renew iface _, .leased ack mac => some ((s.setOp i .done).storeLease iface ack mac)
  | .renew _ _, .failed => some (s.setOp i .done)
  | .release iface _, .sent => some ((s.setOp i .done).removeLease iface)
  | .release _ _, .failed => some (s.setOp i .done)
  | .task iface (.renewing stored), .acked ack =>
    some ((s.setOp i .done).storeLease iface ack stored.mac)
  | .task iface (.renewing _), .leased ack mac =>
    some ((s.setOp i .done).storeLease iface ack mac)
  | .task iface (.renewing _), .failed => some (s.setOp i (.task iface .untilT2))
  | .task iface .reacquiring, .leased ack mac =>
    some ((s.setOp i .done).acquired checks iface ack mac)
  | .task iface .reacquiring, .failed => some (s.setOp i (.task iface .untilT2))
  | .task iface .rebinding, .leased ack mac => some ((s.setOp i .done).storeLease iface ack mac)
  | .task iface .rebinding, .failed => some ((s.setOp i .done).removeLease iface)
  | _, _ => none

/-- A command reaches the daemon, a timer of a task fires, or an operation goes on. -/
def leaseStep (checks : Bool) (s : Daemon) : LeaseEvent → Option Daemon
  | .acquire iface => some (s.push (.acquire iface))
  | .renew iface =>
    match s.leases iface with
    | some stored => some (s.push (.renew iface stored))
    | none => some (s.push (.acquire iface))
  | .release iface =>
    match s.leases iface with
    | some stored => some (s.push (.release iface stored))
    | none => some s
  | .timer i =>
    match s.ops[i]? with
    | some (.task iface .untilT1) =>
      match s.leases iface with
      | some stored => some (s.setOp i (.task iface (.renewing stored)))
      | none => some (s.setOp i (.task iface .reacquiring))
    | some (.task iface .untilT2) => some (s.setOp i (.task iface .rebinding))
    | _ => none
  | .complete i c => (s.ops[i]?).bind fun op => resume checks s i op c

/-! One task for each stored lease. -/

def Op.isTaskOf (iface : String) : Op → Bool
  | .task x _ => x = iface
  | _ => false

/-- The renewal tasks of an interface that have not ended. -/
def Daemon.tasks (s : Daemon) (iface : String) : ℕ := s.ops.countP (·.isTaskOf iface)

def Daemon.Balanced (s : Daemon) (iface : String) : Prop :=
  s.tasks iface = if (s.leases iface).isSome then 1 else 0

/-- Exactly one renewal task for an interface with a stored lease and none for any other. -/
def OneTaskPerLease (s : Daemon) : Prop := ∀ iface, s.Balanced iface

/-- What the completion of an operation must find so that leases and tasks stay paired. -/
def KeepsPaired (checks : Bool) (s : Daemon) : LeaseEvent → Prop
  | .complete i c =>
    match s.ops[i]?, c with
    | some (.acquire iface), .leased ack _ =>
      s.leases iface = none ↔ TimersFit checks ack.leaseSecs
    | some (.renew iface _), .acked _ => (s.leases iface).isSome
    | some (.renew iface _), .leased _ _ => (s.leases iface).isSome
    | some (.release iface _), .sent => s.leases iface = none
    | some (.task _ (.renewing _)), .acked _ => False
    | some (.task _ (.renewing _)), .leased _ _ => False
    | some (.task _ .reacquiring), .leased ack _ => TimersFit checks ack.leaseSecs
    | some (.task _ .rebinding), .leased _ _ => False
    | _, _ => True
  | _ => True

namespace Daemon

variable {s s' : Daemon} {i : ℕ} {op old : Op} {x iface : String} {ack : DhcpReply} {mac : Mac}

@[simp]
theorem leases_setOp : (s.setOp i op).leases = s.leases := rfl

@[simp]
theorem tasks_storeLease : (s.storeLease iface ack mac).tasks x = s.tasks x := rfl

@[simp]
theorem tasks_removeLease : (s.removeLease iface).tasks x = s.tasks x := rfl

@[simp]
theorem leases_storeLease_self :
    (s.storeLease iface ack mac).leases iface =
      some ⟨ack.yourIp, ack.serverId, ack.leaseSecs, mac⟩ :=
  Function.update_self ..

@[simp]
theorem leases_removeLease_self : (s.removeLease iface).leases iface = none :=
  Function.update_self ..

theorem leases_storeLease_of_ne (h : x ≠ iface) :
    (s.storeLease iface ack mac).leases x = s.leases x := Function.update_of_ne h ..

theorem leases_removeLease_of_ne (h : x ≠ iface) :
    (s.removeLease iface).leases x = s.leases x := Function.update_of_ne h ..

@[simp]
theorem tasks_push : (s.push op).tasks x = s.tasks x + if op.isTaskOf x then 1 else 0 := by
  unfold tasks push
  rw [List.countP_append, List.countP_singleton]

/-- A task in flight is counted. -/
theorem tasks_pos (h : s.ops[i]? = some old) (htask : old.isTaskOf x) : 1 ≤ s.tasks x := by
  have hmem : old ∈ s.ops := List.mem_of_getElem? h
  exact List.countP_pos_iff.2 ⟨old, hmem, htask⟩

theorem tasks_setOp (h : s.ops[i]? = some old) : (s.setOp i op).tasks x =
    s.tasks x - (if old.isTaskOf x then 1 else 0) + if op.isTaskOf x then 1 else 0 := by
  obtain ⟨hi, hget⟩ := List.getElem?_eq_some_iff.1 h
  unfold tasks setOp
  rw [List.countP_set hi, hget]

theorem leases_spawnRenewal {checks : Bool} {leaseSecs : UInt32} :
    (s.spawnRenewal checks iface leaseSecs).leases = s.leases := by
  unfold spawnRenewal
  split <;> rfl

theorem tasks_spawnRenewal {checks : Bool} {leaseSecs : UInt32} :
    (s.spawnRenewal checks iface leaseSecs).tasks x =
      s.tasks x + if TimersFit checks leaseSecs ∧ iface = x then 1 else 0 := by
  unfold spawnRenewal
  by_cases hfit : TimersFit checks leaseSecs <;> simp [hfit, Op.isTaskOf]

end Daemon

variable {checks : Bool} {s s' : Daemon} {iface : String}

/-- A step that touches one interface only has to keep that one balanced. -/
theorem oneTaskPerLease_iff (iface : String) (h : OneTaskPerLease s)
    (hframe : ∀ x, x ≠ iface → s'.leases x = s.leases x ∧ s'.tasks x = s.tasks x) :
    OneTaskPerLease s' ↔ s'.Balanced iface := by
  constructor
  · intro h'
    exact h' iface
  · intro hiface x
    by_cases hx : x = iface
    · rw [hx]
      exact hiface
    · obtain ⟨hleases, htasks⟩ := hframe x hx
      unfold Daemon.Balanced
      rw [hleases, htasks]
      exact h x

/-- A step that changes neither leases nor task counts keeps them paired. -/
theorem OneTaskPerLease.of_eq (h : OneTaskPerLease s) (hleases : s'.leases = s.leases)
    (htasks : ∀ x, s'.tasks x = s.tasks x) : OneTaskPerLease s' := by
  intro x
  unfold Daemon.Balanced
  rw [hleases, htasks]
  exact h x

variable {i : ℕ} {op : Op} {ack : DhcpReply} {mac : Mac}

/-- Ending an operation drops it from the count of its own interface only. -/
theorem tasks_finish (hop : s.ops[i]? = some op) (x : String) :
    (s.setOp i .done).tasks x = s.tasks x - if op.isTaskOf x then 1 else 0 := by
  rw [Daemon.tasks_setOp hop]
  simp [Op.isTaskOf]

theorem finish_store (h : OneTaskPerLease s) (hop : s.ops[i]? = some op)
    (hother : ∀ x, x ≠ iface → op.isTaskOf x = false) :
    OneTaskPerLease ((s.setOp i .done).storeLease iface ack mac) ↔
      (s.leases iface).isSome ∧ op.isTaskOf iface = false := by
  rw [oneTaskPerLease_iff iface h]
  · have hbalanced := h iface
    unfold Daemon.Balanced at hbalanced ⊢
    rw [Daemon.leases_storeLease_self, Daemon.tasks_storeLease, tasks_finish hop, hbalanced]
    by_cases hlease : (s.leases iface).isSome <;> by_cases htask : op.isTaskOf iface <;>
      simp [hlease, htask]
  · intro x hx
    rw [Daemon.leases_storeLease_of_ne hx, Daemon.tasks_storeLease, tasks_finish hop, hother x hx]
    exact ⟨rfl, rfl⟩

theorem finish_remove (h : OneTaskPerLease s) (hop : s.ops[i]? = some op)
    (hother : ∀ x, x ≠ iface → op.isTaskOf x = false) :
    OneTaskPerLease ((s.setOp i .done).removeLease iface) ↔
      s.leases iface = none ∨ op.isTaskOf iface := by
  rw [oneTaskPerLease_iff iface h]
  · have hbalanced := h iface
    unfold Daemon.Balanced at hbalanced ⊢
    rw [Daemon.leases_removeLease_self, Daemon.tasks_removeLease, tasks_finish hop, hbalanced]
    cases hlease : s.leases iface <;> by_cases htask : op.isTaskOf iface <;> simp [htask]
  · intro x hx
    rw [Daemon.leases_removeLease_of_ne hx, Daemon.tasks_removeLease, tasks_finish hop,
      hother x hx]
    exact ⟨rfl, rfl⟩

theorem finish_acquired (h : OneTaskPerLease s) (hop : s.ops[i]? = some op)
    (hother : ∀ x, x ≠ iface → op.isTaskOf x = false) :
    OneTaskPerLease ((s.setOp i .done).acquired checks iface ack mac) ↔
      (s.leases iface = none ∨ op.isTaskOf iface ↔ TimersFit checks ack.leaseSecs) := by
  rw [oneTaskPerLease_iff iface h]
  · have hbalanced := h iface
    unfold Daemon.Balanced at hbalanced ⊢
    unfold Daemon.acquired
    rw [Daemon.leases_spawnRenewal, Daemon.tasks_spawnRenewal, Daemon.leases_storeLease_self,
      Daemon.tasks_storeLease, tasks_finish hop, hbalanced]
    cases hlease : s.leases iface <;> by_cases htask : op.isTaskOf iface <;>
      by_cases hfit : TimersFit checks ack.leaseSecs <;> simp [htask, hfit]
  · intro x hx
    unfold Daemon.acquired
    rw [Daemon.leases_spawnRenewal, Daemon.tasks_spawnRenewal, Daemon.leases_storeLease_of_ne hx,
      Daemon.tasks_storeLease, tasks_finish hop, hother x hx]
    simp [Ne.symm hx]

/-- An operation that goes on as it was, a task as a task, changes no count. -/
theorem keep_op {new : Op} (h : OneTaskPerLease s) (hop : s.ops[i]? = some op)
    (hsame : ∀ x, new.isTaskOf x = op.isTaskOf x) : OneTaskPerLease (s.setOp i new) := by
  have hleases : (s.setOp i new).leases = s.leases := rfl
  apply h.of_eq hleases
  intro x
  have hpos := Daemon.tasks_pos (x := x) hop
  rw [Daemon.tasks_setOp hop, hsame x]
  by_cases htask : op.isTaskOf x
  · have hcount := hpos htask
    rw [if_pos htask]
    omega
  · simp [htask]

/-- A new operation that is no task changes no count. -/
theorem push_op (h : OneTaskPerLease s) (hop : ∀ x, op.isTaskOf x = false) :
    OneTaskPerLease (s.push op) := by
  have hleases : (s.push op).leases = s.leases := rfl
  apply h.of_eq hleases
  intro x
  rw [Daemon.tasks_push, hop x]
  rfl

/-- A renewal task that ends or goes on. -/
theorem resume_task_paired_iff {c : Completion} {x : String} {phase : Phase}
    (h : OneTaskPerLease s) (hop : s.ops[i]? = some (.task x phase))
    (hnext : resume checks s i (.task x phase) c = some s') :
    OneTaskPerLease s' ↔ KeepsPaired checks s (.complete i c) := by
  unfold KeepsPaired
  simp only [hop]
  have hother : ∀ y, y ≠ x → (Op.task x phase).isTaskOf y = false := by
    intro y hy
    simp [Op.isTaskOf, Ne.symm hy]
  have hself : (Op.task x phase).isTaskOf x = true := by simp [Op.isTaskOf]
  cases phase with
  | renewing stored =>
    cases c with
    | acked ack =>
      cases hnext
      rw [finish_store h hop hother, hself]
      simp
    | leased ack mac =>
      cases hnext
      rw [finish_store h hop hother, hself]
      simp
    | failed =>
      cases hnext
      exact iff_true_intro (keep_op h hop fun _ => rfl)
    | sent => cases hnext
  | reacquiring =>
    cases c with
    | leased ack mac =>
      cases hnext
      rw [finish_acquired h hop hother, hself]
      simp
    | failed =>
      cases hnext
      exact iff_true_intro (keep_op h hop fun _ => rfl)
    | acked ack => cases hnext
    | sent => cases hnext
  | rebinding =>
    cases c with
    | leased ack mac =>
      cases hnext
      rw [finish_store h hop hother, hself]
      simp
    | failed =>
      cases hnext
      rw [finish_remove h hop hother, hself]
      simp
    | acked ack => cases hnext
    | sent => cases hnext
  | untilT1 => cases c <;> cases hnext
  | untilT2 => cases c <;> cases hnext

theorem resume_paired_iff {c : Completion} (h : OneTaskPerLease s) (hop : s.ops[i]? = some op)
    (hnext : resume checks s i op c = some s') :
    OneTaskPerLease s' ↔ KeepsPaired checks s (.complete i c) := by
  unfold KeepsPaired
  simp only [hop]
  cases op with
  | acquire x =>
    cases c with
    | leased ack mac =>
      cases hnext
      rw [finish_acquired h hop (fun _ _ => rfl)]
      simp [Op.isTaskOf]
    | failed =>
      cases hnext
      exact iff_true_intro (keep_op h hop fun _ => rfl)
    | acked ack => cases hnext
    | sent => cases hnext
  | renew x stored =>
    cases c with
    | acked ack =>
      cases hnext
      rw [finish_store h hop (fun _ _ => rfl)]
      simp [Op.isTaskOf]
    | leased ack mac =>
      cases hnext
      rw [finish_store h hop (fun _ _ => rfl)]
      simp [Op.isTaskOf]
    | failed =>
      cases hnext
      exact iff_true_intro (keep_op h hop fun _ => rfl)
    | sent => cases hnext
  | release x stored =>
    cases c with
    | sent =>
      cases hnext
      rw [finish_remove h hop (fun _ _ => rfl)]
      simp [Op.isTaskOf]
    | failed =>
      cases hnext
      exact iff_true_intro (keep_op h hop fun _ => rfl)
    | acked ack => cases hnext
    | leased ack mac => cases hnext
  | task x phase =>
    have htask := resume_task_paired_iff h hop hnext
    unfold KeepsPaired at htask
    simpa only [hop] using htask
  | done => cases c <;> cases hnext

/-- Exactly the completions that `KeepsPaired` describes keep leases and tasks paired. -/
theorem leaseStep_paired_iff {e : LeaseEvent} (h : OneTaskPerLease s)
    (hstep : leaseStep checks s e = some s') : OneTaskPerLease s' ↔ KeepsPaired checks s e := by
  cases e with
  | acquire iface =>
    cases hstep
    exact iff_true_intro (push_op h fun _ => rfl)
  | renew iface =>
    apply iff_true_intro
    cases hlease : s.leases iface <;> simp only [leaseStep, hlease] at hstep <;> cases hstep
    · exact push_op h fun _ => rfl
    · exact push_op h fun _ => rfl
  | release iface =>
    apply iff_true_intro
    cases hlease : s.leases iface <;> simp only [leaseStep, hlease] at hstep <;> cases hstep
    · exact h
    · exact push_op h fun _ => rfl
  | timer i =>
    apply iff_true_intro
    dsimp only [leaseStep] at hstep
    split at hstep
    · rename_i iface hop
      split at hstep <;> cases hstep <;> exact keep_op h hop fun _ => rfl
    · rename_i iface hop
      cases hstep
      exact keep_op h hop fun _ => rfl
    · cases hstep
  | complete i c =>
    obtain ⟨op, hop, hnext⟩ := Option.bind_eq_some_iff.1 hstep
    exact resume_paired_iff h hop hnext

theorem oneTaskPerLease_init : OneTaskPerLease .init := fun _ => rfl

/-- In a run of commands, timers and completions every stored lease has its one renewal task in
every state exactly when each completion finds what `KeepsPaired` says. In particular no T1 renewal
and no T2 rebind of a task may succeed, and no release. -/
theorem leases_paired_iff (checks : Bool) (events : List LeaseEvent) :
    Runs.Always (leaseStep checks) OneTaskPerLease .init events ↔
      Runs.Meets (leaseStep checks) (KeepsPaired checks) .init events :=
  Runs.always_iff_meets leaseStep_paired_iff oneTaskPerLease_init events

/-- An ACK for ten minutes. -/
def someAck : DhcpReply :=
  ⟨msgAck, ⟨10, 0, 0, 5⟩, .unspecified, ⟨10, 0, 0, 1⟩, ⟨255, 255, 255, 0⟩, none, [], 600, 7⟩

def acquireEth0 : List LeaseEvent := [.acquire "eth0", .complete 0 (.leased someAck testMac)]

/-- Leases and live tasks of `eth0` at the end of a run. -/
def eth0After (events : List LeaseEvent) : Option (Bool × ℕ) :=
  (Runs.exec (leaseStep false) .init events).map fun s =>
    ((s.leases "eth0").isSome, s.tasks "eth0")

/-- After a T1 renewal the lease has no task, after a release the task has no lease, and after two
acquires the lease has two tasks. -/
theorem leases_unpaired :
    eth0After (acquireEth0 ++ [.timer 1, .complete 1 (.acked someAck)]) = some (true, 0) ∧
    eth0After (acquireEth0 ++ [.release "eth0", .complete 2 .sent]) = some (false, 1) ∧
    eth0After (acquireEth0 ++ [.acquire "eth0", .complete 2 (.leased someAck testMac)]) =
      some (true, 2) := by
  decide +kernel

end Quantra.Dhcp
