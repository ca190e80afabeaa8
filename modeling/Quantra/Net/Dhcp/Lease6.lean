import Quantra.Lib.Runs
import Quantra.Net.Address
import Mathlib.Algebra.Group.Nat.Defs
import Mathlib.Logic.Function.Basic

/-! DHCPv6 leases of `quantra-netd`: `dhcp6_acquire`, `dhcp6_release` and the renewal timers that
every successful acquire leaves behind. As for DHCPv4, any other operation may run at an await. -/
namespace Quantra.Dhcp6
open Quantra.Net

/-- What the handshake hands to `dhcp6_acquire`. -/
structure Dhcp6Reply where
  serverDuid : List UInt8
  iaAddress : Option Ipv6Addr
  prefixLen : UInt8
  preferred : UInt32
  valid : UInt32
  t1 : UInt32
  t2 : UInt32
  dns : List Ipv6Addr
  deriving DecidableEq, Repr

structure Dhcp6Lease where
  interface : String
  address : Ipv6Addr
  prefixLen : UInt8
  preferred : UInt32
  valid : UInt32
  dns : List Ipv6Addr
  serverDuid : List UInt8
  t1 : UInt32
  t2 : UInt32
  deriving DecidableEq, Repr

/-- `reply.preferred * 4` fits in a `u32` where it is computed, or the build wraps it silently. -/
def T2Fits (checks : Bool) (reply : Dhcp6Reply) : Prop :=
  checks = true → reply.t2 = 0 → reply.preferred.toNat * 4 < 2 ^ 32

instance (checks : Bool) (reply : Dhcp6Reply) : Decidable (T2Fits checks reply) :=
  inferInstanceAs (Decidable (_ → _))

def leaseOf (iface : String) (reply : Dhcp6Reply) (addr : Ipv6Addr) : Dhcp6Lease where
  interface := iface
  address := addr
  prefixLen := reply.prefixLen
  preferred := reply.preferred
  valid := reply.valid
  dns := reply.dns
  serverDuid := reply.serverDuid
  t1 := if reply.t1 > 0 then reply.t1 else reply.preferred / 2
  t2 := if reply.t2 > 0 then reply.t2 else reply.preferred * 4 / 5

/-- An operation in flight. A `release` has taken its lease out of the map already; `sleeping` is a
renewal timer that has not fired, `renewing` the acquire that it makes when it does. -/
inductive Op
  | acquire (iface : String)
  | release (iface : String) (lease : Dhcp6Lease)
  | sleeping (iface : String) (renewAt : UInt32)
  | renewing (iface : String)
  | done
  deriving DecidableEq, Repr

/-- `released` remembers the interfaces on which a release returned `Ok` and that no client has
asked to acquire since. -/
structure Daemon where
  leases : String → Option Dhcp6Lease
  ops : List Op
  released : String → Bool

def Daemon.init : Daemon := ⟨fun _ => none, [], fun _ => false⟩

namespace Daemon

def insertLease (s : Daemon) (iface : String) (lease : Dhcp6Lease) : Daemon :=
  { s with leases := Function.update s.leases iface (some lease) }

def removeLease (s : Daemon) (iface : String) : Daemon :=
  { s with leases := Function.update s.leases iface none }

def setReleased (s : Daemon) (iface : String) (released : Bool) : Daemon :=
  { s with released := Function.update s.released iface released }

def setOp (s : Daemon) (i : ℕ) (op : Op) : Daemon := { s with ops := s.ops.set i op }

def push (s : Daemon) (op : Op) : Daemon := { s with ops := s.ops ++ [op] }

def spawnDhcp6Renewal (s : Daemon) (iface : String) (t1 : UInt32) : Daemon :=
  s.push (.sleeping iface (max t1 30))

/-- The end of a `dhcp6_acquire` that succeeds. -/
def acquired (s : Daemon) (iface : String) (lease : Dhcp6Lease) : Daemon :=
  (s.insertLease iface lease).spawnDhcp6Renewal iface lease.t1

end Daemon

/-- How the awaits of an operation end: the handshake got a reply and the kernel took what it asked
to configure; RELEASE was sent; or a step failed (MAC, socket, handshake, netlink, send). -/
inductive Completion
  | replied (reply : Dhcp6Reply)
  | sent
  | failed
  deriving DecidableEq, Repr

inductive Outcome
  | ok (lease : Dhcp6Lease)
  | err
  | panicked
  deriving DecidableEq, Repr

/-- The result of `dhcp6_acquire`: `apply_dhcp6_lease` refuses a reply without an address, and with
overflow checks the default for T2 may panic. -/
def acquireOutcome (checks : Bool) (iface : String) : Completion → Option Outcome
  | .replied reply =>
    match reply.iaAddress with
    | none => some .err
    | some addr =>
      if T2Fits checks reply then some (.ok (leaseOf iface reply addr)) else some .panicked
  | .failed => some .err
  | .sent => none

inductive Event
  | acquire (iface : String)
  | release (iface : String)
  | timer (i : ℕ)
  | complete (i : ℕ) (c : Completion)
  deriving DecidableEq, Repr

/-- A client's `dhcp6_acquire` ends. -/
def Daemon.finishAcquire (s : Daemon) (iface : String) : Outcome → Daemon
  | .ok lease => s.acquired iface lease
  | .err => s
  | .panicked => s

/-- `dhcp6_renewal_loop` after its acquire. A panic ends the task before it looks at the result. -/
def Daemon.finishRenewal (s : Daemon) (iface : String) : Outcome → Daemon
  | .ok lease => s.acquired iface lease
  | .err => s.removeLease iface
  | .panicked => s

/-- The code after the awaits of an operation. -/
def resume (checks : Bool) (s : Daemon) (i : ℕ) : Op → Completion → Option Daemon
  | .acquire iface, c =>
    (acquireOutcome checks iface c).map ((s.setOp i .done).finishAcquire iface)
  | .renewing iface, c =>
    (acquireOutcome checks iface c).map ((s.setOp i .done).finishRenewal iface)
  | .release iface _, .sent => some ((s.setOp i .done).setReleased iface true)
  | .release _ _, .failed => some (s.setOp i .done)
  | _, _ => none

/-- A client calls, a timer fires, or an operation goes on. -/
def dhcp6Step (checks : Bool) (s : Daemon) : Event → Option Daemon
  | .acquire iface => some ((s.setReleased iface false).push (.acquire iface))
  | .release iface =>
    match s.leases iface with
    | some lease => some ((s.removeLease iface).push (.release iface lease))
    | none => some (s.setReleased iface true)
  | .timer i =>
    match s.ops[i]? with
    | some (.sleeping iface _) => some (s.setOp i (.renewing iface))
    | _ => none
  | .complete i c => (s.ops[i]?).bind fun op => resume checks s i op c

/-! What a release promises. -/

def Op.isTimerOf (iface : String) : Op → Bool
  | .sleeping x _ => x = iface
  | _ => false

/-- The pending renewal timers of an interface. -/
def Daemon.timers (s : Daemon) (iface : String) : ℕ := s.ops.countP (·.isTimerOf iface)

def AtMostOneTimer (s : Daemon) : Prop := ∀ iface, s.timers iface ≤ 1

/-- The operation is a `dhcp6_acquire` on the interface, a client's or a timer's. -/
def Op.acquires : Op → Option String
  | .acquire iface => some iface
  | .renewing iface => some iface
  | _ => none

def Outcome.isOk : Outcome → Bool
  | .ok _ => true
  | _ => false

/-- The law of a transition from `s` to `t`: a release that ends with an error leaves the lease it
found; no acquire ends with `Ok` on a released interface; and no interface has two timers. -/
structure Lawful (checks : Bool) (s : Daemon) (e : Event) (t : Daemon) : Prop where
  atomic : ∀ i iface lease, e = .complete i .failed → s.ops[i]? = some (.release iface lease) →
    t.leases iface = some lease
  final : ∀ i c op iface, e = .complete i c → s.ops[i]? = some op → op.acquires = some iface →
    (acquireOutcome checks iface c).any Outcome.isOk → s.released iface = false
  oneTimer : AtMostOneTimer t

/-- The server granted an address, and computing T2 does not panic. -/
def Completion.grants (checks : Bool) : Completion → Bool
  | .replied reply => reply.iaAddress.isSome ∧ T2Fits checks reply
  | _ => false

/-- What an operation must find when it ends: a release that fails, its lease stored again by
somebody else; an acquire that is granted, an interface neither released nor with a timer. -/
def EndsWell (checks : Bool) (s : Daemon) (c : Completion) : Op → Prop
  | .release iface lease => c = .failed → s.leases iface = some lease
  | .acquire iface => c.grants checks → s.released iface = false ∧ s.timers iface = 0
  | .renewing iface => c.grants checks → s.released iface = false ∧ s.timers iface = 0
  | _ => True

instance (checks : Bool) (s : Daemon) (c : Completion) (op : Op) :
    Decidable (EndsWell checks s c op) :=
  match op with
  | .release _ _ => inferInstanceAs (Decidable (_ → _))
  | .acquire _ => inferInstanceAs (Decidable (_ → _))
  | .renewing _ => inferInstanceAs (Decidable (_ → _))
  | .sleeping _ _ => inferInstanceAs (Decidable True)
  | .done => inferInstanceAs (Decidable True)

def KeepsReleased (checks : Bool) (s : Daemon) : Event → Prop
  | .complete i c => ∀ op ∈ s.ops[i]?, EndsWell checks s c op
  | _ => True

instance (checks : Bool) (s : Daemon) (e : Event) : Decidable (KeepsReleased checks s e) :=
  match e with
  | .complete _ _ => inferInstanceAs (Decidable (∀ _ ∈ _, _))
  | .acquire _ => inferInstanceAs (Decidable True)
  | .release _ => inferInstanceAs (Decidable True)
  | .timer _ => inferInstanceAs (Decidable True)

namespace Daemon

variable {s : Daemon} {i : ℕ} {op old : Op} {x iface : String} {lease : Dhcp6Lease}

@[simp]
theorem timers_removeLease : (s.removeLease iface).timers x = s.timers x := rfl

@[simp]
theorem timers_setReleased {released : Bool} :
    (s.setReleased iface released).timers x = s.timers x := rfl

@[simp]
theorem timers_push : (s.push op).timers x = s.timers x + if op.isTimerOf x then 1 else 0 := by
  unfold timers push
  rw [List.countP_append, List.countP_singleton]

theorem timers_setOp (h : s.ops[i]? = some old) : (s.setOp i op).timers x =
    s.timers x - (if old.isTimerOf x then 1 else 0) + if op.isTimerOf x then 1 else 0 := by
  obtain ⟨hi, hget⟩ := List.getElem?_eq_some_iff.1 h
  unfold timers setOp
  rw [List.countP_set hi, hget]

/-- An operation that is not a timer ends. -/
theorem timers_finish (h : s.ops[i]? = some old) (hold : old.isTimerOf x = false) :
    (s.setOp i .done).timers x = s.timers x := by
  rw [timers_setOp h, hold]
  rfl

theorem timers_acquired :
    (s.acquired iface lease).timers x = s.timers x + if iface = x then 1 else 0 := by
  show ((s.insertLease iface lease).push (.sleeping iface (max lease.t1 30))).timers x = _
  have hinsert : (s.insertLease iface lease).timers x = s.timers x := rfl
  rw [timers_push, hinsert]
  simp [Op.isTimerOf]

end Daemon

variable {checks : Bool} {s t : Daemon} {i : ℕ} {op : Op} {c : Completion} {iface : String}

/-- An acquire succeeds exactly on the completions that grant it an address. -/
theorem any_isOk_acquireOutcome (iface : String) :
    (acquireOutcome checks iface c).any Outcome.isOk = c.grants checks := by
  cases c with
  | replied reply =>
    unfold acquireOutcome Completion.grants
    cases haddr : reply.iaAddress with
    | none => simp [haddr, Outcome.isOk]
    | some addr => by_cases hfits : T2Fits checks reply <;> simp [haddr, hfits, Outcome.isOk]
  | sent => rfl
  | failed => rfl

theorem Op.isTimerOf_of_acquires (h : op.acquires = some iface) (x : String) :
    op.isTimerOf x = false := by
  cases op <;> first | rfl | cases h

theorem resume_of_acquires (h : op.acquires = some iface)
    (hnext : resume checks s i op c = some t) :
    ∃ outcome, acquireOutcome checks iface c = some outcome ∧
      (t = (s.setOp i .done).finishAcquire iface outcome ∨
        t = (s.setOp i .done).finishRenewal iface outcome) := by
  cases op with
  | acquire x =>
    cases h
    obtain ⟨outcome, houtcome, ht⟩ := Option.map_eq_some_iff.1 hnext
    exact ⟨outcome, houtcome, .inl ht.symm⟩
  | renewing x =>
    cases h
    obtain ⟨outcome, houtcome, ht⟩ := Option.map_eq_some_iff.1 hnext
    exact ⟨outcome, houtcome, .inr ht.symm⟩
  | release x lease => cases h
  | sleeping x renewAt => cases h
  | done => cases h

/-- An acquire that ends leaves one timer more if it was granted. -/
theorem timers_resume (hop : s.ops[i]? = some op) (h : op.acquires = some iface)
    (hnext : resume checks s i op c = some t) (x : String) :
    t.timers x = s.timers x + if c.grants checks ∧ iface = x then 1 else 0 := by
  obtain ⟨outcome, houtcome, ht⟩ := resume_of_acquires h hnext
  have hfinish : (s.setOp i .done).timers x = s.timers x :=
    Daemon.timers_finish hop (Op.isTimerOf_of_acquires h x)
  have hgrants : c.grants checks = outcome.isOk := by
    rw [← any_isOk_acquireOutcome iface, houtcome]
    rfl
  rw [hgrants, ← hfinish]
  cases outcome with
  | ok lease =>
    have hspawn : t = (s.setOp i .done).acquired iface lease := ht.elim id id
    rw [hspawn, Daemon.timers_acquired]
    simp [Outcome.isOk]
  | err =>
    have hsame : t.timers x = (s.setOp i .done).timers x := by
      obtain rfl | rfl := ht <;> rfl
    simpa [Outcome.isOk] using hsame
  | panicked =>
    have hsame : t.timers x = (s.setOp i .done).timers x := by
      obtain rfl | rfl := ht <;> rfl
    simpa [Outcome.isOk] using hsame

theorem AtMostOneTimer.of_le (h : AtMostOneTimer s) (hle : ∀ x, t.timers x ≤ s.timers x) :
    AtMostOneTimer t := fun x => Nat.le_trans (hle x) (h x)

theorem atMostOneTimer_iff {granted : Prop} [Decidable granted] (h : AtMostOneTimer s)
    (ht : ∀ x, t.timers x = s.timers x + if granted ∧ iface = x then 1 else 0) :
    AtMostOneTimer t ↔ (granted → s.timers iface = 0) := by
  constructor
  · intro hone hgranted
    have hcount := hone iface
    rw [ht iface, if_pos ⟨hgranted, rfl⟩] at hcount
    omega
  · intro hzero x
    rw [ht x]
    split
    · rename_i hx
      obtain ⟨hgranted, rfl⟩ := hx
      have hnone := hzero hgranted
      omega
    · exact h x

/-- Only the end of an operation can break the law. -/
theorem lawful_of_ne_complete {e : Event} (hne : ∀ i c, e ≠ .complete i c)
    (h : AtMostOneTimer t) : Lawful checks s e t where
  atomic i _ _ he := absurd he (hne i _)
  final i c _ _ he := absurd he (hne i c)
  oneTimer := h

/-- The end of an acquire, a client's or a timer's. -/
theorem lawful_acquires_iff (h : AtMostOneTimer s) (hop : s.ops[i]? = some op)
    (hacquires : op.acquires = some iface) (hnext : resume checks s i op c = some t) :
    Lawful checks s (.complete i c) t ↔
      (c.grants checks → s.released iface = false ∧ s.timers iface = 0) := by
  have hone := atMostOneTimer_iff h (timers_resume hop hacquires hnext)
  constructor
  · intro hlaw hgrants
    rw [← any_isOk_acquireOutcome iface] at hgrants
    have hfinal := hlaw.final i c op iface rfl hop hacquires hgrants
    rw [any_isOk_acquireOutcome] at hgrants
    exact ⟨hfinal, hone.1 hlaw.oneTimer hgrants⟩
  · intro hok
    refine ⟨?_, ?_, hone.2 fun hgrants => (hok hgrants).2⟩
    · intro j x lease he hrelease
      cases he
      rw [hop] at hrelease
      cases hrelease
      cases hacquires
    · intro j c' op' x he hop' hacquires' hgrants
      cases he
      rw [hop] at hop'
      cases hop'
      rw [hacquires] at hacquires'
      cases hacquires'
      rw [any_isOk_acquireOutcome] at hgrants
      exact (hok hgrants).1

/-- The end of a release. It changed the leases when it began, not now. -/
theorem lawful_release_iff {lease : Dhcp6Lease} (h : AtMostOneTimer s)
    (hop : s.ops[i]? = some (.release iface lease))
    (hnext : resume checks s i (.release iface lease) c = some t) :
    Lawful checks s (.complete i c) t ↔ (c = .failed → s.leases iface = some lease) := by
  have hframe : t.leases = s.leases ∧ ∀ x, t.timers x = s.timers x := by
    cases c with
    | sent =>
      cases hnext
      exact ⟨rfl, fun x => Daemon.timers_finish hop rfl⟩
    | failed =>
      cases hnext
      exact ⟨rfl, fun x => Daemon.timers_finish hop rfl⟩
    | replied reply => cases hnext
  constructor
  · rintro hlaw rfl
    rw [← hframe.1]
    exact hlaw.atomic i iface lease rfl hop
  · intro hok
    refine ⟨?_, ?_, h.of_le fun x => Nat.le_of_eq (hframe.2 x)⟩
    · intro j x lease' he hrelease
      cases he
      rw [hop] at hrelease
      cases hrelease
      rw [hframe.1]
      exact hok rfl
    · intro j c' op' x he hop' hacquires
      cases he
      rw [hop] at hop'
      cases hop'
      cases hacquires

/-- A step of the daemon is lawful exactly if an operation that ends in it ends well. -/
theorem lawful_iff {e : Event} (h : AtMostOneTimer s) (hstep : dhcp6Step checks s e = some t) :
    Lawful checks s e t ↔ KeepsReleased checks s e := by
  cases e with
  | acquire iface =>
    cases hstep
    refine iff_of_true (lawful_of_ne_complete nofun ?_) trivial
    exact h.of_le fun x => Nat.le_of_eq (by simp [Op.isTimerOf])
  | release iface =>
    refine iff_of_true (lawful_of_ne_complete nofun ?_) trivial
    cases hlease : s.leases iface <;> simp only [dhcp6Step, hlease] at hstep <;> cases hstep
    · exact h.of_le fun x => Nat.le_of_eq (by simp)
    · exact h.of_le fun x => Nat.le_of_eq (by simp [Op.isTimerOf])
  | timer i =>
    refine iff_of_true (lawful_of_ne_complete nofun ?_) trivial
    dsimp only [dhcp6Step] at hstep
    split at hstep
    · rename_i iface renewAt hop
      cases hstep
      apply h.of_le
      intro x
      rw [Daemon.timers_setOp hop]
      simp [Op.isTimerOf]
    · cases hstep
  | complete i c =>
    obtain ⟨op, hop, hnext⟩ := Option.bind_eq_some_iff.1 hstep
    have hends : KeepsReleased checks s (.complete i c) ↔ EndsWell checks s c op := by
      simp [KeepsReleased, hop]
    rw [hends]
    cases op with
    | acquire x => exact lawful_acquires_iff h hop rfl hnext
    | renewing x => exact lawful_acquires_iff h hop rfl hnext
    | release x lease => exact lawful_release_iff h hop hnext
    | sleeping x renewAt => cases c <;> cases hnext
    | done => cases c <;> cases hnext

theorem atMostOneTimer_of_lawful {e : Event} (_ : AtMostOneTimer s)
    (_ : dhcp6Step checks s e = some t) (hlaw : Lawful checks s e t) : AtMostOneTimer t :=
  hlaw.oneTimer

theorem atMostOneTimer_init : AtMostOneTimer .init := fun _ => Nat.zero_le 1

/-- In every run releases are final and atomic and timers single exactly if every operation ends in
a state as `EndsWell` has it. In particular no release may fail once it has taken its lease. -/
theorem release_final_iff (checks : Bool) (events : List Event) :
    Runs.Obeys (dhcp6Step checks) (Lawful checks) .init events ↔
      Runs.Meets (dhcp6Step checks) (KeepsReleased checks) .init events :=
  Runs.obeys_iff_meets atMostOneTimer_of_lawful lawful_iff atMostOneTimer_init events

def someAddress : Ipv6Addr := ⟨Vector.replicate 16 1⟩

def someReply : Dhcp6Reply := ⟨[0, 3, 0, 1], some someAddress, 128, 3600, 7200, 1800, 2880, []⟩

def acquireEth0 : List Event := [.acquire "eth0", .complete 0 (.replied someReply)]

def releaseEth0 (c : Completion) : List Event := [.release "eth0", .complete 2 c]

/-- A release whose send fails has lost its lease; after one that succeeds the timer of the acquire
gets a new lease; and after two acquires there are two timers. -/
theorem release_not_final :
    ¬Runs.Obeys (dhcp6Step false) (Lawful false) .init (acquireEth0 ++ releaseEth0 .failed) ∧
    ¬Runs.Obeys (dhcp6Step false) (Lawful false) .init
      (acquireEth0 ++ releaseEth0 .sent ++ [.timer 1, .complete 1 (.replied someReply)]) ∧
    ¬Runs.Obeys (dhcp6Step false) (Lawful false) .init
      (acquireEth0 ++ [.acquire "eth0", .complete 2 (.replied someReply)]) := by
  have hnot : ∀ {events}, (Runs.exec (dhcp6Step false) .init events).isSome →
      Runs.exec (Runs.guarded (dhcp6Step false) (KeepsReleased false)) .init events = none →
      ¬Runs.Obeys (dhcp6Step false) (Lawful false) .init events :=
    Runs.not_obeys_of_exec atMostOneTimer_of_lawful lawful_iff atMostOneTimer_init
  refine ⟨hnot ?_ ?_, hnot ?_ ?_, hnot ?_ ?_⟩
  all_goals decide +kernel

end Quantra.Dhcp6
