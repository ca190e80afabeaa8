import Quantra.Net.Dhcp.Lease

/-! The IPv4 addresses that `apply_lease` configures, next to the leases that `store_lease` stores.
Every path that runs a new handshake applies its ACK before it stores it; the two paths that renew
with the server of the lease store the ACK alone. -/
namespace Quantra.Dhcp
open Quantra.Net

/-- The interface an operation works on. -/
def Op.iface : Op → Option String
  | .acquire iface => some iface
  | .renew iface _ => some iface
  | .release iface _ => some iface
  | .task iface _ => some iface
  | .done => none

/-- `address` is the `your_ip` of the last ACK that `apply_lease` put on the interface without an
error. -/
structure Host where
  daemon : Daemon
  address : String → Option Ipv4Addr

def Host.init : Host := ⟨.init, fun _ => none⟩

/-- Only the end of a handshake applies its lease. -/
def Host.apply (s : Host) : LeaseEvent → String → Option Ipv4Addr
  | .complete i (.leased ack _) =>
    match (s.daemon.ops[i]?).bind Op.iface with
    | some iface => Function.update s.address iface (some ack.yourIp)
    | none => s.address
  | _ => s.address

def hostStep (checks : Bool) (s : Host) (e : LeaseEvent) : Option Host :=
  (leaseStep checks s.daemon e).map fun daemon => ⟨daemon, s.apply e⟩

/-- The address of a stored lease is the one configured on its interface. -/
def LeasesApplied (s : Host) : Prop :=
  ∀ iface lease, s.daemon.leases iface = some lease → s.address iface = some lease.yourIp

/-- A renewal that the server acknowledges hands out the address that is configured already. -/
def RenewsInPlace (s : Host) : LeaseEvent → Prop
  | .complete i (.acked ack) =>
    ∀ iface ∈ (s.daemon.ops[i]?).bind Op.iface, s.address iface = some ack.yourIp
  | _ => True

instance (s : Host) (e : LeaseEvent) : Decidable (RenewsInPlace s e) :=
  match e with
  | .complete _ (.acked _) => inferInstanceAs (Decidable (∀ _ ∈ _, _))
  | .complete _ (.leased _ _) => inferInstanceAs (Decidable True)
  | .complete _ .sent => inferInstanceAs (Decidable True)
  | .complete _ .failed => inferInstanceAs (Decidable True)
  | .acquire _ => inferInstanceAs (Decidable True)
  | .renew _ => inferInstanceAs (Decidable True)
  | .release _ => inferInstanceAs (Decidable True)
  | .timer _ => inferInstanceAs (Decidable True)

/-! What a step does to the leases. -/

/-- The ACK that the end of an operation brings, whether it was applied or not. -/
def Completion.ack? : Completion → Option DhcpReply
  | .acked ack => some ack
  | .leased ack _ => some ack
  | _ => none

variable {checks : Bool} {s t : Daemon} {i : ℕ} {op : Op} {c : Completion} {ack : DhcpReply}

theorem leases_acquired {iface : String} {mac : Mac} :
    (s.acquired checks iface ack mac).leases =
      Function.update s.leases iface (some ⟨ack.yourIp, ack.serverId, ack.leaseSecs, mac⟩) :=
  Daemon.leases_spawnRenewal

/-- An operation that ends with an ACK stores it as the lease of its interface. -/
theorem leases_resume_of_ack (hack : c.ack? = some ack) (h : resume checks s i op c = some t) :
    ∃ iface mac, op.iface = some iface ∧
      t.leases = Function.update s.leases iface
        (some ⟨ack.yourIp, ack.serverId, ack.leaseSecs, mac⟩) := by
  cases c with
  | sent => cases hack
  | failed => cases hack
  | acked ack' =>
    cases hack
    cases op with
    | renew iface stored =>
      cases h
      exact ⟨iface, stored.mac, rfl, rfl⟩
    | task iface phase =>
      cases phase with
      | renewing stored =>
        cases h
        exact ⟨iface, stored.mac, rfl, rfl⟩
      | untilT1 => cases h
      | reacquiring => cases h
      | untilT2 => cases h
      | rebinding => cases h
    | acquire iface => cases h
    | release iface stored => cases h
    | done => cases h
  | leased ack' mac =>
    cases hack
    cases op with
    | acquire iface =>
      cases h
      exact ⟨iface, mac, rfl, leases_acquired⟩
    | renew iface stored =>
      cases h
      exact ⟨iface, mac, rfl, rfl⟩
    | task iface phase =>
      cases phase with
      | renewing stored =>
        cases h
        exact ⟨iface, mac, rfl, rfl⟩
      | reacquiring =>
        cases h
        exact ⟨iface, mac, rfl, leases_acquired⟩
      | rebinding =>
        cases h
        exact ⟨iface, mac, rfl, rfl⟩
      | untilT1 => cases h
      | untilT2 => cases h
    | release iface stored => cases h
    | done => cases h

/-- Every other end of an operation can only remove a lease. -/
theorem leases_resume_of_no_ack (hack : c.ack? = none) (h : resume checks s i op c = some t)
    {x : String} {lease : ActiveLease} (hlease : t.leases x = some lease) :
    s.leases x = some lease := by
  have hremove : ∀ {iface : String}, ((s.setOp i .done).removeLease iface).leases x = some lease →
      s.leases x = some lease := by
    intro iface hlease
    by_cases hx : x = iface
    · rw [hx, Daemon.leases_removeLease_self] at hlease
      cases hlease
    · rwa [Daemon.leases_removeLease_of_ne hx] at hlease
  cases c with
  | acked ack => cases hack
  | leased ack mac => cases hack
  | sent =>
    cases op with
    | release iface stored =>
      cases h
      exact hremove hlease
    | acquire iface => cases h
    | renew iface stored => cases h
    | task iface phase => cases phase <;> cases h
    | done => cases h
  | failed =>
    cases op with
    | task iface phase =>
      cases phase with
      | rebinding =>
        cases h
        exact hremove hlease
      | renewing stored =>
        cases h
        exact hlease
      | reacquiring =>
        cases h
        exact hlease
      | untilT1 => cases h
      | untilT2 => cases h
    | acquire iface =>
      cases h
      exact hlease
    | renew iface stored =>
      cases h
      exact hlease
    | release iface stored =>
      cases h
      exact hlease
    | done => cases h

/-- Only the end of an operation changes a lease. -/
theorem leases_leaseStep {e : LeaseEvent} (hne : ∀ i c, e ≠ .complete i c)
    (h : leaseStep checks s e = some t) : t.leases = s.leases := by
  cases e with
  | acquire iface =>
    cases h
    rfl
  | renew iface =>
    cases hlease : s.leases iface <;> simp only [leaseStep, hlease] at h <;> cases h <;> rfl
  | release iface =>
    cases hlease : s.leases iface <;> simp only [leaseStep, hlease] at h <;> cases h <;> rfl
  | timer i =>
    dsimp only [leaseStep] at h
    split at h
    · split at h <;> cases h <;> rfl
    · cases h
      rfl
    · cases h
  | complete i c => exact absurd rfl (hne i c)

/-! Stored and configured. -/

variable {h h' : Host} {daemon : Daemon} {address : String → Option Ipv4Addr}

/-- A step that stores nothing and applies nothing. -/
theorem LeasesApplied.of_subset (hlaw : LeasesApplied h)
    (hsub : ∀ x lease, daemon.leases x = some lease → h.daemon.leases x = some lease) :
    LeasesApplied ⟨daemon, h.address⟩ := fun x lease hlease => hlaw x lease (hsub x lease hlease)

/-- After a lease was stored for an interface, the law is about that interface only. -/
theorem leasesApplied_iff_of_store {iface : String} {lease : ActiveLease} (hlaw : LeasesApplied h)
    (hleases : daemon.leases = Function.update h.daemon.leases iface (some lease))
    (haddress : ∀ x, x ≠ iface → address x = h.address x) :
    LeasesApplied ⟨daemon, address⟩ ↔ address iface = some lease.yourIp := by
  constructor
  · intro hlaw'
    apply hlaw' iface lease
    show daemon.leases iface = some lease
    rw [hleases, Function.update_self]
  · intro hiface x lease' hlease
    show address x = some lease'.yourIp
    replace hlease : daemon.leases x = some lease' := hlease
    rw [hleases] at hlease
    by_cases hx : x = iface
    · subst hx
      rw [Function.update_self] at hlease
      cases hlease
      exact hiface
    · rw [Function.update_of_ne hx] at hlease
      rw [haddress x hx]
      exact hlaw x lease' hlease

theorem leasesApplied_iff {e : LeaseEvent} (hlaw : LeasesApplied h)
    (hstep : hostStep checks h e = some h') : LeasesApplied h' ↔ RenewsInPlace h e := by
  obtain ⟨daemon, hnext, rfl⟩ := Option.map_eq_some_iff.1 hstep
  by_cases hcomplete : ∃ i c, e = .complete i c
  · obtain ⟨i, c, rfl⟩ := hcomplete
    obtain ⟨op, hop, hresume⟩ := Option.bind_eq_some_iff.1 hnext
    cases c with
    | acked ack =>
      obtain ⟨iface, mac, hiface, hleases⟩ := leases_resume_of_ack rfl hresume
      show LeasesApplied ⟨daemon, h.address⟩ ↔ _
      rw [leasesApplied_iff_of_store hlaw hleases fun _ _ => rfl]
      simp [RenewsInPlace, hop, hiface]
    | leased ack mac =>
      obtain ⟨iface, mac, hiface, hleases⟩ := leases_resume_of_ack rfl hresume
      have hbind : (h.daemon.ops[i]?).bind Op.iface = some iface := by rw [hop]; exact hiface
      refine iff_of_true ((leasesApplied_iff_of_store hlaw hleases ?_).2 ?_) trivial
      · intro x hx
        simp [Host.apply, hbind, Function.update_of_ne hx]
      · simp [Host.apply, hbind]
    | sent =>
      refine iff_of_true (hlaw.of_subset fun x lease hlease => ?_) trivial
      exact leases_resume_of_no_ack rfl hresume hlease
    | failed =>
      refine iff_of_true (hlaw.of_subset fun x lease hlease => ?_) trivial
      exact leases_resume_of_no_ack rfl hresume hlease
  · have hne : ∀ i c, e ≠ .complete i c := fun i c he => hcomplete ⟨i, c, he⟩
    have hleases : daemon.leases = h.daemon.leases := leases_leaseStep hne hnext
    cases e with
    | complete i c => exact absurd rfl (hne i c)
    | acquire iface => exact iff_of_true (hlaw.of_subset (by simp [hleases])) trivial
    | renew iface => exact iff_of_true (hlaw.of_subset (by simp [hleases])) trivial
    | release iface => exact iff_of_true (hlaw.of_subset (by simp [hleases])) trivial
    | timer i => exact iff_of_true (hlaw.of_subset (by simp [hleases])) trivial

theorem leasesApplied_init : LeasesApplied .init := fun _ _ hlease => nomatch hlease

/-- In every run the stored leases are the configured ones in every state exactly if no ACK of a
renewal brings another address than the one that is configured. -/
theorem stored_leases_applied_iff (checks : Bool) (events : List LeaseEvent) :
    Runs.Always (hostStep checks) LeasesApplied .init events ↔
      Runs.Meets (hostStep checks) RenewsInPlace .init events :=
  Runs.always_iff_meets leasesApplied_iff leasesApplied_init events

/-- The server renews the lease of `acquireEth0` with another address. -/
def movedAck : DhcpReply := { someAck with yourIp := ⟨10, 0, 0, 9⟩ }

/-- At T1 as well as on request, the new lease is stored and the old address stays. -/
theorem stored_lease_not_applied :
    ¬Runs.Always (hostStep false) LeasesApplied .init
      (acquireEth0 ++ [.timer 1, .complete 1 (.acked movedAck)]) ∧
    ¬Runs.Always (hostStep false) LeasesApplied .init
      (acquireEth0 ++ [.renew "eth0", .complete 2 (.acked movedAck)]) := by
  have hnot : ∀ {events}, (Runs.exec (hostStep false) .init events).isSome →
      Runs.exec (Runs.guarded (hostStep false) RenewsInPlace) .init events = none →
      ¬Runs.Always (hostStep false) LeasesApplied .init events := by
    intro events hsome hnone
    rw [Runs.always_iff_meets leasesApplied_iff leasesApplied_init]
    exact Runs.not_meets_of_exec hsome hnone
  refine ⟨hnot ?_ ?_, hnot ?_ ?_⟩
  all_goals decide +kernel

end Quantra.Dhcp
