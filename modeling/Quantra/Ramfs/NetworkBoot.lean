import Quantra.Net.Dhcp.Exchange
import Quantra.Net.ResolvConf

/-! `network_boot.rs`: the DHCP client of the initramfs, and the step of `main` that uses it. -/
namespace Quantra.NetworkBoot

open Quantra.Net Quantra.Dhcp

/-- What a receive call comes to; `wouldBlock` is its own timeout. -/
inductive Receive
  | datagram (bytes : List UInt8)
  | wouldBlock
  | failed (error : String)
  deriving DecidableEq, Repr

/-- One pass of a loop that waits: the nanoseconds since the start, and what is received then. -/
structure Turn where
  elapsed : ℕ
  receive : Receive
  deriving DecidableEq, Repr

inductive Waited
  | lease (l : DhcpLease)
  | late
  | failed (error : String)
  | panicked

/-- The loops that wait for a reply, with a timeout in milliseconds. After the turns it is over. -/
def waitFor (timeout : ℕ) (xid : UInt32) (iface : String) (expectedType : UInt8) :
    List Turn → Waited × List Turn
  | [] => (.late, [])
  | turn :: turns =>
    if timeout * 1000000 < turn.elapsed then (.late, turn :: turns)
    else match turn.receive with
      | .datagram bytes =>
        match parseDhcpReply (bytes.take recvBuffer) xid iface expectedType with
        | none => (.panicked, turns)
        | some none => waitFor timeout xid iface expectedType turns
        | some (some l) => (.lease l, turns)
      | .wouldBlock => waitFor timeout xid iface expectedType turns
      | .failed error => (.failed error, turns)

/-- The header of both messages, with the cookie. -/
def header (mac : Mac) (xid : UInt32) : List UInt8 :=
  [opRequest, htypeEthernet, 6, 0] ++ Bytes.toBeBytes xid ++ [0, 0, 0x80, 0] ++
    List.replicate 16 0 ++ mac.octets ++ List.replicate 202 0 ++ magicCookie

def buildDhcpDiscover (mac : Mac) (xid : UInt32) : List UInt8 :=
  header mac xid ++ [optMsgType, 1, msgDiscover] ++
    [optParamList, 4, optSubnetMask, optRouter, optDns, optLeaseTime] ++ [optEnd]

def buildDhcpRequest (mac : Mac) (xid : UInt32) (offeredIp serverIp : Ipv4Addr) : List UInt8 :=
  header mac xid ++ [optMsgType, 1, msgRequest] ++ [optRequestedIp, 4] ++ offeredIp.octets ++
    [optServerId, 4] ++ serverIp.octets ++ [optEnd]

/-- Outside the datagrams: the files of an interface, the socket and its options, the transaction
id, the sends, and what becomes of a call of `ip` after those before it. -/
structure Env where
  readMac : String → Except String Mac
  xid : String → UInt32
  socket : String → Except String Unit
  sendDiscover : String → Except String Unit
  sendRequest : String → Except String Unit
  turns : String → List Turn
  ip : List (List String) → List String → Except String Unit

def error {α : Type} (message : String) : Except Failure α := .error (.error message)

/-- `dhcp_acquire`: the result, and what was sent. -/
def dhcpAcquire (env : Env) (iface : String) (timeout : ℕ) :
    Except Failure DhcpLease × List (List UInt8) :=
  match env.readMac iface with
  | .error e => (error e, [])
  | .ok mac =>
    let xid := env.xid iface
    let discover := buildDhcpDiscover mac xid
    match env.socket iface with
    | .error e => (error e, [])
    | .ok () =>
      match env.sendDiscover iface with
      | .error e => (error ("send DHCPDISCOVER: " ++ e), [])
      | .ok () =>
        match waitFor timeout xid iface msgOffer (env.turns iface) with
        | (.panicked, _) => (.error .panic, [discover])
        | (.late, _) =>
          (error ("DHCP timeout after " ++ toString timeout ++ "ms on " ++ iface), [discover])
        | (.failed e, _) => (error ("recv DHCPOFFER: " ++ e), [discover])
        | (.lease offer, turns) =>
          let request := buildDhcpRequest mac xid offer.ip offer.serverIp
          match env.sendRequest iface with
          | .error e => (error ("send DHCPREQUEST: " ++ e), [discover])
          | .ok () =>
            match waitFor timeout xid iface msgAck turns with
            | (.panicked, _) => (.error .panic, [discover, request])
            | (.late, _) => (error ("DHCP ACK timeout on " ++ iface), [discover, request])
            | (.failed e, _) => (error ("recv DHCPACK: " ++ e), [discover, request])
            | (.lease l, _) => (.ok l, [discover, request])

/-! What is configured with a lease. -/

/-- The calls of `ip` that are made, and what is written to `resolv.conf`, if it is. -/
structure Host where
  ran : List (List String)
  resolv : Option String
  deriving DecidableEq, Repr

def maskToPrefix (mask : Ipv4Addr) : ℕ :=
  mask.octets.foldl (fun n b => n + (List.range 8).countP fun i => b.toNat.testBit i) 0

def runIp (env : Env) (args : List String) (host : Host) : Except String Unit × Host :=
  (env.ip host.ran args, { host with ran := host.ran ++ [args] })

def addrArgs (l : DhcpLease) : List String :=
  ["addr", "add", l.ip.text ++ "/" ++ toString (maskToPrefix l.subnetMask), "dev", l.iface]

def upArgs (iface : String) : List String := ["link", "set", iface, "up"]

def routeArgs (gw : Ipv4Addr) (iface : String) : List String :=
  ["route", "add", "default", "via", gw.text, "dev", iface]

/-- `DhcpLease::apply`. -/
def apply (env : Env) (l : DhcpLease) (host : Host) : Except String Unit × Host :=
  match runIp env (addrArgs l) host with
  | (.error e, host) => (.error e, host)
  | (.ok (), host) =>
    match runIp env (upArgs l.iface) host with
    | (.error e, host) => (.error e, host)
    | (.ok (), host) =>
      let host := match l.gateway with
        | some gw => (runIp env (routeArgs gw l.iface) host).2
        | none => host
      (.ok (), { host with resolv := some (String.join (l.dns.map fun ip => entry ip.text)) })

/-- `dhcp_any_interface`. -/
def dhcpAnyInterface (env : Env) (timeout : ℕ) : List String → Host → Option DhcpLease × Host
  | [], host => (none, host)
  | iface :: ifaces, host =>
    let host := (runIp env (upArgs iface) host).2
    match (dhcpAcquire env iface timeout).1 with
    | .ok l => (some l, (apply env l host).2)
    | .error _ => dhcpAnyInterface env timeout ifaces host

/-- The step of `main` for `ip=dhcp` (no interface) and `ip=<iface>:dhcp`, with ten seconds for an
interface; the interfaces are those of `list_interfaces`. -/
def dhcpStep (env : Env) (ipIface : Option String) (interfaces : List String) (host : Host) :
    Option DhcpLease × Host :=
  match ipIface with
  | some iface => ((dhcpAcquire env iface 10000).1.toOption, host)
  | none => dhcpAnyInterface env 10000 interfaces host

/-! The handshake. -/

/-- The datagrams that are looked at: none after the timeout, or after a call that fails. -/
def heard (timeout : ℕ) : List Turn → List (List UInt8)
  | [] => []
  | turn :: turns =>
    if timeout * 1000000 < turn.elapsed then []
    else match turn.receive with
      | .datagram bytes => bytes :: heard timeout turns
      | .wouldBlock => heard timeout turns
      | .failed _ => []

/-- The lease in a datagram, if it is a reply of the wanted type to this client. -/
def leaseIn (xid : UInt32) (iface : String) (expectedType : UInt8) (bytes : List UInt8) :
    Option DhcpLease :=
  (parseDhcpReply (bytes.take recvBuffer) xid iface expectedType).join

/-- The first lease of that kind, and what comes after it. -/
def answered (xid : UInt32) (iface : String) (expectedType : UInt8) :
    List (List UInt8) → Option (DhcpLease × List (List UInt8))
  | [] => none
  | b :: bs =>
    match leaseIn xid iface expectedType b with
    | some l => some (l, bs)
    | none => answered xid iface expectedType bs

section Handshake
variable {env : Env} {timeout : ℕ} {xid : UInt32} {iface : String} {expectedType : UInt8}
  {turns : List Turn} {l : DhcpLease}

theorem exists_parseDhcpReply (buf : List UInt8) (xid : UInt32) (iface : String)
    (expectedType : UInt8) : ∃ r, parseDhcpReply buf xid iface expectedType = some r := by
  by_cases hlen : buf.length < 240
  · exact ⟨none, (parse_of_short hlen).2 xid iface expectedType⟩
  · obtain ⟨r, l, -, -, hparse⟩ := parsers_eq (Nat.le_of_not_lt hlen)
    exact ⟨_, hparse xid iface expectedType⟩

theorem parseDhcpReply_eq_leaseIn (bytes : List UInt8) :
    parseDhcpReply (bytes.take recvBuffer) xid iface expectedType =
      some (leaseIn xid iface expectedType bytes) := by
  obtain ⟨r, hr⟩ := exists_parseDhcpReply (bytes.take recvBuffer) xid iface expectedType
  unfold leaseIn
  rw [hr, Option.join_some]

theorem waitFor_cons (turn : Turn) (turns : List Turn) :
    waitFor timeout xid iface expectedType (turn :: turns) =
      if timeout * 1000000 < turn.elapsed then (.late, turn :: turns)
      else match turn.receive with
        | .datagram bytes =>
          match parseDhcpReply (bytes.take recvBuffer) xid iface expectedType with
          | none => (.panicked, turns)
          | some none => waitFor timeout xid iface expectedType turns
          | some (some l) => (.lease l, turns)
        | .wouldBlock => waitFor timeout xid iface expectedType turns
        | .failed error => (.failed error, turns) := rfl

theorem heard_cons (turn : Turn) (turns : List Turn) :
    heard timeout (turn :: turns) =
      if timeout * 1000000 < turn.elapsed then []
      else match turn.receive with
        | .datagram bytes => bytes :: heard timeout turns
        | .wouldBlock => heard timeout turns
        | .failed _ => [] := rfl

/-- A wait returns the first lease in what is heard and goes on after it; it does not panic. -/
theorem waitFor_spec (timeout : ℕ) (xid : UInt32) (iface : String) (expectedType : UInt8)
    (turns : List Turn) :
    match answered xid iface expectedType (heard timeout turns) with
    | some (l, later) => ∃ rest, waitFor timeout xid iface expectedType turns = (.lease l, rest) ∧
        heard timeout rest = later
    | none => ∃ rest, waitFor timeout xid iface expectedType turns = (.late, rest) ∨
        ∃ e, waitFor timeout xid iface expectedType turns = (.failed e, rest) := by
  induction turns with
  | nil => exact ⟨[], .inl rfl⟩
  | cons turn turns ih =>
    rw [waitFor_cons, heard_cons]
    by_cases hlate : timeout * 1000000 < turn.elapsed
    · rw [if_pos hlate, if_pos hlate]
      exact ⟨_, .inl rfl⟩
    · rw [if_neg hlate, if_neg hlate]
      cases turn.receive with
      | wouldBlock => exact ih
      | failed e => exact ⟨_, .inr ⟨e, rfl⟩⟩
      | datagram bytes =>
        dsimp only
        rw [parseDhcpReply_eq_leaseIn, answered]
        cases leaseIn xid iface expectedType bytes with
        | none => exact ih
        | some l => exact ⟨turns, rfl, rfl⟩

/-- Where the interface, the socket and the sends are in order: the lease is that of the first ACK
after the first OFFER, whichever server the one and the other are from. -/
theorem dhcpAcquire_eq {mac : Mac} (hmac : env.readMac iface = .ok mac)
    (hsocket : env.socket iface = .ok ()) (hdiscover : env.sendDiscover iface = .ok ())
    (hrequest : env.sendRequest iface = .ok ()) :
    (dhcpAcquire env iface timeout).1 ≠ .error .panic ∧
    (dhcpAcquire env iface timeout).1.toOption =
      (answered (env.xid iface) iface msgOffer (heard timeout (env.turns iface))).bind
        fun offered => (answered (env.xid iface) iface msgAck offered.2).map Prod.fst := by
  have hfirst := waitFor_spec timeout (env.xid iface) iface msgOffer (env.turns iface)
  unfold dhcpAcquire
  rw [hmac, hsocket, hdiscover, hrequest]
  dsimp only
  cases hoffered : answered (env.xid iface) iface msgOffer (heard timeout (env.turns iface)) with
  | none =>
    rw [hoffered] at hfirst
    obtain ⟨rest, hlate | ⟨e, hfailed⟩⟩ := hfirst
    · rw [hlate]
      exact ⟨nofun, rfl⟩
    · rw [hfailed]
      exact ⟨nofun, rfl⟩
  | some offered =>
    rw [hoffered] at hfirst
    obtain ⟨rest, hoffer, hlater⟩ := hfirst
    have hsecond := waitFor_spec timeout (env.xid iface) iface msgAck rest
    rw [hoffer, Option.bind_some, ← hlater]
    dsimp only
    cases hacked : answered (env.xid iface) iface msgAck (heard timeout rest) with
    | none =>
      rw [hacked] at hsecond
      obtain ⟨rest, hlate | ⟨e, hfailed⟩⟩ := hsecond
      · rw [hlate]
        exact ⟨nofun, rfl⟩
      · rw [hfailed]
        exact ⟨nofun, rfl⟩
    | some acked =>
      rw [hacked] at hsecond
      obtain ⟨rest, hack, -⟩ := hsecond
      rw [hack]
      exact ⟨nofun, rfl⟩

/-- A lease is for the interface that it was asked for on. -/
theorem iface_of_parseDhcpReply {buf : List UInt8}
    (h : parseDhcpReply buf xid iface expectedType = some (some l)) : l.iface = iface := by
  unfold parseDhcpReply at h
  split at h
  · cases h
  · obtain ⟨op, -, h⟩ := Option.bind_eq_some_iff.1 h
    split at h
    · cases h
    · obtain ⟨rxXid, -, h⟩ := Option.bind_eq_some_iff.1 h
      split at h
      · cases h
      · obtain ⟨yourIp, -, h⟩ := Option.bind_eq_some_iff.1 h
        obtain ⟨cookie, -, h⟩ := Option.bind_eq_some_iff.1 h
        split at h
        · cases h
        · obtain ⟨v, -, h⟩ := Option.bind_eq_some_iff.1 h
          split at h
          · cases h
          · cases h
            rfl

theorem iface_of_waitFor {turns rest : List Turn}
    (h : waitFor timeout xid iface expectedType turns = (.lease l, rest)) : l.iface = iface := by
  induction turns with
  | nil => cases h
  | cons turn turns ih =>
    rw [waitFor_cons] at h
    split at h
    · cases h
    · split at h
      · split at h
        · cases h
        · exact ih h
        · rename_i hparse
          cases h
          exact iface_of_parseDhcpReply hparse
      · exact ih h
      · cases h

theorem iface_of_dhcpAcquire (h : (dhcpAcquire env iface timeout).1 = .ok l) : l.iface = iface := by
  unfold dhcpAcquire at h
  split at h
  · cases h
  · dsimp only at h
    split at h
    · cases h
    · split at h
      · cases h
      · split at h
        · cases h
        · cases h
        · cases h
        · split at h
          · cases h
          · split at h
            · cases h
            · cases h
            · cases h
            · rename_i hack
              cases h
              exact iface_of_waitFor hack

/-- One server makes the offer, and another one with the same transaction id acknowledges. -/
def strangerAcks : Env where
  readMac _ := .ok testMac
  xid _ := 7
  socket _ := .ok ()
  sendDiscover _ := .ok ()
  sendRequest _ := .ok ()
  turns _ := [⟨5000, .wouldBlock⟩,
    ⟨5100, .datagram (serverReply 7 msgOffer ⟨10, 0, 0, 5⟩ ⟨10, 0, 0, 1⟩)⟩,
    ⟨5200, .datagram (serverReply 7 msgAck ⟨192, 168, 9, 9⟩ ⟨192, 168, 9, 1⟩)⟩]
  ip _ _ := .ok ()

theorem dhcpAcquire_eq_stranger :
    (dhcpAcquire strangerAcks "eth0" 10000).1.toOption.map (·.serverIp) = some ⟨192, 168, 9, 1⟩ := by
  rw [(dhcpAcquire_eq rfl rfl rfl rfl).2]
  decide +kernel

end Handshake

section Step
variable {env : Env} {timeout : ℕ} {host host' : Host} {l : DhcpLease}

/-- A lease that is applied is asked for as an address of its interface. -/
theorem addrArgs_mem_apply (env : Env) (l : DhcpLease) (host : Host) :
    addrArgs l ∈ (apply env l host).2.ran := by
  have hmine : addrArgs l ∈ host.ran ++ [addrArgs l] :=
    List.mem_append_right _ (List.mem_singleton_self _)
  unfold apply runIp
  cases env.ip host.ran (addrArgs l) with
  | error e => exact hmine
  | ok _ =>
    dsimp only
    cases env.ip (host.ran ++ [addrArgs l]) (upArgs l.iface) with
    | error e => exact List.mem_append_left _ hmine
    | ok _ =>
      dsimp only
      cases l.gateway with
      | none => exact List.mem_append_left _ hmine
      | some gw => exact List.mem_append_left _ (List.mem_append_left _ hmine)

/-- The interfaces are tried in their order, and each is set up for that. -/
theorem dhcpAnyInterface_eq_some {interfaces : List String}
    (h : dhcpAnyInterface env timeout interfaces host = (some l, host')) :
    ∃ before after, interfaces = before ++ l.iface :: after ∧
      (∀ iface ∈ before, (dhcpAcquire env iface timeout).1.toOption = none) ∧
      (dhcpAcquire env l.iface timeout).1 = .ok l ∧
      host' = (apply env l
        { host with ran := host.ran ++ (before ++ [l.iface]).map upArgs }).2 := by
  induction interfaces generalizing host with
  | nil => cases h
  | cons iface ifaces ih =>
    unfold dhcpAnyInterface runIp at h
    dsimp only at h
    split at h
    · rename_i lease hlease
      cases h
      obtain rfl := iface_of_dhcpAcquire hlease
      exact ⟨[], ifaces, rfl, nofun, hlease, rfl⟩
    · rename_i e hfailed
      obtain ⟨before, after, rfl, hbefore, hlease, hhost⟩ := ih h
      refine ⟨iface :: before, after, rfl, ?_, hlease, ?_⟩
      · intro i hi
        rcases List.mem_cons.1 hi with rfl | hi
        · rw [hfailed]
          rfl
        · exact hbefore i hi
      · rw [hhost, List.append_assoc]
        rfl

end Step

/-- What a lease changes: with an interface given, nothing at all, although a lease was got for it;
without one, the first interface for which there is a lease gets its address. -/
theorem dhcpStep_some (env : Env) (ipIface : Option String) (interfaces : List String)
    (l : DhcpLease) (host : Host)
    (h : dhcpStep env ipIface interfaces ⟨[], none⟩ = (some l, host)) :
    (dhcpAcquire env l.iface 10000).1 = .ok l ∧
    (∀ iface, ipIface = some iface → l.iface = iface ∧ host = ⟨[], none⟩) ∧
    (ipIface = none → ∃ before after, interfaces = before ++ l.iface :: after ∧
      (∀ iface ∈ before, (dhcpAcquire env iface 10000).1.toOption = none) ∧
      host = (apply env l ⟨(before ++ [l.iface]).map upArgs, none⟩).2 ∧ addrArgs l ∈ host.ran) := by
  cases ipIface with
  | some given =>
    obtain ⟨hlease, hhost⟩ := Prod.mk.inj h
    have hok : (dhcpAcquire env given 10000).1 = .ok l := by
      cases hresult : (dhcpAcquire env given 10000).1 with
      | error e =>
        rw [hresult] at hlease
        cases hlease
      | ok l' =>
        rw [hresult] at hlease
        exact congrArg Except.ok (Option.some.inj hlease)
    have hiface := iface_of_dhcpAcquire hok
    refine ⟨?_, ?_, nofun⟩
    · rw [hiface]
      exact hok
    · intro iface hgiven
      cases hgiven
      exact ⟨hiface, hhost.symm⟩
  | none =>
    obtain ⟨before, after, hinterfaces, hbefore, hlease, hhost⟩ := dhcpAnyInterface_eq_some h
    refine ⟨hlease, nofun, fun _ => ⟨before, after, hinterfaces, hbefore, hhost, ?_⟩⟩
    rw [hhost]
    exact addrArgs_mem_apply env l _

/-- `ip=eth0:dhcp` leaves `eth0` without the address that it has got a lease for. -/
theorem dhcpStep_some_named : ∃ l host,
    dhcpStep strangerAcks (some "eth0") ["eth0"] ⟨[], none⟩ = (some l, host) ∧
      l.iface = "eth0" ∧ host.ran = [] := by
  have hgot : (dhcpStep strangerAcks (some "eth0") ["eth0"] ⟨[], none⟩).1.isSome := by
    decide +kernel
  generalize hstep : dhcpStep strangerAcks (some "eth0") ["eth0"] ⟨[], none⟩ = after at hgot
  obtain ⟨lease, host⟩ := after
  obtain ⟨l, rfl⟩ := Option.isSome_iff_exists.1 hgot
  obtain ⟨hiface, hhost⟩ := (dhcpStep_some strangerAcks (some "eth0") ["eth0"] l host hstep).2.1
    "eth0" rfl
  exact ⟨l, host, rfl, hiface, congrArg Host.ran hhost⟩

end Quantra.NetworkBoot
