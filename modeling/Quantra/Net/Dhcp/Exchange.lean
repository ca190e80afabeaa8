import Quantra.Net.Dhcp.Reply

/-! The four-way handshake of `quantra-netd` on whatever the socket delivers. -/
namespace Quantra.Dhcp
open Quantra.Net

/-- What a wait on the socket sees next. Datagrams may come from anyone, in any order. -/
inductive SocketEvent
  | datagram (bytes : List UInt8)
  | failed (error : String)
  | elapsed
  deriving DecidableEq, Repr

/-- How a wait under `timeout` ends. -/
inductive Received
  | reply (r : DhcpReply)
  | failed (error : String)
  | elapsed
  | panicked
  deriving DecidableEq, Repr

/-- Length of the receive buffer; the rest of a longer datagram is dropped. -/
def recvBuffer : ℕ := 1500

/-- The receive loop: parse until a reply has the transaction id and a type that `expected`
takes. When nothing more arrives the timeout ends it. -/
def recvUntil (xid : UInt32) (expected : UInt8 → Bool) :
    List SocketEvent → Received × List SocketEvent
  | [] => (.elapsed, [])
  | .elapsed :: events => (.elapsed, events)
  | .failed error :: events => (.failed ("recv DHCP: " ++ error), events)
  | .datagram bytes :: events =>
    match parseReply (bytes.take recvBuffer) with
    | none => (.panicked, events)
    | some none => recvUntil xid expected events
    | some (some r) =>
      if r.xid ≠ xid then recvUntil xid expected events
      else if expected r.msgType then (.reply r, events)
      else recvUntil xid expected events

def recvMatching (xid : UInt32) (expected : UInt8) :
    List SocketEvent → Received × List SocketEvent :=
  recvUntil xid (· == expected)

def recvMatchingMulti (xid : UInt32) (expectedTypes : List UInt8) :
    List SocketEvent → Received × List SocketEvent :=
  recvUntil xid (expectedTypes.contains ·)

/-- Outside the datagrams: the transaction ids that `make_xid` gives from clock and MAC, and the
sends that fail. -/
structure ExchangeEnv where
  makeXid : ℕ → UInt32
  sendDiscover : ℕ → Except String Unit
  sendRequest : ℕ → Except String Unit

inductive Failure
  | error (message : String)
  | panic
  deriving DecidableEq, Repr

/-- The result of the handshake and the messages it broadcast. -/
structure Outcome where
  result : Except Failure DhcpReply
  sent : List (List UInt8)

def Outcome.after (sent : List (List UInt8)) (o : Outcome) : Outcome :=
  { o with sent := sent ++ o.sent }

def maxRetries : ℕ := 3

def failedText (mac : Mac) : String :=
  "DHCP failed after " ++ toString maxRetries ++ " attempts on '" ++
    (String.fromUTF8? ⟨mac.octets.toArray⟩).getD "?" ++ "'"

/-- How the body of the retry loop ends. -/
inductive AttemptEnd
  | returned (result : Except Failure DhcpReply)
  | continued
  deriving Repr

/-- One pass through the body: how it ends, what it sent, and the events it has not seen. -/
def attemptOnce (env : ExchangeEnv) (mac : Mac) (attempt : ℕ) (events : List SocketEvent) :
    AttemptEnd × List (List UInt8) × List SocketEvent :=
  let xid := env.makeXid attempt
  let discover := (DhcpPacket.discover xid mac).bytes
  match env.sendDiscover attempt with
  | .error e => (.returned (.error (.error ("send DHCPDISCOVER: " ++ e))), [], events)
  | .ok () =>
    match recvMatching xid msgOffer events with
    | (.panicked, events) => (.returned (.error .panic), [discover], events)
    | (.failed _, events) => (.continued, [discover], events)
    | (.elapsed, events) => (.continued, [discover], events)
    | (.reply offer, events) =>
      let request := (DhcpPacket.request xid mac offer.yourIp offer.serverId false).bytes
      match env.sendRequest attempt with
      | .error e =>
        (.returned (.error (.error ("send DHCPREQUEST: " ++ e))), [discover], events)
      | .ok () =>
        match recvMatchingMulti xid [msgAck, msgNak] events with
        | (.panicked, events) => (.returned (.error .panic), [discover, request], events)
        | (.failed _, events) => (.continued, [discover, request], events)
        | (.elapsed, events) => (.continued, [discover, request], events)
        | (.reply r, events) =>
          if r.msgType = msgAck then (.returned (.ok r), [discover, request], events)
          else (.continued, [discover, request], events)

/-- The attempts that are left, counted from `attempt`. -/
def discoverRequestLoop (env : ExchangeEnv) (mac : Mac) : ℕ → ℕ → List SocketEvent → Outcome
  | 0, _, _ => ⟨.error (.error (failedText mac)), []⟩
  | left + 1, attempt, events =>
    match attemptOnce env mac attempt events with
    | (.returned result, sent, _) => ⟨result, sent⟩
    | (.continued, sent, events) =>
      (discoverRequestLoop env mac left (attempt + 1) events).after sent

def doDiscoverRequest (env : ExchangeEnv) (mac : Mac) (events : List SocketEvent) : Outcome :=
  discoverRequestLoop env mac maxRetries 1 events

/-! What a wait returns. -/

theorem exists_parseReply (buf : List UInt8) : ∃ r, parseReply buf = some r := by
  by_cases hlen : buf.length < 240
  · exact ⟨none, (parse_of_short hlen).1⟩
  · obtain ⟨r, l, -, hparse, -⟩ := parsers_eq (Nat.le_of_not_lt hlen)
    exact ⟨_, hparse⟩

/-- A datagram is passed over or ends the wait. -/
theorem recvUntil_datagram (xid : UInt32) (expected : UInt8 → Bool) (bytes : List UInt8)
    (events : List SocketEvent) :
    (recvUntil xid expected (.datagram bytes :: events) = recvUntil xid expected events ∧
      ∀ r, parseReply (bytes.take recvBuffer) = some (some r) → r.xid = xid →
        expected r.msgType = false) ∨
    ∃ r, recvUntil xid expected (.datagram bytes :: events) = (.reply r, events) ∧
      parseReply (bytes.take recvBuffer) = some (some r) ∧ r.xid = xid ∧ expected r.msgType := by
  rw [recvUntil]
  obtain ⟨parsed, hparsed⟩ := exists_parseReply (bytes.take recvBuffer)
  rw [hparsed]
  cases parsed with
  | none =>
    refine .inl ⟨rfl, ?_⟩
    intro r hr
    cases hr
  | some r =>
    by_cases hxid : r.xid = xid
    · by_cases htype : expected r.msgType
      · exact .inr ⟨r, by simp [hxid, htype], rfl, hxid, htype⟩
      · refine .inl ⟨by simp [hxid, htype], ?_⟩
        intro r' hr' _
        cases hr'
        simpa using htype
    · refine .inl ⟨by simp [hxid], ?_⟩
      intro r' hr' hxid'
      cases hr'
      exact absurd hxid' hxid

/-- A reply with the id and the type is among the events, nothing before it would have been
taken, and the wait leaves what comes after it. -/
theorem recvUntil_reply {xid : UInt32} {expected : UInt8 → Bool} {events rest : List SocketEvent}
    {r : DhcpReply} (h : recvUntil xid expected events = (.reply r, rest)) :
    ∃ before bytes, events = before ++ .datagram bytes :: rest ∧
      parseReply (bytes.take recvBuffer) = some (some r) ∧ r.xid = xid ∧ expected r.msgType ∧
      ∀ earlier r', .datagram earlier ∈ before →
        parseReply (earlier.take recvBuffer) = some (some r') → r'.xid = xid →
        expected r'.msgType = false := by
  induction events with
  | nil => cases h
  | cons event events ih =>
    cases event with
    | elapsed => cases h
    | failed e => cases h
    | datagram bytes =>
      obtain ⟨hskip, hpass⟩ | ⟨r', hreply, hparse, hxid, htype⟩ :=
        recvUntil_datagram xid expected bytes events
      · -- one more datagram on the way to the accepted one
        rw [hskip] at h
        obtain ⟨before, d, hevents, hparse, hxid, htype, hfirst⟩ := ih h
        refine ⟨.datagram bytes :: before, d, by rw [hevents, List.cons_append], hparse, hxid,
          htype, fun earlier r' hmem => ?_⟩
        cases hmem with
        | head => exact hpass r'
        | tail _ hmem => exact hfirst earlier r' hmem
      · rw [hreply] at h
        cases h
        exact ⟨[], bytes, rfl, hparse, hxid, htype, nofun⟩

theorem recvUntil_ne_panicked {xid : UInt32} {expected : UInt8 → Bool}
    {events : List SocketEvent} : (recvUntil xid expected events).1 ≠ .panicked := by
  induction events with
  | nil => nofun
  | cons event events ih =>
    cases event with
    | elapsed => nofun
    | failed e => nofun
    | datagram bytes =>
      obtain ⟨hskip, -⟩ | ⟨r, hreply, -⟩ := recvUntil_datagram xid expected bytes events
      · rw [hskip]
        exact ih
      · rw [hreply]
        nofun

/-- A wait consumes events from the front. -/
theorem recvUntil_suffix {xid : UInt32} {expected : UInt8 → Bool} {events : List SocketEvent} :
    (recvUntil xid expected events).2 <:+ events := by
  induction events with
  | nil => exact List.suffix_rfl
  | cons event events ih =>
    have htail : events <:+ event :: events := List.suffix_cons event events
    cases event with
    | elapsed => exact htail
    | failed e => exact htail
    | datagram bytes =>
      obtain ⟨hskip, -⟩ | ⟨r, hreply, -⟩ := recvUntil_datagram xid expected bytes events
      · rw [hskip]
        exact ih.trans htail
      · rw [hreply]
        exact htail

/-! Where a lease comes from. -/

/-- The lease is the first ACK (or NAK) with the transaction id of the last REQUEST, received after
the OFFER that the REQUEST answers. -/
def FromAck (mac : Mac) (events : List SocketEvent) (sent : List (List UInt8))
    (xid : UInt32) (offer lease : DhcpReply) (between : List SocketEvent) : Prop :=
  ∃ before offered acked after,
    events = before ++ .datagram offered :: (between ++ .datagram acked :: after) ∧
    Accepts (offered.take recvBuffer) xid msgOffer offer ∧
    sent.getLast? = some (DhcpPacket.request xid mac offer.yourIp offer.serverId false).bytes ∧
    Accepts (acked.take recvBuffer) xid msgAck lease ∧
    ∀ earlier r, .datagram earlier ∈ between → ∀ msgType ∈ [msgAck, msgNak],
      ¬ Accepts (earlier.take recvBuffer) xid msgType r

theorem FromAck.after {mac : Mac} {events rest : List SocketEvent} {sent earlier : List (List UInt8)}
    {xid : UInt32} {offer lease : DhcpReply} {between : List SocketEvent}
    (h : FromAck mac rest sent xid offer lease between) (hrest : rest <:+ events) :
    FromAck mac events (earlier ++ sent) xid offer lease between := by
  obtain ⟨before, offered, acked, after, hevents, hoffer, hsent, hack, hfirst⟩ := h
  obtain ⟨front, rfl⟩ := hrest
  refine ⟨front ++ before, offered, acked, after, ?_, hoffer, ?_, hack, hfirst⟩
  · rw [hevents, List.append_assoc]
  · rw [List.getLast?_append, hsent]
    rfl

/-- One attempt returns a lease only from an ACK to its own REQUEST, never panics, and otherwise
goes on with the events it has not seen. -/
def AttemptSpec (mac : Mac) (events : List SocketEvent) :
    AttemptEnd × List (List UInt8) × List SocketEvent → Prop
  | (.returned (.ok lease), sent, _) =>
    ∃ xid offer between, FromAck mac events sent xid offer lease between
  | (.returned (.error failure), _, _) => failure ≠ .panic
  | (.continued, _, rest) => rest <:+ events

theorem attemptOnce_spec (env : ExchangeEnv) (mac : Mac) (attempt : ℕ)
    (events : List SocketEvent) : AttemptSpec mac events (attemptOnce env mac attempt events) := by
  have hwait : ∀ {expected : UInt8 → Bool} {waiting rest : List SocketEvent} {got : Received},
      recvUntil (env.makeXid attempt) expected waiting = (got, rest) →
      rest <:+ waiting ∧ got ≠ .panicked := by
    intro expected waiting rest got hgot
    have hsuffix : (recvUntil (env.makeXid attempt) expected waiting).2 <:+ waiting :=
      recvUntil_suffix
    have hpanic : (recvUntil (env.makeXid attempt) expected waiting).1 ≠ .panicked :=
      recvUntil_ne_panicked
    rw [hgot] at hsuffix hpanic
    exact ⟨hsuffix, hpanic⟩
  unfold attemptOnce recvMatching recvMatchingMulti
  dsimp only
  cases hdiscover : env.sendDiscover attempt with
  | error e => exact nofun
  | ok u =>
    cases hoffers : recvUntil (env.makeXid attempt) (· == msgOffer) events with
    | mk got rest =>
      obtain ⟨hrest, hpanic⟩ := hwait hoffers
      simp only
      cases got with
      | panicked => exact absurd rfl hpanic
      | failed e => exact hrest
      | elapsed => exact hrest
      | reply offer =>
        dsimp only
        cases hrequest : env.sendRequest attempt with
        | error e => exact nofun
        | ok u =>
          dsimp only
          cases hacks : recvUntil (env.makeXid attempt) ([msgAck, msgNak].contains ·) rest with
          | mk got' rest' =>
            obtain ⟨hrest', hpanic'⟩ := hwait hacks
            cases got' with
            | panicked => exact absurd rfl hpanic'
            | failed e => exact hrest'.trans hrest
            | elapsed => exact hrest'.trans hrest
            | reply r =>
              by_cases hack : r.msgType = msgAck
              · simp only [hack, if_true]
                obtain ⟨before, offered, hevents, hparse, hxid, htype, -⟩ := recvUntil_reply hoffers
                obtain ⟨between, acked, hrest, hparse', hxid', -, hfirst⟩ := recvUntil_reply hacks
                refine ⟨env.makeXid attempt, offer, between, before, offered, acked, rest', ?_,
                  ⟨hparse, hxid, by simpa using htype⟩, rfl, ⟨hparse', hxid', hack⟩, ?_⟩
                · rw [hevents, hrest]
                · intro earlier r' hmem msgType htype ⟨hr', hx, ht⟩
                  have hnot := hfirst earlier r' hmem hr' hx
                  rw [ht, List.contains_iff_mem.2 htype] at hnot
                  cases hnot
              · simp only [hack, if_false]
                exact hrest'.trans hrest

theorem discoverRequestLoop_spec (env : ExchangeEnv) (mac : Mac) (left attempt : ℕ)
    (events : List SocketEvent) :
    (∀ lease, (discoverRequestLoop env mac left attempt events).result = .ok lease →
      ∃ xid offer between, FromAck mac events (discoverRequestLoop env mac left attempt events).sent
        xid offer lease between) ∧
    (discoverRequestLoop env mac left attempt events).result ≠ .error .panic := by
  induction left generalizing attempt events with
  | zero => exact ⟨nofun, nofun⟩
  | succ left ih =>
    have hspec := attemptOnce_spec env mac attempt events
    unfold discoverRequestLoop
    cases hattempt : attemptOnce env mac attempt events with
    | mk ended rest =>
      obtain ⟨sent, rest⟩ := rest
      rw [hattempt] at hspec
      cases ended with
      | returned result =>
        cases result with
        | ok lease =>
          refine ⟨fun lease' heq => ?_, nofun⟩
          cases heq
          exact hspec
        | error failure =>
          refine ⟨nofun, fun heq => ?_⟩
          cases heq
          exact hspec rfl
      | continued =>
        obtain ⟨hlease, hpanic⟩ := ih (attempt + 1) rest
        refine ⟨fun lease heq => ?_, hpanic⟩
        obtain ⟨xid, offer, between, hack⟩ := hlease lease heq
        exact ⟨xid, offer, between, hack.after hspec⟩

/-- A lease that the handshake returns comes from an ACK that carries the transaction id of the
last REQUEST, and that REQUEST asks the server of the selected OFFER for its address. No ACK or NAK
with that id lies between the OFFER and this one. -/
theorem lease_from_ack (env : ExchangeEnv) (mac : Mac) (events : List SocketEvent)
    (lease : DhcpReply) (h : (doDiscoverRequest env mac events).result = .ok lease) :
    ∃ xid offer before offered between acked after request,
      events = before ++ .datagram offered :: (between ++ .datagram acked :: after) ∧
      Accepts (offered.take recvBuffer) xid msgOffer offer ∧
      (doDiscoverRequest env mac events).sent.getLast? = some request ∧
      xidOf request = some xid ∧
      (optRequestedIp, offer.yourIp.octets) ∈ optionsOf request ∧
      (optServerId, offer.serverId.octets) ∈ optionsOf request ∧
      Accepts (acked.take recvBuffer) xid msgAck lease ∧
      ∀ earlier r, .datagram earlier ∈ between → ∀ msgType ∈ [msgAck, msgNak],
        ¬ Accepts (earlier.take recvBuffer) xid msgType r := by
  obtain ⟨xid, offer, between, before, offered, acked, after, hevents, hoffer, hsent, hack, hfirst⟩ :=
    (discoverRequestLoop_spec env mac maxRetries 1 events).1 lease h
  obtain ⟨hxid, hoptions⟩ := request_wire xid mac offer.yourIp offer.serverId
  refine ⟨xid, offer, before, offered, between, acked, after, _, hevents, hoffer, hsent, hxid, ?_,
    ?_, hack, hfirst⟩
  · rw [hoptions]
    simp
  · rw [hoptions]
    simp

/-- A reply of the given type that assigns `ip` on behalf of `server`. -/
def serverReply (xid : UInt32) (msgType : UInt8) (ip server : Ipv4Addr) : List UInt8 :=
  [opReply, 0, 0, 0] ++ Bytes.toBeBytes xid ++ List.replicate 8 0 ++ ip.octets ++
    List.replicate 216 0 ++ magicCookie ++ Tlv.encode optMsgType [msgType] ++
    Tlv.encode optServerId server.octets ++ [optEnd]

/-- Every send succeeds and every attempt uses transaction id 7. -/
def quietEnv : ExchangeEnv := ⟨fun _ => 7, fun _ => .ok (), fun _ => .ok ()⟩

def testMac : Mac := ⟨2, 0, 0, 0, 0, 1⟩

/-- One server offers and acknowledges; a stale OFFER and a foreign ACK lie in between. -/
def honestEvents : List SocketEvent :=
  [.datagram (serverReply 6 msgOffer ⟨10, 0, 0, 9⟩ ⟨10, 0, 0, 1⟩),
    .datagram (serverReply 7 msgOffer ⟨10, 0, 0, 5⟩ ⟨10, 0, 0, 1⟩),
    .datagram (serverReply 8 msgAck ⟨10, 0, 0, 8⟩ ⟨10, 0, 0, 1⟩),
    .datagram (serverReply 7 msgAck ⟨10, 0, 0, 5⟩ ⟨10, 0, 0, 1⟩)]

private theorem eq_ok_of_toOption {x : Except Failure DhcpReply} {r : DhcpReply}
    (h : x.toOption = some r) : x = .ok r := by
  cases x with
  | error failure => cases h
  | ok a => exact congrArg Except.ok (Option.some.inj h)

theorem lease_from_ack_honest :
    ∃ lease, (doDiscoverRequest quietEnv testMac honestEvents).result = .ok lease ∧
      lease.yourIp = ⟨10, 0, 0, 5⟩ ∧
      ∃ xid acked, .datagram acked ∈ honestEvents ∧
        Accepts (acked.take recvBuffer) xid msgAck lease := by
  have hresult : (doDiscoverRequest quietEnv testMac honestEvents).result = .ok ⟨msgAck,
      ⟨10, 0, 0, 5⟩, .unspecified, ⟨10, 0, 0, 1⟩, ⟨255, 255, 255, 0⟩, none, [], 86400, 7⟩ :=
    eq_ok_of_toOption (by decide +kernel)
  obtain ⟨xid, offer, before, offered, between, acked, after, request, hevents, -, -, -, -, -,
    hack, -⟩ := lease_from_ack quietEnv testMac honestEvents _ hresult
  refine ⟨_, hresult, rfl, xid, acked, ?_, hack⟩
  rw [hevents]
  simp

/-- The first server's OFFER is selected and requested, and an ACK of a second server with the
same transaction id becomes the lease. -/
theorem lease_from_other_server :
    let o := doDiscoverRequest quietEnv testMac
      [.datagram (serverReply 7 msgOffer ⟨10, 0, 0, 5⟩ ⟨10, 0, 0, 1⟩),
        .datagram (serverReply 7 msgAck ⟨192, 168, 9, 9⟩ ⟨192, 168, 9, 1⟩)]
    (∃ request, o.sent.getLast? = some request ∧
      (optRequestedIp, [10, 0, 0, 5]) ∈ optionsOf request ∧
      (optServerId, [10, 0, 0, 1]) ∈ optionsOf request) ∧
    ∃ lease, o.result = .ok lease ∧ lease.yourIp = ⟨192, 168, 9, 9⟩ ∧
      lease.serverId = ⟨192, 168, 9, 1⟩ := by
  intro o
  have hsent : o.sent.getLast? = some (DhcpPacket.request 7 testMac ⟨10, 0, 0, 5⟩
      ⟨10, 0, 0, 1⟩ false).bytes := by
    decide +kernel
  have hresult : o.result = .ok ⟨msgAck, ⟨192, 168, 9, 9⟩, .unspecified, ⟨192, 168, 9, 1⟩,
      ⟨255, 255, 255, 0⟩, none, [], 86400, 7⟩ :=
    eq_ok_of_toOption (by decide +kernel)
  obtain ⟨-, hoptions⟩ := request_wire 7 testMac ⟨10, 0, 0, 5⟩ ⟨10, 0, 0, 1⟩
  refine ⟨⟨_, hsent, ?_, ?_⟩, _, hresult, rfl, rfl⟩
  · rw [hoptions]
    decide
  · rw [hoptions]
    decide

end Quantra.Dhcp
