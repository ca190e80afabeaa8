import Quantra.Lib.Bytes
import Quantra.Lib.Pieces
import Quantra.Net.Resolver

/-! One DNS query of `resolver.rs` on the wire: the packet, what of the network's answers is taken
for the response, and what of it gets into the cache. -/
namespace Quantra.Dns
open Quantra.Net
open Bytes (toBeBytes16)

def qclassIn : UInt16 := 1

/-! The packet that is sent. -/

/-- The labels between the dots, empty ones left out; `label.len() as u8` keeps the low byte. -/
def qname (name : String) : List UInt8 :=
  (((Text.split '.' name).filter (· ≠ "")).flatMap fun label =>
    UInt8.ofNat (Bytes.asBytes label).length :: Bytes.asBytes label) ++ [0]

def question (name : String) (qtype : UInt16) : List UInt8 :=
  qname name ++ toBeBytes16 qtype ++ toBeBytes16 qclassIn

def buildQuery (name : String) (qtype id : UInt16) : List UInt8 :=
  toBeBytes16 id ++ toBeBytes16 0x0100 ++ toBeBytes16 1 ++ [0, 0, 0, 0, 0, 0] ++ question name qtype

/-! `parse_response`. Every position that is read is below the length checked before. -/

def byteAt (buf : List UInt8) (pos : ℕ) : UInt8 := buf.getD pos 0

def u16At (buf : List UInt8) (pos : ℕ) : UInt16 :=
  Bytes.fromBeBytes16 (byteAt buf pos) (byteAt buf (pos + 1))

def u32At (buf : List UInt8) (pos : ℕ) : UInt32 :=
  Bytes.fromBeBytes (byteAt buf pos) (byteAt buf (pos + 1)) (byteAt buf (pos + 2))
    (byteAt buf (pos + 3))

def isPointer (b : UInt8) : Bool := b &&& 0xC0 == 0xC0

/-- The loop that skips the question's name; a pointer ends it. -/
def skipQuestion (buf : List UInt8) : ℕ → ℕ → ℕ
  | 0, pos => pos
  | fuel + 1, pos =>
    if pos < buf.length ∧ byteAt buf pos ≠ 0 then
      if isPointer (byteAt buf pos) then pos + 2
      else skipQuestion buf fuel (pos + (1 + (byteAt buf pos).toNat))
    else pos

/-- The loop that skips the name of a record. -/
def skipLabels (buf : List UInt8) : ℕ → ℕ → ℕ
  | 0, pos => pos
  | fuel + 1, pos =>
    if pos < buf.length ∧ byteAt buf pos ≠ 0 then
      skipLabels buf fuel (pos + (1 + (byteAt buf pos).toNat))
    else pos

structure Record where
  rtype : UInt16
  ttl : UInt32
  rdata : List UInt8
  next : ℕ

/-- One turn of the loop over the answers; `none` where it breaks. -/
def readRecord (buf : List UInt8) (pos : ℕ) : Option Record :=
  if pos + 10 > buf.length then none
  else
    let pos := if isPointer (byteAt buf pos) then pos + 2 else skipLabels buf buf.length pos + 1
    if pos + 10 > buf.length then none
    else
      let rdlen := (u16At buf (pos + 8)).toNat
      if pos + 10 + rdlen > buf.length then none
      else some {
        rtype := u16At buf pos
        ttl := u32At buf (pos + 4)
        rdata := (buf.drop (pos + 10)).take rdlen
        next := pos + 10 + rdlen }

/-- The address of an A or AAAA record. -/
def Record.address (r : Record) : Option IpAddr :=
  if r.rtype = 1 ∧ r.rdata.length = 4 then
    some (.v4 ⟨byteAt r.rdata 0, byteAt r.rdata 1, byteAt r.rdata 2, byteAt r.rdata 3⟩)
  else if r.rtype = 28 ∧ r.rdata.length = 16 then
    some (.v6 ⟨Vector.ofFn fun i => byteAt r.rdata i⟩)
  else none

def readAnswers (buf : List UInt8) : ℕ → ℕ → List IpAddr → UInt32 → List IpAddr × UInt32
  | 0, _, addresses, minTtl => (addresses, minTtl)
  | n + 1, pos, addresses, minTtl =>
    match readRecord buf pos with
    | none => (addresses, minTtl)
    | some r => readAnswers buf n r.next (addresses ++ r.address.toList)
        (if r.ttl < minTtl then r.ttl else minTtl)

/-- A response with its ID, which nothing reads. -/
structure WireResponse extends DnsResponse where
  id : UInt16
  deriving DecidableEq, Repr

def parseResponse (buf : List UInt8) : Option WireResponse :=
  if buf.length < 12 then none
  else
    let pos := skipQuestion buf buf.length 12
    let pos := if pos < buf.length ∧ byteAt buf pos = 0 then pos + 1 else pos
    let answers := readAnswers buf (u16At buf 6).toNat (pos + 4) [] 0xFFFFFFFF
    some {
      id := u16At buf 0
      rcode := byteAt buf 3 &&& 0x0F
      addresses := answers.1
      minTtl := if answers.2 = 0xFFFFFFFF then 300 else answers.2 }

/-! The two ways to ask. An exchange is how one call goes: the ID that the clock gives, whether the
call ends within its timeouts, and what the network does, whatever was sent. -/

/-- What happens on the socket: a datagram from somewhere, or an error. -/
inductive Arrival
  | datagram (src : IpAddr) (bytes : List UInt8)
  | error

structure UdpExchange where
  id : UInt16
  inTime : Bool
  bound : Bool
  sent : Bool
  arrivals : List UInt8 → List Arrival

structure DotExchange where
  id : UInt16
  inTime : Bool
  connected : Bool
  written : Bool
  reads : List UInt8 → Pieces.Reads

/-- The first datagram that arrives, whoever sent it. -/
def receiveUdp (name : String) (qtype : UInt16) (x : UdpExchange) : Option (List UInt8) :=
  if x.inTime && x.bound && x.sent then
    match x.arrivals (buildQuery name qtype x.id) with
    | .datagram _ bytes :: _ => some bytes
    | _ => none
  else none

/-- The buffer holds the first 4096 bytes of the datagram. -/
def queryUdp (name : String) (qtype : UInt16) (x : UdpExchange) : Option WireResponse :=
  (receiveUdp name qtype x).bind fun bytes => parseResponse (bytes.take 4096)

/-- What is written to the server: the query behind its length. -/
def dotFrame (query : List UInt8) : List UInt8 := toBeBytes16 (UInt16.ofNat query.length) ++ query

/-- The message behind the first two bytes of the stream, which are its length. -/
def readFrame (reads : Pieces.Reads) : Except String (List UInt8) := do
  let (lenBuf, reads) ← Pieces.readExact 2 reads
  let (respBuf, _) ← Pieces.readExact (u16At lenBuf 0).toNat reads
  return respBuf

def receiveDot (name : String) (qtype : UInt16) (x : DotExchange) : Option (List UInt8) :=
  if x.inTime && x.connected && x.written then
    (readFrame (x.reads (dotFrame (buildQuery name qtype x.id)))).toOption
  else none

def queryDot (name : String) (qtype : UInt16) (x : DotExchange) : Option WireResponse :=
  (receiveDot name qtype x).bind parseResponse

/-! What a response should be. -/

/-- The message answers this query: its ID, the QR bit, and the one question that was asked. -/
structure Genuine (name : String) (qtype id : UInt16) (message : List UInt8) : Prop where
  header : 12 ≤ message.length
  sameId : u16At message 0 = id
  response : byteAt message 2 &&& 0x80 = 0x80
  oneQuestion : u16At message 4 = 1
  sameQuestion : question name qtype <+: message.drop 12

/-- `query_udp` returns a response only for a datagram that answers its query. -/
def UdpExchange.Honest (name : String) (qtype : UInt16) (x : UdpExchange) : Prop :=
  ∀ bytes resp, receiveUdp name qtype x = some bytes → queryUdp name qtype x = some resp →
    Genuine name qtype x.id bytes

def DotExchange.Honest (name : String) (qtype : UInt16) (x : DotExchange) : Prop :=
  ∀ bytes resp, receiveDot name qtype x = some bytes → queryDot name qtype x = some resp →
    Genuine name qtype x.id bytes

/-- The datagram that arrives first answers the query, or is too short for a header. -/
def UdpExchange.FirstGenuine (name : String) (qtype : UInt16) (x : UdpExchange) : Prop :=
  x.inTime → x.bound → x.sent → ∀ src bytes rest,
    x.arrivals (buildQuery name qtype x.id) = .datagram src bytes :: rest →
      bytes.length < 12 ∨ Genuine name qtype x.id bytes

/-- So does the message that comes first in the stream. -/
def DotExchange.FirstGenuine (name : String) (qtype : UInt16) (x : DotExchange) : Prop :=
  x.inTime → x.connected → x.written → ∀ len message rest, len.length = 2 →
    Pieces.bytesBeforeEnd (x.reads (dotFrame (buildQuery name qtype x.id))) =
      len ++ (message ++ rest) → message.length = (u16At len 0).toNat →
      message.length < 12 ∨ Genuine name qtype x.id message

theorem u16At_toBeBytes16 (n : UInt16) (rest : List UInt8) : u16At (toBeBytes16 n ++ rest) 0 = n :=
  Bytes.fromBeBytes16_toBeBytes16 n

/-- A header with the ID of the query and the QR bit, and behind it the question of the query. -/
theorem genuine_reply (name : String) (qtype id : UInt16) {flags : UInt8} (rcode : UInt8)
    (hflags : flags &&& 0x80 = 0x80) {counts : List UInt8} (hcounts : counts.length = 6)
    (records : List UInt8) : Genuine name qtype id
      (toBeBytes16 id ++ ([flags, rcode] ++ (toBeBytes16 1 ++ (counts ++
        (question name qtype ++ records))))) where
  header := by
    simp only [List.length_append, hcounts, toBeBytes16, List.length_cons, List.length_nil]
    omega
  sameId := u16At_toBeBytes16 id _
  response := hflags
  oneQuestion := u16At_toBeBytes16 1 (counts ++ (question name qtype ++ records))
  sameQuestion := by
    have hdrop : (counts ++ (question name qtype ++ records)).drop 6 =
        question name qtype ++ records := List.drop_left' hcounts
    exact ⟨records, hdrop.symm⟩

variable {name : String} {qtype : UInt16} {buf message : List UInt8} {resp : WireResponse}

/-- As many turns as there are bytes are enough: the loop stops at the root label or the end. -/
theorem skipLabels_stops {fuel pos : ℕ} (h : buf.length ≤ pos + fuel) :
    buf.length ≤ skipLabels buf fuel pos ∨ byteAt buf (skipLabels buf fuel pos) = 0 := by
  induction fuel generalizing pos with
  | zero => exact .inl h
  | succ fuel ih =>
    rw [skipLabels]
    split
    · apply ih
      omega
    · rename_i hstop
      by_cases hlt : pos < buf.length
      · exact .inr (Classical.not_not.1 fun hne => hstop ⟨hlt, hne⟩)
      · exact .inl (Nat.le_of_not_lt hlt)

/-- Or behind a pointer, in the question. -/
theorem skipQuestion_stops {fuel pos : ℕ} (h : buf.length ≤ pos + fuel) :
    buf.length ≤ skipQuestion buf fuel pos ∨ byteAt buf (skipQuestion buf fuel pos) = 0 ∨
      ∃ at' < buf.length, isPointer (byteAt buf at') ∧ skipQuestion buf fuel pos = at' + 2 := by
  induction fuel generalizing pos with
  | zero => exact .inl h
  | succ fuel ih =>
    rw [skipQuestion]
    split
    · rename_i hgo
      split
      · rename_i hpointer
        exact .inr (.inr ⟨pos, hgo.1, hpointer, rfl⟩)
      · apply ih
        omega
    · rename_i hstop
      by_cases hlt : pos < buf.length
      · exact .inr (.inl (Classical.not_not.1 fun hne => hstop ⟨hlt, hne⟩))
      · exact .inl (Nat.le_of_not_lt hlt)

/-- Whatever has room for a header is a response. -/
theorem isSome_parseResponse : (parseResponse buf).isSome ↔ 12 ≤ buf.length := by
  unfold parseResponse
  split
  · rename_i hshort
    exact iff_of_false (by simp) (by omega)
  · rename_i hlong
    exact iff_of_true rfl (Nat.le_of_not_lt hlong)

theorem isSome_parseResponse_take :
    (parseResponse (buf.take 4096)).isSome ↔ 12 ≤ buf.length := by
  rw [isSome_parseResponse, List.length_take]
  omega

theorem receiveUdp_eq_some_iff {x : UdpExchange} : receiveUdp name qtype x = some message ↔
    (x.inTime ∧ x.bound ∧ x.sent) ∧ ∃ src rest,
      x.arrivals (buildQuery name qtype x.id) = .datagram src message :: rest := by
  unfold receiveUdp
  split
  · rename_i hgo
    have hgo' : x.inTime ∧ x.bound ∧ x.sent := by simpa [and_assoc] using hgo
    cases harrivals : x.arrivals (buildQuery name qtype x.id) with
    | nil => simp
    | cons first rest =>
      cases first with
      | datagram src bytes => simp [hgo']
      | error => simp
  · rename_i hstop
    refine iff_of_false nofun ?_
    rintro ⟨hgo, -⟩
    exact hstop (by simp [hgo])

/-- A parser that takes whatever has a header: what it takes is genuine if what is received is. -/
theorem forall_parsed_iff {received : Option (List UInt8)}
    {parse : List UInt8 → Option WireResponse}
    (hparse : ∀ bytes, (parse bytes).isSome ↔ 12 ≤ bytes.length) {G : List UInt8 → Prop} :
    (∀ bytes resp, received = some bytes → received.bind parse = some resp → G bytes) ↔
      ∀ bytes, received = some bytes → bytes.length < 12 ∨ G bytes := by
  constructor
  · intro h bytes hreceived
    by_cases hshort : bytes.length < 12
    · exact .inl hshort
    · obtain ⟨resp, hresp⟩ := Option.isSome_iff_exists.1
        ((hparse bytes).2 (Nat.le_of_not_lt hshort))
      right
      apply h bytes resp hreceived
      rw [hreceived]
      exact hresp
  · intro h bytes resp hreceived hresp
    rw [hreceived] at hresp
    have hlong := (hparse bytes).1 (Option.isSome_of_eq_some hresp)
    obtain hshort | hgenuine := h bytes hreceived
    · omega
    · exact hgenuine

/-- Exactly when the first datagram is genuine or too short does `query_udp` never return another
response. -/
theorem udp_honest_iff (name : String) (qtype : UInt16) (x : UdpExchange) :
    x.Honest name qtype ↔ x.FirstGenuine name qtype := by
  refine (forall_parsed_iff fun _ => isSome_parseResponse_take).trans ?_
  constructor
  · intro h hin hbound hsent src bytes rest harrivals
    exact h bytes (receiveUdp_eq_some_iff.2 ⟨⟨hin, hbound, hsent⟩, src, rest, harrivals⟩)
  · intro h bytes hreceived
    obtain ⟨⟨hin, hbound, hsent⟩, src, rest, harrivals⟩ := receiveUdp_eq_some_iff.1 hreceived
    exact h hin hbound hsent src bytes rest harrivals

/-- A frame is read whatever the pieces it comes in. -/
theorem readFrame_eq_ok_iff {reads : Pieces.Reads} : readFrame reads = .ok message ↔
    ∃ len rest, len.length = 2 ∧ Pieces.bytesBeforeEnd reads = len ++ (message ++ rest) ∧
      message.length = (u16At len 0).toNat := by
  constructor
  · intro h
    unfold readFrame at h
    cases hlen : Pieces.readExact 2 reads with
    | error e =>
      rw [hlen] at h
      cases h
    | ok r =>
      obtain ⟨len, reads₁⟩ := r
      rw [hlen] at h
      cases hbody : Pieces.readExact (u16At len 0).toNat reads₁ with
      | error e =>
        simp only [bind, Except.bind, hbody] at h
        cases h
      | ok r =>
        obtain ⟨body, reads₂⟩ := r
        simp only [bind, Except.bind, hbody] at h
        cases h
        obtain ⟨hlen2, hbytes⟩ := Pieces.readExact_bytes hlen
        obtain ⟨hlenBody, hbytes₁⟩ := Pieces.readExact_bytes hbody
        rw [hbytes₁] at hbytes
        exact ⟨len, Pieces.bytesBeforeEnd reads₂, hlen2, hbytes, hlenBody⟩
  · rintro ⟨len, rest, hlen, hbytes, hmessage⟩
    obtain ⟨reads₁, hread, hbytes₁⟩ := Pieces.exists_readExact_iff.2 hbytes
    obtain ⟨reads₂, hread₂, -⟩ := Pieces.exists_readExact_iff.2 hbytes₁
    rw [hlen] at hread
    rw [hmessage] at hread₂
    unfold readFrame
    rw [hread]
    simp only [bind, Except.bind, hread₂]
    rfl

theorem receiveDot_eq_some_iff {x : DotExchange} : receiveDot name qtype x = some message ↔
    (x.inTime ∧ x.connected ∧ x.written) ∧
      readFrame (x.reads (dotFrame (buildQuery name qtype x.id))) = .ok message := by
  unfold receiveDot
  split
  · rename_i hgo
    have hgo' : x.inTime ∧ x.connected ∧ x.written := by simpa [and_assoc] using hgo
    cases hframe : readFrame (x.reads (dotFrame (buildQuery name qtype x.id))) with
    | error e => simp [Except.toOption]
    | ok bytes => simp [Except.toOption, hgo']
  · rename_i hstop
    refine iff_of_false nofun ?_
    rintro ⟨hgo, -⟩
    exact hstop (by simp [hgo])

theorem dot_honest_iff (name : String) (qtype : UInt16) (x : DotExchange) :
    x.Honest name qtype ↔ x.FirstGenuine name qtype := by
  refine (forall_parsed_iff fun _ => isSome_parseResponse).trans ?_
  constructor
  · intro h hin hconnected hwritten len message rest hlen hbytes hmessage
    have hframe := readFrame_eq_ok_iff.2 ⟨len, rest, hlen, hbytes, hmessage⟩
    exact h message (receiveDot_eq_some_iff.2 ⟨⟨hin, hconnected, hwritten⟩, hframe⟩)
  · intro h message hreceived
    obtain ⟨⟨hin, hconnected, hwritten⟩, hframe⟩ := receiveDot_eq_some_iff.1 hreceived
    obtain ⟨len, rest, hlen, hbytes, hmessage⟩ := readFrame_eq_ok_iff.1 hframe
    exact h hin hconnected hwritten len message rest hlen hbytes hmessage

/-! What gets into the cache. -/

/-- How the query for each server, name and type goes at each instant. -/
structure Network where
  dot : String → String → ℕ → Instant → DotExchange
  udp : IpAddr → String → ℕ → Instant → UdpExchange

namespace Network

variable (net : Network)

/-- The upstream of the resolver on this network. -/
def upstream : Upstream where
  dot server name q now :=
    (queryDot name (.ofNat q) (net.dot server name q now)).map WireResponse.toDnsResponse
  udp server name q now :=
    (queryUdp name (.ofNat q) (net.udp server name q now)).map WireResponse.toDnsResponse

/-- In every exchange the first message that comes is genuine, or too short for a header. -/
def FirstGenuine : Prop :=
  (∀ server name q now, (net.dot server name q now).FirstGenuine name (.ofNat q)) ∧
    ∀ server name q now, (net.udp server name q now).FirstGenuine name (.ofNat q)

/-- A genuine message that came in answer to a query at `now`, and what was made of it. -/
def Answered (name : String) (q : ℕ) (now : Instant) (resp : WireResponse) : Prop :=
  (∃ server message, receiveDot name (.ofNat q) (net.dot server name q now) = some message ∧
    queryDot name (.ofNat q) (net.dot server name q now) = some resp ∧
    Genuine name (.ofNat q) (net.dot server name q now).id message) ∨
  ∃ server message, receiveUdp name (.ofNat q) (net.udp server name q now) = some message ∧
    queryUdp name (.ofNat q) (net.udp server name q now) = some resp ∧
    Genuine name (.ofNat q) (net.udp server name q now).id message

/-- Every entry of the cache is what a genuine message said. -/
def Vouched (cfg : ResolverConfig) (c : DnsCache) : Prop :=
  ∀ name q entry, c.lookup (cacheKey name q) = some entry →
    ∃ t resp, net.Answered name q t resp ∧
      entry = ⟨resp.addresses, t + fromSecs (cacheTtl cfg resp.toDnsResponse),
        resp.rcode == rcodeNxdomain⟩

end Network

/-- On a network of genuine answers the resolver takes nothing else. -/
theorem answered_of_query {net : Network} {cfg : ResolverConfig} {q : ℕ} {now : Instant}
    {resp : DnsResponse} (hnet : net.FirstGenuine)
    (h : queryWithFallback cfg net.upstream now name q = some resp) :
    ∃ wire : WireResponse, net.Answered name q now wire ∧ wire.toDnsResponse = resp := by
  obtain hdot | ⟨-, hudp⟩ := Option.or_eq_some_iff.1 h
  · split at hdot
    · obtain ⟨server, -, hserver⟩ := List.exists_of_findSome?_eq_some hdot
      obtain ⟨wire, hquery, hwire⟩ := Option.map_eq_some_iff.1 hserver
      obtain ⟨message, hreceived, -⟩ := Option.bind_eq_some_iff.1 hquery
      have hgenuine := (dot_honest_iff _ _ _).2 (hnet.1 server name q now) message wire hreceived
        hquery
      exact ⟨wire, .inl ⟨server, message, hreceived, hquery, hgenuine⟩, hwire⟩
    · cases hdot
  · obtain ⟨server, -, hserver⟩ := List.exists_of_findSome?_eq_some hudp
    obtain ⟨wire, hquery, hwire⟩ := Option.map_eq_some_iff.1 hserver
    obtain ⟨message, hreceived, -⟩ := Option.bind_eq_some_iff.1 hquery
    have hgenuine := (udp_honest_iff _ _ _).2 (hnet.2 server name q now) message wire hreceived
      hquery
    exact ⟨wire, .inr ⟨server, message, hreceived, hquery, hgenuine⟩, hwire⟩

theorem vouched_of_reach {net : Network} {cfg : ResolverConfig} {r : Resolver}
    (hnet : net.FirstGenuine)
    (h : Runs.Reach (resolverStep cfg net.upstream) (fun _ _ => True) .init r) :
    net.Vouched cfg r.cache := by
  intro name q entry hentry
  obtain ⟨t, resp, -, hresp, rfl⟩ := sourced_of_reach h name q entry hentry
  obtain ⟨wire, hanswered, rfl⟩ := answered_of_query hnet hresp
  exact ⟨t, wire, hanswered, rfl⟩

/-- A query over UDP or TCP returns only what answers it exactly if what comes first does (or is no
message at all), and where that is so in every exchange only such answers are ever cached. -/
theorem answers_genuine_iff (name : String) (qtype : UInt16) (udp : UdpExchange)
    (dot : DotExchange) (cfg : ResolverConfig) (net : Network) :
    (udp.Honest name qtype ↔ udp.FirstGenuine name qtype) ∧
    (dot.Honest name qtype ↔ dot.FirstGenuine name qtype) ∧
    (net.FirstGenuine → ∀ r,
      Runs.Reach (resolverStep cfg net.upstream) (fun _ _ => True) .init r →
        net.Vouched cfg r.cache) := by
  refine ⟨udp_honest_iff name qtype udp, dot_honest_iff name qtype dot, ?_⟩
  intro hnet r hreach
  exact vouched_of_reach hnet hreach

/-- The address 192.0.2.80 for the name of the question. -/
def echoRecord : List UInt8 :=
  [0xC0, 12] ++ toBeBytes16 1 ++ toBeBytes16 1 ++ [0, 0, 14, 16] ++ toBeBytes16 4 ++ [192, 0, 2, 80]

/-- No DoT server can be reached, and every UDP server echoes the question and adds the record. -/
def echoNetwork : Network where
  dot _ _ _ _ := ⟨7, true, false, false, fun _ => []⟩
  udp server name q _ := ⟨7, true, true, true, fun _ => [.datagram server
    (toBeBytes16 7 ++ ([0x81, 0x80] ++ (toBeBytes16 1 ++ ([0, 1, 0, 0, 0, 0] ++
      (question name (.ofNat q) ++ echoRecord)))))]⟩

theorem firstGenuine_echo : echoNetwork.FirstGenuine := by
  constructor
  · intro server name q now _ hconnected
    cases hconnected
  · intro server name q now _ _ _ src bytes rest harrivals
    cases harrivals
    exact .inr (genuine_reply name (.ofNat q) 7 0x80 rfl rfl echoRecord)

theorem answers_genuine_echo :
    ∃ r, Runs.Reach (resolverStep {} echoNetwork.upstream) (fun _ _ => True) .init r ∧
      (r.cache.lookup (cacheKey "bank.example" 1)).map (·.addresses) = some [.v4 ⟨192, 0, 2, 80⟩] ∧
        echoNetwork.Vouched {} r.cache := by
  obtain ⟨r, hreach, hcheck⟩ := Runs.exists_reach_of_exec
    (resolverStep {} echoNetwork.upstream) (fun _ _ => True) .init
    [⟨"bank.example", 0, "", "", false⟩]
    (fun r => decide ((r.cache.lookup (cacheKey "bank.example" 1)).map (·.addresses) =
      some [.v4 ⟨192, 0, 2, 80⟩])) (by decide +kernel)
  have hparts := answers_genuine_iff "bank.example" 1 (echoNetwork.udp (.v4 ⟨1, 1, 1, 1⟩) "" 1 0)
    (echoNetwork.dot "" "" 1 0) {} echoNetwork
  exact ⟨r, hreach, of_decide_eq_true hcheck, hparts.2.2 firstGenuine_echo r hreach⟩

/-- A response to another query, with an address of its own, that comes from anywhere. -/
def forged : List UInt8 :=
  toBeBytes16 8 ++ toBeBytes16 0x8180 ++ toBeBytes16 1 ++ toBeBytes16 1 ++ [0, 0, 0, 0] ++
    question "other.example" 1 ++
    [0xC0, 12] ++ toBeBytes16 1 ++ toBeBytes16 1 ++ [0, 0, 14, 16] ++ toBeBytes16 4 ++ [203, 0, 113, 9]

def forgedExchange : UdpExchange :=
  ⟨7, true, true, true, fun _ => [.datagram (.v4 ⟨203, 0, 113, 9⟩) forged]⟩

/-- No DoT server can be reached, and over UDP the forger is always first. -/
def forgedNetwork : Network where
  dot _ _ _ _ := ⟨7, true, false, false, fun _ => []⟩
  udp _ _ _ _ := forgedExchange

theorem not_genuine_forged (name : String) (qtype : UInt16) : ¬Genuine name qtype 7 forged :=
  fun h => absurd h.sameId (by decide +kernel)

/-- The forger's answer is returned, and gets into the cache. -/
theorem forged_answer_cached :
    ¬forgedExchange.Honest "bank.example" 1 ∧
    ∃ r, Runs.Reach (resolverStep {} forgedNetwork.upstream) (fun _ _ => True) .init r ∧
      (r.cache.lookup (cacheKey "bank.example" 1)).map (·.addresses) =
        some [.v4 ⟨203, 0, 113, 9⟩] ∧ ¬forgedNetwork.Vouched {} r.cache := by
  constructor
  · intro hhonest
    obtain ⟨resp, hresp⟩ := Option.isSome_iff_exists.1
      (show (queryUdp "bank.example" 1 forgedExchange).isSome by decide +kernel)
    exact not_genuine_forged _ _ (hhonest forged resp rfl hresp)
  · obtain ⟨r, hreach, hcheck⟩ := Runs.exists_reach_of_exec
      (resolverStep {} forgedNetwork.upstream) (fun _ _ => True) .init
      [⟨"bank.example", 0, "", "", false⟩]
      (fun r => decide ((r.cache.lookup (cacheKey "bank.example" 1)).map (·.addresses) =
        some [.v4 ⟨203, 0, 113, 9⟩])) (by decide +kernel)
    have haddresses := of_decide_eq_true hcheck
    refine ⟨r, hreach, haddresses, ?_⟩
    intro hvouched
    obtain ⟨entry, hentry, -⟩ := Option.map_eq_some_iff.1 haddresses
    obtain ⟨t, resp, hanswered, -⟩ := hvouched _ _ entry hentry
    obtain ⟨server, message, hreceived, -, -⟩ | ⟨server, message, hreceived, -, hgenuine⟩ :=
      hanswered
    · cases hreceived
    · cases hreceived
      exact not_genuine_forged _ _ hgenuine

end Quantra.Dns
