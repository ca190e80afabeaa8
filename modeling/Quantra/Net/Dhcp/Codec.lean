import Quantra.Net.Dhcp.Reply
import Mathlib.Data.List.Induction

/-! The reply parser of `quantra-netd` against the builder of packets: what a list of options says is
what `parse_reply` makes of the packet. -/
namespace Quantra.Dhcp
open Quantra.Net

/-- An option that `push_opt` writes as it is: not the padding or the end, and short enough for its
length byte. -/
structure ReplyOption where
  code : UInt8
  data : List UInt8
  notPad : code ≠ optPad
  notEnd : code ≠ optEnd
  fits : data.length ≤ 255

def ReplyOption.pair (o : ReplyOption) : UInt8 × List UInt8 := (o.code, o.data)

/-- A BOOTREPLY header, with what `parse_reply` reads of it. -/
structure BootReply where
  packet : DhcpPacket
  yourIp : Ipv4Addr
  siaddr : Ipv4Addr
  isHeader : packet.IsHeader
  isReply : IsReply packet.buf
  hasXid : u32At packet.buf 4 = some packet.xid
  hasYourIp : ipAt packet.buf 16 = some yourIp
  hasSiaddr : ipAt packet.buf 20 = some siaddr

/-- The header that `set_header` writes, with the two addresses that a server adds. -/
def serverHeader (xid : UInt32) (mac : Mac) (yourIp siaddr : Ipv4Addr) : DhcpPacket :=
  (((DhcpPacket.new xid).setHeader opReply mac).copyAt 16 yourIp.octets).copyAt 20 siaddr.octets

section ServerHeader
variable {xid : UInt32} {mac : Mac} {yourIp siaddr : Ipv4Addr} {op : UInt8} {j : ℕ}

theorem setHeader_op_cookie :
    ((DhcpPacket.new xid).setHeader op mac).buf[0]? = some op ∧
      ((DhcpPacket.new xid).setHeader op mac).buf.drop 236 = magicCookie := by
  have hstart : optionsStart = 240 := rfl
  let p1 := (DhcpPacket.new xid).copyAt 0 [op, htypeEthernet, hlenEthernet, 0]
  let p2 := p1.copyAt 4 (Bytes.toBeBytes xid)
  let p3 := p2.copyAt 10 flagsBroadcast
  have h0 : (DhcpPacket.new xid).buf.length = optionsStart := DhcpPacket.isHeader_new xid
  have h1 : p1.IsHeader := (DhcpPacket.isHeader_new xid).copyAt (by simp [hstart])
  have h2 : p2.IsHeader := h1.copyAt (by simp [hstart])
  have h3 : p3.IsHeader := h2.copyAt (by decide)
  unfold DhcpPacket.IsHeader at h1 h2 h3
  constructor
  · have hmac : (p3.copyAt 28 mac.octets).buf[0]? = p3.buf[0]? :=
      DhcpPacket.getElem?_copyAt_of_lt (by omega) (by omega)
    have hflags : p3.buf[0]? = p2.buf[0]? :=
      DhcpPacket.getElem?_copyAt_of_lt (by omega) (by omega)
    have hxid : p2.buf[0]? = p1.buf[0]? :=
      DhcpPacket.getElem?_copyAt_of_lt (by omega) (by omega)
    have hop : p1.buf[0 + 0]? = some op :=
      DhcpPacket.getElem?_copyAt_add (by omega) (by simp)
    exact hmac.trans (hflags.trans (hxid.trans hop))
  · have hmac : (p3.copyAt 28 mac.octets).buf.drop 236 = p3.buf.drop 236 :=
      DhcpPacket.drop_copyAt (by omega) (by simp)
    have hflags : p3.buf.drop 236 = p2.buf.drop 236 :=
      DhcpPacket.drop_copyAt (by omega) (by decide)
    have hxid : p2.buf.drop 236 = p1.buf.drop 236 :=
      DhcpPacket.drop_copyAt (by omega) (by simp)
    have hop : p1.buf.drop 236 = (DhcpPacket.new xid).buf.drop 236 :=
      DhcpPacket.drop_copyAt (by omega) (by simp)
    have hnew : (DhcpPacket.new xid).buf.drop 236 = magicCookie :=
      List.drop_left' List.length_replicate
    exact hmac.trans (hflags.trans (hxid.trans (hop.trans hnew)))

theorem u32At_of_bytes {buf : List UInt8} {i : ℕ} {n : UInt32}
    (h : ∀ j < 4, buf[i + j]? = (Bytes.toBeBytes n)[j]?) : u32At buf i = some n := by
  have hfirst : buf[i]? = (Bytes.toBeBytes n)[0]? := h 0 (by omega)
  unfold u32At
  rw [hfirst, h 1 (by omega), h 2 (by omega), h 3 (by omega)]
  exact congrArg some (Bytes.fromBeBytes_toBeBytes n)

theorem ipAt_of_octets {buf : List UInt8} {i : ℕ} {ip : Ipv4Addr}
    (h : ∀ j < 4, buf[i + j]? = ip.octets[j]?) : ipAt buf i = some ip := by
  have hfirst : buf[i]? = ip.octets[0]? := h 0 (by omega)
  unfold ipAt
  rw [hfirst, h 1 (by omega), h 2 (by omega), h 3 (by omega)]
  rfl

/-- The server's header, with what the parser reads of it. -/
def BootReply.new (xid : UInt32) (mac : Mac) (yourIp siaddr : Ipv4Addr) : BootReply :=
  have hset : ((DhcpPacket.new xid).setHeader opReply mac).IsHeader :=
    (DhcpPacket.isHeader_new xid).setHeader.1
  have hstart : optionsStart = 240 := rfl
  have hyour : (((DhcpPacket.new xid).setHeader opReply mac).copyAt 16 yourIp.octets).IsHeader :=
    hset.copyAt (by simp [hstart])
  have hlen1 : ((DhcpPacket.new xid).setHeader opReply mac).buf.length = 240 := hset
  have hlen2 : (((DhcpPacket.new xid).setHeader opReply mac).copyAt 16
      yourIp.octets).buf.length = 240 := hyour
  have hbefore : ∀ k < 16, (serverHeader xid mac yourIp siaddr).buf[k]? =
      ((DhcpPacket.new xid).setHeader opReply mac).buf[k]? := fun k hk =>
    (DhcpPacket.getElem?_copyAt_of_lt (by omega) (by omega)).trans
      (DhcpPacket.getElem?_copyAt_of_lt (by omega) hk)
  { packet := serverHeader xid mac yourIp siaddr
    yourIp
    siaddr
    isHeader := hyour.copyAt (by simp [hstart])
    isReply := by
      have hcookie : (serverHeader xid mac yourIp siaddr).buf.drop 236 = magicCookie :=
        (DhcpPacket.drop_copyAt (by omega) (by simp)).trans
          ((DhcpPacket.drop_copyAt (by omega) (by simp)).trans setHeader_op_cookie.2)
      refine ⟨Nat.le_of_eq (hyour.copyAt (by simp [hstart])).symm, ?_, ?_⟩
      · exact (hbefore 0 (by omega)).trans setHeader_op_cookie.1
      · rw [hcookie]
        rfl
    hasXid := u32At_of_bytes fun j hj => (hbefore (4 + j) (by omega)).trans
      ((DhcpPacket.isHeader_new xid).setHeader.2 j hj)
    hasYourIp := ipAt_of_octets fun j hj =>
      (DhcpPacket.getElem?_copyAt_of_lt (by omega) (by omega)).trans
        (DhcpPacket.getElem?_copyAt_add (by omega) (by simpa using hj))
    hasSiaddr := ipAt_of_octets fun j hj =>
      DhcpPacket.getElem?_copyAt_add (by omega) (by simpa using hj) }

end ServerHeader

/-- The packet with these options pushed one after another, and finished. -/
def BootReply.withOptions (h : BootReply) (options : List ReplyOption) : List UInt8 :=
  (options.foldl (fun p o => p.pushOpt o.code o.data) h.packet).finish.bytes

/-! What options say. -/

/-- An option with this code whose data `read` can read. -/
def field {α : Type} (code : UInt8) (read : List UInt8 → Option α) (o : UInt8 × List UInt8) :
    Option α :=
  if o.1 = code then read o.2 else none

/-- The address in the first four bytes. -/
def leadingIp : List UInt8 → Option Ipv4Addr
  | a :: b :: c :: d :: _ => some ⟨a, b, c, d⟩
  | _ => none

def leadingU32 : List UInt8 → Option UInt32
  | a :: b :: c :: d :: _ => some (Bytes.fromBeBytes a b c d)
  | _ => none

/-- The addresses in the data; what is left behind the last whole one is no address. -/
def addresses : List UInt8 → List Ipv4Addr
  | a :: b :: c :: d :: rest => ⟨a, b, c, d⟩ :: addresses rest
  | _ => []

def dnsServers (o : UInt8 × List UInt8) : List Ipv4Addr :=
  if o.1 = optDns then addresses o.2 else []

/-- The last readable option of each kind, and the name servers of all of them. What no option says
is the default: a mask of 24 bits, no router, a day, and the server of the header. -/
def said (siaddr : Ipv4Addr) (options : List (UInt8 × List UInt8)) : ReplyVars where
  msgType := (Tlv.last (field optMsgType List.head?) options).getD 0
  serverId := (Tlv.last (field optServerId leadingIp) options).getD siaddr
  subnetMask := (Tlv.last (field optSubnetMask leadingIp) options).getD ⟨255, 255, 255, 0⟩
  gateway := Tlv.last (field optRouter leadingIp) options
  dns := options.flatMap dnsServers
  leaseSecs := (Tlv.last (field optLeaseTime leadingU32) options).getD 86400

section Options
variable {v : ReplyVars} {code : UInt8} {data : List UInt8} {j : ℕ} {siaddr : Ipv4Addr}

theorem ipAt_eq (data : List UInt8) (j : ℕ) : ipAt data j = leadingIp (data.drop j) := by
  have hread : ∀ k, data[j + k]? = (data.drop j)[k]? := fun k => List.getElem?_drop.symm
  have hzero : data[j]? = (data.drop j)[0]? := hread 0
  unfold ipAt
  rw [hzero, hread 1, hread 2, hread 3]
  match data.drop j with
  | [] => rfl
  | [a] => rfl
  | [a, b] => rfl
  | [a, b, c] => rfl
  | a :: b :: c :: d :: rest => rfl

theorem u32At_eq (data : List UInt8) (j : ℕ) : u32At data j = leadingU32 (data.drop j) := by
  have hread : ∀ k, data[j + k]? = (data.drop j)[k]? := fun k => List.getElem?_drop.symm
  have hzero : data[j]? = (data.drop j)[0]? := hread 0
  unfold u32At
  rw [hzero, hread 1, hread 2, hread 3]
  match data.drop j with
  | [] => rfl
  | [a] => rfl
  | [a, b] => rfl
  | [a, b, c] => rfl
  | a :: b :: c :: d :: rest => rfl

theorem addresses_of_short {data : List UInt8} (h : data.length < 4) : addresses data = [] := by
  match data with
  | [] => rfl
  | [a] => rfl
  | [a, b] => rfl
  | [a, b, c] => rfl
  | a :: b :: c :: d :: rest =>
    simp only [List.length_cons] at h
    omega

theorem addresses_of_leadingIp {data : List UInt8} {ip : Ipv4Addr} (h : leadingIp data = some ip) :
    addresses data = ip :: addresses (data.drop 4) := by
  match data with
  | [] => cases h
  | [a] => cases h
  | [a, b] => cases h
  | [a, b, c] => cases h
  | a :: b :: c :: d :: rest =>
    cases h
    rfl

theorem pushServers_eq {fuel : ℕ} {dns : List Ipv4Addr} (hfuel : data.length - j < fuel) :
    pushServers data data.length fuel j dns = some (dns ++ addresses (data.drop j)) := by
  induction fuel generalizing j dns with
  | zero => omega
  | succ fuel ih =>
    unfold pushServers
    by_cases hnext : j + 4 ≤ data.length
    · obtain ⟨ip, hip⟩ : ∃ ip, ipAt data j = some ip := exists_ipAt hnext
      have hrest : addresses (data.drop j) = ip :: addresses (data.drop (j + 4)) := by
        rw [ipAt_eq] at hip
        rw [addresses_of_leadingIp hip, List.drop_drop]
      rw [if_pos hnext, hip, hrest]
      show pushServers data data.length fuel (j + 4) (dns ++ [ip]) = _
      rw [ih (by omega), List.append_assoc]
      rfl
    · rw [if_neg hnext, addresses_of_short (by rw [List.length_drop]; omega), List.append_nil]

theorem leadingIp_of_le (h : 4 ≤ data.length) : ∃ ip, leadingIp data = some ip := by
  obtain ⟨ip, hip⟩ : ∃ ip, ipAt data 0 = some ip := exists_ipAt (by omega)
  exact ⟨ip, by rwa [ipAt_eq] at hip⟩

theorem leadingU32_of_le (h : 4 ≤ data.length) : ∃ n, leadingU32 data = some n := by
  obtain ⟨n, hn⟩ : ∃ n, u32At data 0 = some n := exists_u32At (by omega)
  exact ⟨n, by rwa [u32At_eq] at hn⟩

theorem leadingIp_of_short (h : ¬data.length ≥ 4) : leadingIp data = none := by
  match data with
  | [] => rfl
  | [a] => rfl
  | [a, b] => rfl
  | [a, b, c] => rfl
  | a :: b :: c :: d :: rest => simp at h

theorem leadingU32_of_short (h : ¬data.length ≥ 4) : leadingU32 data = none := by
  match data with
  | [] => rfl
  | [a] => rfl
  | [a, b] => rfl
  | [a, b, c] => rfl
  | a :: b :: c :: d :: rest => simp at h

/-- An option changes the variable that it is about, if it can be read. -/
theorem matchOption_eq : v.matchOption code data = some {
    msgType := (field optMsgType List.head? (code, data)).getD v.msgType
    serverId := (field optServerId leadingIp (code, data)).getD v.serverId
    subnetMask := (field optSubnetMask leadingIp (code, data)).getD v.subnetMask
    gateway := (field optRouter leadingIp (code, data)).or v.gateway
    dns := v.dns ++ dnsServers (code, data)
    leaseSecs := (field optLeaseTime leadingU32 (code, data)).getD v.leaseSecs } := by
  unfold ReplyVars.matchOption field dnsServers
  simp only [ipAt_eq, u32At_eq, List.drop_zero]
  -- the codes are different numbers, so an option has one meaning at most
  by_cases hmsg : code = optMsgType
  · subst hmsg
    cases data <;> simp [optMsgType, optServerId, optSubnetMask, optRouter, optDns, optLeaseTime]
  by_cases hdns : code = optDns
  · subst hdns
    have hservers : pushServers data data.length (data.length + 1) 0 v.dns =
        some (v.dns ++ addresses data) := pushServers_eq (by omega)
    simp [optMsgType, optServerId, optSubnetMask, optRouter, optDns, optLeaseTime, hservers]
  by_cases hlen : data.length ≥ 4
  · obtain ⟨ip, hip⟩ := leadingIp_of_le hlen
    obtain ⟨n, hn⟩ := leadingU32_of_le hlen
    by_cases hmask : code = optSubnetMask
    · subst hmask
      simp [optMsgType, optServerId, optSubnetMask, optRouter, optDns, optLeaseTime, hip, hlen]
    by_cases hrouter : code = optRouter
    · subst hrouter
      simp [optMsgType, optServerId, optSubnetMask, optRouter, optDns, optLeaseTime, hip, hlen]
    by_cases hlease : code = optLeaseTime
    · subst hlease
      simp [optMsgType, optServerId, optSubnetMask, optRouter, optDns, optLeaseTime, hn, hlen]
    by_cases hserver : code = optServerId
    · subst hserver
      simp [optMsgType, optServerId, optSubnetMask, optRouter, optDns, optLeaseTime, hip, hlen]
    · simp [hmsg, hmask, hrouter, hdns, hlease, hserver]
  · simp [hmsg, hdns, hlen, leadingIp_of_short hlen, leadingU32_of_short hlen]

theorem foldlM_matchOption (siaddr : Ipv4Addr) (options : List (UInt8 × List UInt8)) :
    options.foldlM (fun v o => v.matchOption o.1 o.2) { serverId := siaddr } =
      some (said siaddr options) := by
  induction options using List.reverseRecOn with
  | nil => rfl
  | append_singleton options o ih =>
    rw [List.foldlM_append, ih]
    simp only [List.foldlM_cons, List.foldlM_nil, Option.bind_eq_bind, Option.bind_some,
      matchOption_eq, Option.pure_def]
    simp [said, Tlv.last_concat]

end Options

/-! The packet. -/

/-- The reply with the header's fields and the variables of the option loop. -/
def replyOf (yourIp siaddr : Ipv4Addr) (xid : UInt32) (v : ReplyVars) : DhcpReply where
  msgType := v.msgType
  yourIp
  serverIp := siaddr
  serverId := v.serverId
  subnetMask := v.subnetMask
  gateway := v.gateway
  dns := v.dns
  leaseSecs := v.leaseSecs
  xid

section Packet
variable {buf rest : List UInt8} {yourIp siaddr ip : Ipv4Addr} {xid n : UInt32} {i : ℕ}

theorem isSome_parseReply (buf : List UInt8) : (parseReply buf).isSome := by
  by_cases hlen : buf.length < 240
  · rw [(parse_of_short hlen).1]
    rfl
  · obtain ⟨r, -, -, hparse, -⟩ := parsers_eq (Nat.le_of_not_lt hlen)
    rw [hparse]
    rfl

/-- A message type of 0 counts as none. -/
theorem parseReply_of_isReply (hreply : IsReply buf) (hxid : u32At buf 4 = some xid)
    (hyour : ipAt buf 16 = some yourIp) (hsiaddr : ipAt buf 20 = some siaddr) :
    parseReply buf = some (
      if (said siaddr (optionsOf buf)).msgType = 0 then none
      else some (replyOf yourIp siaddr xid (said siaddr (optionsOf buf)))) := by
  obtain ⟨hlen, hop, hcookie⟩ := hreply
  have hslice : Bytes.slice buf 236 240 = some magicCookie := by
    rw [Bytes.slice_eq (by omega) hlen]
    exact congrArg some hcookie
  have hloop : replyLoop buf (buf.length + 1) 240 { serverId := siaddr } =
      some (said siaddr (optionsOf buf)) := by
    rw [replyLoop_eq_walk, Tlv.walk_eq_foldlM (by omega)]
    exact foldlM_matchOption siaddr (optionsOf buf)
  unfold parseReply
  rw [if_neg (by omega), hop, hslice, hxid, hyour, hsiaddr]
  simp only [Option.bind_eq_bind, Option.bind_some, hloop, ne_eq, not_true_eq_false, if_false]
  split <;> rfl

theorem leadingIp_append (h : leadingIp buf = some ip) : leadingIp (buf ++ rest) = some ip := by
  match buf with
  | [] => cases h
  | [a] => cases h
  | [a, b] => cases h
  | [a, b, c] => cases h
  | a :: b :: c :: d :: _ => exact h

theorem leadingU32_append (h : leadingU32 buf = some n) : leadingU32 (buf ++ rest) = some n := by
  match buf with
  | [] => cases h
  | [a] => cases h
  | [a, b] => cases h
  | [a, b, c] => cases h
  | a :: b :: c :: d :: _ => exact h

theorem ipAt_append (h : ipAt buf i = some ip) : ipAt (buf ++ rest) i = some ip := by
  rw [ipAt_eq] at h ⊢
  rw [List.drop_append]
  exact leadingIp_append h

theorem u32At_append (h : u32At buf i = some n) : u32At (buf ++ rest) i = some n := by
  rw [u32At_eq] at h ⊢
  rw [List.drop_append]
  exact leadingU32_append h

theorem isReply_append (h : IsReply buf) : IsReply (buf ++ rest) := by
  obtain ⟨hlen, hop, hcookie⟩ := h
  refine ⟨?_, ?_, ?_⟩
  · rw [List.length_append]
    omega
  · rw [List.getElem?_append_left (by omega), hop]
  · rw [List.drop_append_of_le_length (by omega),
      List.take_append_of_le_length (by rw [List.length_drop]; omega), hcookie]

theorem foldl_pushOpt (p : DhcpPacket) (options : List ReplyOption) :
    (options.foldl (fun p o => p.pushOpt o.code o.data) p).buf =
      p.buf ++ Tlv.encodeAll (options.map ReplyOption.pair) := by
  induction options generalizing p with
  | nil => exact (List.append_nil _).symm
  | cons o options ih =>
    rw [List.foldl_cons, ih]
    exact List.append_assoc _ _ _

/-- The options behind the header are those that were pushed, up to the end option. -/
theorem exists_withOptions (header : BootReply) (options : List ReplyOption) :
    ∃ rest, header.withOptions options = header.packet.buf ++ rest ∧
      Tlv.decode optPad optEnd rest = options.map ReplyOption.pair := by
  obtain ⟨n, hfinish⟩ := DhcpPacket.exists_finish
    (options.foldl (fun p o => p.pushOpt o.code o.data) header.packet)
  rw [foldl_pushOpt, List.append_assoc] at hfinish
  refine ⟨_, hfinish, ?_⟩
  rw [Tlv.decode_encodeAll_append, Tlv.decode_cons, if_pos rfl, List.append_nil]
  · intro o ho
    obtain ⟨o, -, rfl⟩ := List.mem_map.1 ho
    exact ⟨o.notEnd, o.notPad⟩
  · intro o ho
    obtain ⟨o, -, rfl⟩ := List.mem_map.1 ho
    exact Nat.lt_succ_of_le o.fits

theorem parseReply_pushed (header : BootReply) (options : List ReplyOption) :
    parseReply (header.withOptions options) = some (
      if (said header.siaddr (options.map ReplyOption.pair)).msgType = 0 then none
      else some (replyOf header.yourIp header.siaddr header.packet.xid
        (said header.siaddr (options.map ReplyOption.pair)))) := by
  obtain ⟨rest, hbytes, hdecode⟩ := exists_withOptions header options
  have hoptions : optionsOf (header.packet.buf ++ rest) = options.map ReplyOption.pair := by
    have hlen : header.packet.buf.length = optionsStart := header.isHeader
    unfold optionsOf
    rw [← hlen, List.drop_left, hdecode]
  rw [hbytes, parseReply_of_isReply (isReply_append header.isReply) (u32At_append header.hasXid)
    (ipAt_append header.hasYourIp) (ipAt_append header.hasSiaddr), hoptions]

end Packet

/-- The parser stays inside every buffer, and of a packet that was put together it returns what its
options say, provided the last readable message type is there and is not 0. -/
theorem reply_roundTrip (buf : List UInt8) (header : BootReply) (options : List ReplyOption) :
    (parseReply buf).isSome ∧
    parseReply (header.withOptions options) = some (
      if (said header.siaddr (options.map ReplyOption.pair)).msgType = 0 then none
      else some (replyOf header.yourIp header.siaddr header.packet.xid
        (said header.siaddr (options.map ReplyOption.pair)))) :=
  ⟨isSome_parseReply buf, parseReply_pushed header options⟩

/-- A header from the server 10.0.0.1, and a message type option with the byte 0. -/
def someHeader : BootReply := .new 1 ⟨0, 0, 0, 0, 0, 1⟩ ⟨10, 0, 0, 5⟩ ⟨10, 0, 0, 1⟩

def zeroType : ReplyOption := ⟨optMsgType, [0], by decide, by decide, by decide⟩

/-- A message type of 0 is there and can be read, but no reply is returned. -/
theorem zeroType_rejected :
    (∃ o ∈ [zeroType], o.code = optMsgType) ∧
      parseReply (someHeader.withOptions [zeroType]) ≠ some (some
        (replyOf someHeader.yourIp someHeader.siaddr someHeader.packet.xid
          (said someHeader.siaddr ([zeroType].map ReplyOption.pair)))) := by
  refine ⟨⟨zeroType, List.mem_singleton_self _, rfl⟩, ?_⟩
  have hzero : (said someHeader.siaddr ([zeroType].map ReplyOption.pair)).msgType = 0 := rfl
  rw [parseReply_pushed, if_pos hzero]
  exact fun h => nomatch Option.some.inj h

end Quantra.Dhcp
