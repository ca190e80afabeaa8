import Quantra.Lib.Tlv
import Quantra.Net.Address

/-! Messages that the DHCPv4 client of `quantra-netd` sends (`dhcp.rs`). -/
namespace Quantra.Dhcp
open Quantra.Net

def opRequest : UInt8 := 1

def opReply : UInt8 := 2

def htypeEthernet : UInt8 := 1

def hlenEthernet : UInt8 := 6

/-- `FLAGS_BROADCAST` in network order. -/
def flagsBroadcast : List UInt8 := [0x80, 0x00]

def optSubnetMask : UInt8 := 1

def optRouter : UInt8 := 3

def optDns : UInt8 := 6

def optRequestedIp : UInt8 := 50

def optLeaseTime : UInt8 := 51

def optMsgType : UInt8 := 53

def optServerId : UInt8 := 54

def optParamList : UInt8 := 55

def optClientId : UInt8 := 61

def optEnd : UInt8 := 255

def optPad : UInt8 := 0

def msgDiscover : UInt8 := 1

def msgOffer : UInt8 := 2

def msgRequest : UInt8 := 3

def msgAck : UInt8 := 5

def msgNak : UInt8 := 6

def msgRelease : UInt8 := 7

def magicCookie : List UInt8 := [99, 130, 83, 99]

/-- Length of the BOOTP header with the cookie: where the options start. -/
def optionsStart : ℕ := 240

structure DhcpPacket where
  buf : List UInt8
  xid : UInt32
  deriving DecidableEq, Repr

namespace DhcpPacket

def new (xid : UInt32) : DhcpPacket := ⟨List.replicate 236 0 ++ magicCookie, xid⟩

/-- `buf[i..i + data.len()].copy_from_slice(data)`. -/
def copyAt (p : DhcpPacket) (i : ℕ) (data : List UInt8) : DhcpPacket :=
  { p with buf := p.buf.take i ++ data ++ p.buf.drop (i + data.length) }

def setHeader (p : DhcpPacket) (op : UInt8) (mac : Mac) : DhcpPacket :=
  let p := p.copyAt 0 [op, htypeEthernet, hlenEthernet, 0]
  let p := p.copyAt 4 (Bytes.toBeBytes p.xid)
  let p := p.copyAt 10 flagsBroadcast
  p.copyAt 28 mac.octets

def setCiaddr (p : DhcpPacket) (ip : Ipv4Addr) : DhcpPacket := p.copyAt 12 ip.octets

def pushOpt (p : DhcpPacket) (code : UInt8) (data : List UInt8) : DhcpPacket :=
  { p with buf := p.buf ++ Tlv.encode code data }

def pushOptByte (p : DhcpPacket) (code val : UInt8) : DhcpPacket := p.pushOpt code [val]

def pushOptIp (p : DhcpPacket) (code : UInt8) (ip : Ipv4Addr) : DhcpPacket :=
  p.pushOpt code ip.octets

/-- End the options and pad to 300 bytes. -/
def finish (p : DhcpPacket) : DhcpPacket :=
  let buf := p.buf ++ [optEnd]
  { p with buf := buf ++ List.replicate (300 - buf.length) optPad }

def bytes (p : DhcpPacket) : List UInt8 := p.buf

def paramList : List UInt8 := [optSubnetMask, optRouter, optDns, optLeaseTime]

def clientId (mac : Mac) : List UInt8 := htypeEthernet :: mac.octets

def discover (xid : UInt32) (mac : Mac) : DhcpPacket :=
  let p := (new xid).setHeader opRequest mac
  let p := p.pushOptByte optMsgType msgDiscover
  let p := p.pushOpt optClientId (clientId mac)
  let p := p.pushOpt optParamList paramList
  p.finish

/-- A renewal names its address in `ciaddr`; the selecting state names address and server in
options. -/
def request (xid : UInt32) (mac : Mac) (requestedIp serverId : Ipv4Addr) (isRenewal : Bool) :
    DhcpPacket :=
  let p := (new xid).setHeader opRequest mac
  let p := if isRenewal then p.setCiaddr requestedIp else p
  let p := p.pushOptByte optMsgType msgRequest
  let p := if isRenewal then p
    else (p.pushOptIp optRequestedIp requestedIp).pushOptIp optServerId serverId
  let p := p.pushOpt optClientId (clientId mac)
  let p := p.pushOpt optParamList paramList
  p.finish

def release (xid : UInt32) (mac : Mac) (clientIp serverId : Ipv4Addr) : DhcpPacket :=
  let p := (new xid).setHeader opRequest mac
  let p := p.setCiaddr clientIp
  let p := p.pushOptByte optMsgType msgRelease
  let p := p.pushOptIp optServerId serverId
  p.finish

end DhcpPacket

/-- The transaction id of a message, bytes 4 to 7. -/
def xidOf (buf : List UInt8) : Option UInt32 := do
  let a ← buf[4]?
  let b ← buf[5]?
  let c ← buf[6]?
  let d ← buf[7]?
  some (Bytes.fromBeBytes a b c d)

/-- The options of a message, as any reader of the format finds them. -/
def optionsOf (buf : List UInt8) : List (UInt8 × List UInt8) :=
  Tlv.decode optPad optEnd (buf.drop optionsStart)

namespace DhcpPacket

variable {p : DhcpPacket} {i : ℕ} {data : List UInt8}

theorem length_copyAt (h : i + data.length ≤ p.buf.length) :
    (p.copyAt i data).buf.length = p.buf.length := by
  unfold copyAt
  simp only [List.length_append, List.length_take, List.length_drop]
  omega

theorem getElem?_copyAt_of_lt {j : ℕ} (h : i ≤ p.buf.length) (hj : j < i) :
    (p.copyAt i data).buf[j]? = p.buf[j]? := by
  unfold copyAt
  have hlt : j < (p.buf.take i).length := by
    rw [List.length_take]
    omega
  rw [List.append_assoc, List.getElem?_append_left hlt, List.getElem?_take_of_lt hj]

theorem getElem?_copyAt_add {j : ℕ} (h : i ≤ p.buf.length) (hj : j < data.length) :
    (p.copyAt i data).buf[i + j]? = data[j]? := by
  unfold copyAt
  have hlen : (p.buf.take i).length = i := by
    rw [List.length_take]
    omega
  rw [List.append_assoc, List.getElem?_append_right (by omega), hlen, Nat.add_sub_cancel_left,
    List.getElem?_append_left hj]

theorem drop_copyAt {k : ℕ} (h : i ≤ p.buf.length) (hk : i + data.length ≤ k) :
    (p.copyAt i data).buf.drop k = p.buf.drop k := by
  unfold copyAt
  have hlen : (p.buf.take i ++ data).length = i + data.length := by
    rw [List.length_append, List.length_take, Nat.min_eq_left h]
  obtain ⟨n, rfl⟩ := Nat.exists_eq_add_of_le hk
  rw [← List.drop_drop, List.drop_left' hlen, List.drop_drop]

/-- A message that is only a header so far. -/
def IsHeader (p : DhcpPacket) : Prop := p.buf.length = optionsStart

theorem isHeader_new (xid : UInt32) : IsHeader (new xid) := by
  unfold IsHeader new
  rw [List.length_append, List.length_replicate]
  rfl

theorem IsHeader.copyAt (h : IsHeader p) (hi : i + data.length ≤ optionsStart) :
    IsHeader (p.copyAt i data) := by
  unfold IsHeader at h ⊢
  rw [length_copyAt (by omega), h]

/-- The copies of `set_header` leave a header, with the transaction id where it belongs. -/
theorem IsHeader.setHeader {op : UInt8} {mac : Mac} (h : IsHeader p) :
    IsHeader (p.setHeader op mac) ∧
      ∀ j < 4, (p.setHeader op mac).buf[4 + j]? = (Bytes.toBeBytes p.xid)[j]? := by
  have hstart : optionsStart = 240 := rfl
  let p1 := p.copyAt 0 [op, htypeEthernet, hlenEthernet, 0]
  let p2 := p1.copyAt 4 (Bytes.toBeBytes p.xid)
  let p3 := p2.copyAt 10 flagsBroadcast
  have h1 : IsHeader p1 := h.copyAt (by simp [hstart])
  have h2 : IsHeader p2 := h1.copyAt (by simp [hstart])
  have h3 : IsHeader p3 := h2.copyAt (by decide)
  have h4 : IsHeader (p3.copyAt 28 mac.octets) := h3.copyAt (by simp [hstart])
  refine ⟨h4, fun j hj => ?_⟩
  unfold IsHeader at h1 h2 h3
  -- the two later copies start behind the id
  have hlast : (p3.copyAt 28 mac.octets).buf[4 + j]? = p3.buf[4 + j]? :=
    getElem?_copyAt_of_lt (by omega) (by omega)
  have hflags : p3.buf[4 + j]? = p2.buf[4 + j]? :=
    getElem?_copyAt_of_lt (by omega) (by omega)
  have hxid : p2.buf[4 + j]? = (Bytes.toBeBytes p.xid)[j]? :=
    getElem?_copyAt_add (by omega) (by simpa using hj)
  exact hlast.trans (hflags.trans hxid)

theorem exists_finish (p : DhcpPacket) :
    ∃ n, p.finish.bytes = p.buf ++ (optEnd :: List.replicate n optPad) := by
  refine ⟨300 - (p.buf ++ [optEnd]).length, ?_⟩
  show p.buf ++ [optEnd] ++ List.replicate _ optPad = _
  rw [List.append_assoc, List.singleton_append]

end DhcpPacket

/-- A header followed by options reads back as both. -/
theorem wire_of_header {header : List UInt8} {xid : UInt32} (rest : List UInt8)
    (hlen : header.length = optionsStart)
    (hxid : ∀ j < 4, header[4 + j]? = (Bytes.toBeBytes xid)[j]?) :
    xidOf (header ++ rest) = some xid ∧
      optionsOf (header ++ rest) = Tlv.decode optPad optEnd rest := by
  have hstart : optionsStart = 240 := rfl
  have hbyte : ∀ j < 4, (header ++ rest)[4 + j]? = (Bytes.toBeBytes xid)[j]? := by
    intro j hj
    rw [List.getElem?_append_left (by omega), hxid j hj]
  constructor
  · unfold xidOf
    rw [hbyte 0 (by omega), hbyte 1 (by omega), hbyte 2 (by omega), hbyte 3 (by omega)]
    exact congrArg some (Bytes.fromBeBytes_toBeBytes xid)
  · unfold optionsOf
    rw [← hlen, List.drop_left]

/-- What a selecting REQUEST says on the wire. -/
theorem request_wire (xid : UInt32) (mac : Mac) (ip server : Ipv4Addr) :
    xidOf (DhcpPacket.request xid mac ip server false).bytes = some xid ∧
      optionsOf (DhcpPacket.request xid mac ip server false).bytes =
        [(optMsgType, [msgRequest]), (optRequestedIp, ip.octets), (optServerId, server.octets),
          (optClientId, DhcpPacket.clientId mac), (optParamList, DhcpPacket.paramList)] := by
  obtain ⟨header, hnew⟩ : ∃ header, (DhcpPacket.new xid).setHeader opRequest mac = header :=
    ⟨_, rfl⟩
  obtain ⟨hheader, hxid⟩ : header.IsHeader ∧
      ∀ j < 4, header.buf[4 + j]? = (Bytes.toBeBytes xid)[j]? := by
    rw [← hnew]
    exact (DhcpPacket.isHeader_new xid).setHeader
  obtain ⟨n, hfinish⟩ := DhcpPacket.exists_finish (((((header.pushOptByte optMsgType
    msgRequest).pushOptIp optRequestedIp ip).pushOptIp optServerId server).pushOpt optClientId
    (DhcpPacket.clientId mac)).pushOpt optParamList DhcpPacket.paramList)
  have hbytes : (DhcpPacket.request xid mac ip server false).bytes =
      header.buf ++ (Tlv.encode optMsgType [msgRequest] ++
        (Tlv.encode optRequestedIp ip.octets ++ (Tlv.encode optServerId server.octets ++
        (Tlv.encode optClientId (DhcpPacket.clientId mac) ++
        (Tlv.encode optParamList DhcpPacket.paramList ++
        (optEnd :: List.replicate n optPad)))))) := by
    unfold DhcpPacket.request
    simp only [Bool.false_eq_true, if_false, hnew]
    rw [hfinish]
    simp only [DhcpPacket.pushOptByte, DhcpPacket.pushOptIp, DhcpPacket.pushOpt,
      List.append_assoc]
  rw [hbytes]
  have hwire := fun rest => wire_of_header rest hheader hxid
  refine ⟨(hwire _).1, (hwire _).2.trans ?_⟩
  rw [Tlv.decode_encode_append (by decide) (by decide) (by decide),
    Tlv.decode_encode_append (by decide) (by decide) (by simp),
    Tlv.decode_encode_append (by decide) (by decide) (by simp),
    Tlv.decode_encode_append (by decide) (by decide) (by simp [DhcpPacket.clientId]),
    Tlv.decode_encode_append (by decide) (by decide) (by decide),
    Tlv.decode_cons, if_pos rfl]

end Quantra.Dhcp
