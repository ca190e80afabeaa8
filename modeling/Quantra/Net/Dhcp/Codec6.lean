import Quantra.Lib.WideTlv
import Quantra.Net.Dhcp.Codec
import Quantra.Net.Dhcp.Lease6

/-! The packets of the DHCPv6 client of `quantra-netd` (`ipv6.rs`) and its parser of replies. -/
namespace Quantra.Dhcp6
open Bytes Quantra.Net
open Dhcp (u32At leadingU32 u32At_eq)

def msgSolicit : UInt8 := 1

def msgRequest : UInt8 := 3

def msgRelease : UInt8 := 8

def optClientid : UInt16 := 1

def optServerid : UInt16 := 2

def optIaNa : UInt16 := 3

def optIaAddr : UInt16 := 5

def optOro : UInt16 := 6

def optElapsed : UInt16 := 8

def optStatus : UInt16 := 13

def optDns : UInt16 := 23

def optDomain : UInt16 := 24

def statusSuccess : UInt16 := 0

/-! The builder. -/

/-- `DUID-LL` of an Ethernet interface. -/
def makeDuidLl (mac : Mac) : List UInt8 := toBeBytes16 3 ++ toBeBytes16 1 ++ mac.octets

structure Dhcp6Packet where
  buf : List UInt8
  deriving DecidableEq, Repr

namespace Dhcp6Packet

def new (msgType : UInt8) (xid : Vector UInt8 3) : Dhcp6Packet := ⟨msgType :: xid.toList⟩

def pushOpt (p : Dhcp6Packet) (code : UInt16) (data : List UInt8) : Dhcp6Packet :=
  ⟨p.buf ++ WideTlv.encode code data⟩

def pushOptU16 (p : Dhcp6Packet) (code val : UInt16) : Dhcp6Packet :=
  p.pushOpt code (toBeBytes16 val)

def bytes (p : Dhcp6Packet) : List UInt8 := p.buf

/-- The data of an IA_ADDR option. -/
def iaAddrData (addr : Ipv6Addr) (preferred valid : UInt32) : List UInt8 :=
  addr.octets.toList ++ toBeBytes preferred ++ toBeBytes valid

def solicit (mac : Mac) (xid : Vector UInt8 3) (iaid : UInt32) : Dhcp6Packet :=
  let p := new msgSolicit xid
  let p := p.pushOpt optClientid (makeDuidLl mac)
  let p := p.pushOpt optIaNa (toBeBytes iaid ++ toBeBytes 0 ++ toBeBytes 0)
  let p := p.pushOptU16 optElapsed 0
  p.pushOpt optOro (toBeBytes16 optDns ++ toBeBytes16 optDomain)

def request (mac : Mac) (xid : Vector UInt8 3) (serverDuid : List UInt8) (iaid : UInt32)
    (requestedAddr : Option Ipv6Addr) : Dhcp6Packet :=
  let p := new msgRequest xid
  let p := p.pushOpt optClientid (makeDuidLl mac)
  let p := p.pushOpt optServerid serverDuid
  let iaNa := toBeBytes iaid ++ toBeBytes 0 ++ toBeBytes 0
  let iaNa := match requestedAddr with
    | some addr => iaNa ++ WideTlv.encode optIaAddr (iaAddrData addr 3600 7200)
    | none => iaNa
  let p := p.pushOpt optIaNa iaNa
  let p := p.pushOpt optOro (toBeBytes16 optDns)
  p.pushOptU16 optElapsed 0

def release (mac : Mac) (xid : Vector UInt8 3) (serverDuid : List UInt8) (iaid : UInt32)
    (addr : Ipv6Addr) : Dhcp6Packet :=
  let p := new msgRelease xid
  let p := p.pushOpt optClientid (makeDuidLl mac)
  let p := p.pushOpt optServerid serverDuid
  let iaNa := toBeBytes iaid ++ toBeBytes 0 ++ toBeBytes 0
  p.pushOpt optIaNa (iaNa ++ WideTlv.encode optIaAddr (iaAddrData addr 0 0))

end Dhcp6Packet

/-! The parser. An outer `none` is an index panic, an inner one a rejected reply. -/

/-- `Dhcp6Reply` with the fields that only the handshake looks at. -/
structure ParsedReply extends Dhcp6Reply where
  msgType : UInt8
  xid : Vector UInt8 3
  statusCode : UInt16
  deriving DecidableEq, Repr

/-- The variables of the option loop of `parse_dhcp6_reply`. -/
structure ReplyVars where
  serverDuid : List UInt8 := []
  iaAddress : Option Ipv6Addr := none
  preferred : UInt32 := 3600
  valid : UInt32 := 7200
  t1 : UInt32 := 1800
  t2 : UInt32 := 2880
  dns : List Ipv6Addr := []
  statusCode : UInt16 := statusSuccess

/-- `a.copy_from_slice(&data[j..j + 16])` for an array of 16 bytes. -/
def ipv6At (data : List UInt8) (j : ℕ) : Option Ipv6Addr := do
  let s ← Bytes.slice data j (j + 16)
  if h : s.length = 16 then some ⟨⟨s.toArray, h⟩⟩ else none

/-- The inner loop of the DNS option. -/
def pushServers (data : List UInt8) (len : ℕ) : ℕ → ℕ → List Ipv6Addr → Option (List Ipv6Addr)
  | 0, _, _ => none
  | fuel + 1, j, dns =>
    if j + 16 ≤ len then do
      let ip ← ipv6At data j
      pushServers data len fuel (j + 16) (dns ++ [ip])
    else some dns

/-- The body of the loop over the options inside an IA_NA. -/
def ReplyVars.matchSub (v : ReplyVars) (sc : UInt16) (sd : List UInt8) : Option ReplyVars :=
  if sc = optIaAddr ∧ sd.length ≥ 24 then do
    let iaAddress ← ipv6At sd 0
    let preferred ← u32At sd 16
    let valid ← u32At sd 20
    some { v with iaAddress := some iaAddress, preferred, valid }
  else some v

/-- The loop over the options inside an IA_NA, from offset 12 of its data. -/
def iaLoop (data : List UInt8) : ℕ → ℕ → ReplyVars → Option ReplyVars
  | 0, _, _ => none
  | fuel + 1, j, v =>
    if j + 4 ≤ data.length then do
      let sc ← WideTlv.wordAt data j
      let j := j + 2
      let sl ← WideTlv.wordAt data j
      let j := j + 2
      if j + sl.toNat > data.length then some v
      else do
        let sd ← Bytes.slice data j (j + sl.toNat)
        let j := j + sl.toNat
        let v ← v.matchSub sc sd
        iaLoop data fuel j v
    else some v

/-- The `match` on the option code. -/
def ReplyVars.matchOption (v : ReplyVars) (code : UInt16) (data : List UInt8) : Option ReplyVars :=
  let len := data.length
  if code = optServerid then some { v with serverDuid := data }
  else if code = optIaNa ∧ len ≥ 12 then do
    let t1 ← u32At data 4
    let t2 ← u32At data 8
    iaLoop data (len + 1) 12 { v with t1, t2 }
  else if code = optDns then do
    let dns ← pushServers data len (len + 1) 0 v.dns
    some { v with dns }
  else if code = optStatus ∧ len ≥ 2 then do
    let statusCode ← WideTlv.wordAt data 0
    some { v with statusCode }
  else some v

/-- The option loop of `parse_dhcp6_reply`. -/
def replyLoop (buf : List UInt8) : ℕ → ℕ → ReplyVars → Option ReplyVars
  | 0, _, _ => none
  | fuel + 1, i, v =>
    if i + 4 ≤ buf.length then do
      let code ← WideTlv.wordAt buf i
      let i := i + 2
      let len ← WideTlv.wordAt buf i
      let i := i + 2
      if i + len.toNat > buf.length then some v
      else do
        let data ← Bytes.slice buf i (i + len.toNat)
        let i := i + len.toNat
        let v ← v.matchOption code data
        replyLoop buf fuel i v
    else some v

/-- The result; the length of the prefix is fixed. -/
def replyOf (msgType : UInt8) (xid : Vector UInt8 3) (v : ReplyVars) : ParsedReply where
  serverDuid := v.serverDuid
  iaAddress := v.iaAddress
  prefixLen := 128
  preferred := v.preferred
  valid := v.valid
  t1 := v.t1
  t2 := v.t2
  dns := v.dns
  msgType
  xid
  statusCode := v.statusCode

def parseDhcp6Reply (buf : List UInt8) : Option (Option ParsedReply) :=
  if buf.length < 4 then some none
  else do
    let msgType ← buf[0]?
    let x ← buf[1]?
    let y ← buf[2]?
    let z ← buf[3]?
    let v ← replyLoop buf (buf.length + 1) 4 {}
    some (some (replyOf msgType #v[x, y, z] v))

/-! What options say. -/

/-- An option with this code whose data `read` can read. -/
def field {α : Type} (code : UInt16) (read : List UInt8 → Option α) (o : UInt16 × List UInt8) :
    Option α :=
  if o.1 = code then read o.2 else none

structure IaAddr where
  address : Ipv6Addr
  preferred : UInt32
  valid : UInt32
  deriving DecidableEq, Repr

/-- The two times of an IA_NA and the options inside it. -/
structure IaNa where
  t1 : UInt32
  t2 : UInt32
  subs : List (UInt16 × List UInt8)
  deriving DecidableEq, Repr

/-- The address in the first sixteen bytes. -/
def leadingIpv6 (data : List UInt8) : Option Ipv6Addr :=
  if h : 16 ≤ data.length then some ⟨⟨(data.take 16).toArray, size_take h⟩⟩ else none

def readIaAddr (data : List UInt8) : Option IaAddr := do
  let address ← leadingIpv6 data
  let preferred ← leadingU32 (data.drop 16)
  let valid ← leadingU32 (data.drop 20)
  some ⟨address, preferred, valid⟩

/-- An identity, two times, and options. -/
def readIaNa (data : List UInt8) : Option IaNa := do
  let t1 ← leadingU32 (data.drop 4)
  let t2 ← leadingU32 (data.drop 8)
  some ⟨t1, t2, WideTlv.decode (data.drop 12)⟩

def readWord : List UInt8 → Option UInt16
  | a :: b :: _ => some (fromBeBytes16 a b)
  | _ => none

/-- The last readable address in an IA_NA. -/
def IaNa.lastAddr (ia : IaNa) : Option IaAddr := Tlv.last (field optIaAddr readIaAddr) ia.subs

/-- The addresses in the data; what is left behind the last whole one is no address. -/
def addresses (data : List UInt8) : List Ipv6Addr :=
  if 16 ≤ data.length then (leadingIpv6 data).toList ++ addresses (data.drop 16) else []
termination_by data.length
decreasing_by
  rw [List.length_drop]
  omega

def dnsServers (o : UInt16 × List UInt8) : List Ipv6Addr :=
  if o.1 = optDns then addresses o.2 else []

/-- The last readable address in an option, if it is an IA_NA. -/
def addrIn (o : UInt16 × List UInt8) : Option IaAddr :=
  (field optIaNa readIaNa o).bind IaNa.lastAddr

/-- The last server and status, the times of the last readable IA_NA, the last readable address of
the last IA_NA that holds one, and the name servers of all options. -/
def said (options : List (UInt16 × List UInt8)) : ReplyVars where
  serverDuid := (Tlv.last (field optServerid some) options).getD []
  iaAddress := (Tlv.last addrIn options).map IaAddr.address
  preferred := ((Tlv.last addrIn options).map IaAddr.preferred).getD 3600
  valid := ((Tlv.last addrIn options).map IaAddr.valid).getD 7200
  t1 := ((Tlv.last (field optIaNa readIaNa) options).map IaNa.t1).getD 1800
  t2 := ((Tlv.last (field optIaNa readIaNa) options).map IaNa.t2).getD 2880
  dns := options.flatMap dnsServers
  statusCode := (Tlv.last (field optStatus readWord) options).getD statusSuccess

/-- The variables after an address was found, or none. -/
def ReplyVars.withAddr (v : ReplyVars) (a : Option IaAddr) : ReplyVars :=
  { v with
    iaAddress := (a.map IaAddr.address).or v.iaAddress
    preferred := (a.map IaAddr.preferred).getD v.preferred
    valid := (a.map IaAddr.valid).getD v.valid }

section Options
variable {v : ReplyVars} {code sc : UInt16} {data sd : List UInt8} {j fuel : ℕ}

theorem exists_leadingIpv6 (h : 16 ≤ data.length) : ∃ ip, leadingIpv6 data = some ip := by
  unfold leadingIpv6
  rw [dif_pos h]
  exact ⟨_, rfl⟩

theorem leadingIpv6_append (ip : Ipv6Addr) (rest : List UInt8) :
    leadingIpv6 (ip.octets.toList ++ rest) = some ip := by
  have hlen : ip.octets.toList.length = 16 := ip.octets.length_toList
  have htake : (ip.octets.toList ++ rest).take 16 = ip.octets.toList := List.take_left' hlen
  unfold leadingIpv6
  rw [dif_pos (by rw [List.length_append]; omega)]
  obtain ⟨⟨⟨octets⟩, hsize⟩⟩ := ip
  simp only [htake]
  rfl

theorem ipv6At_eq (h : j + 16 ≤ data.length) : ipv6At data j = leadingIpv6 (data.drop j) := by
  have hlen : ((data.drop j).take 16).length = 16 := by
    rw [List.length_take, List.length_drop]
    omega
  unfold ipv6At leadingIpv6
  rw [Bytes.slice_eq (by omega) h, Nat.add_sub_cancel_left, dif_pos (by rw [List.length_drop]; omega)]
  exact dif_pos hlen

theorem addresses_of_short (h : data.length < 16) : addresses data = [] := by
  rw [addresses, if_neg (by omega)]

theorem addresses_of_leadingIpv6 {ip : Ipv6Addr} (hlen : 16 ≤ data.length)
    (h : leadingIpv6 data = some ip) : addresses data = ip :: addresses (data.drop 16) := by
  rw [addresses, if_pos hlen, h]
  rfl

theorem pushServers_eq {dns : List Ipv6Addr} (hfuel : data.length - j < fuel) :
    pushServers data data.length fuel j dns = some (dns ++ addresses (data.drop j)) := by
  induction fuel generalizing j dns with
  | zero => omega
  | succ fuel ih =>
    unfold pushServers
    by_cases hnext : j + 16 ≤ data.length
    · have hlen : 16 ≤ (data.drop j).length := by
        rw [List.length_drop]
        omega
      obtain ⟨ip, hip⟩ := exists_leadingIpv6 hlen
      rw [if_pos hnext, ipv6At_eq hnext, hip, addresses_of_leadingIpv6 hlen hip, List.drop_drop]
      show pushServers data data.length fuel (j + 16) (dns ++ [ip]) = _
      rw [ih (by omega), List.append_assoc]
      rfl
    · rw [if_neg hnext, addresses_of_short (by rw [List.length_drop]; omega), List.append_nil]

theorem withAddr_withAddr (a b : Option IaAddr) : (v.withAddr a).withAddr b = v.withAddr (b.or a) := by
  cases b <;> rfl

theorem matchSub_eq : v.matchSub sc sd = some (v.withAddr (field optIaAddr readIaAddr (sc, sd))) := by
  unfold ReplyVars.matchSub field
  by_cases hcode : sc = optIaAddr
  · by_cases hlen : sd.length ≥ 24
    · obtain ⟨ip, hip⟩ : ∃ ip, leadingIpv6 sd = some ip := exists_leadingIpv6 (by omega)
      obtain ⟨preferred, hpreferred⟩ : ∃ n, leadingU32 (sd.drop 16) = some n :=
        Dhcp.leadingU32_of_le (by rw [List.length_drop]; omega)
      obtain ⟨valid, hvalid⟩ : ∃ n, leadingU32 (sd.drop 20) = some n :=
        Dhcp.leadingU32_of_le (by rw [List.length_drop]; omega)
      have haddr : ipv6At sd 0 = some ip := by rw [ipv6At_eq (by omega), List.drop_zero, hip]
      have hread : readIaAddr sd = some ⟨ip, preferred, valid⟩ := by
        unfold readIaAddr
        rw [hip, hpreferred, hvalid]
        rfl
      rw [if_pos ⟨hcode, hlen⟩, if_pos hcode, haddr, u32At_eq, u32At_eq, hpreferred, hvalid, hread]
      rfl
    · have hnone : leadingU32 (sd.drop 20) = none :=
        Dhcp.leadingU32_of_short (by rw [List.length_drop]; omega)
      have hread : readIaAddr sd = none := by
        unfold readIaAddr
        rw [hnone]
        cases leadingIpv6 sd <;> cases leadingU32 (sd.drop 16) <;> rfl
      rw [if_neg (fun h => hlen h.2), if_pos hcode, hread]
      rfl
  · rw [if_neg (fun h => hcode h.1), if_neg hcode]
    rfl

theorem iaLoop_eq_walk :
    iaLoop data fuel j v = WideTlv.walk ReplyVars.matchSub data fuel j v := by
  induction fuel generalizing j v with
  | zero => rfl
  | succ fuel ih =>
    unfold iaLoop WideTlv.walk
    simp only [ih]

theorem foldlM_matchSub (subs : List (UInt16 × List UInt8)) :
    subs.foldlM (fun v o => ReplyVars.matchSub v o.1 o.2) v =
      some (v.withAddr (Tlv.last (field optIaAddr readIaAddr) subs)) := by
  induction subs using List.reverseRecOn with
  | nil => rfl
  | append_singleton subs o ih =>
    rw [List.foldlM_append, ih]
    simp only [List.foldlM_cons, List.foldlM_nil, Option.bind_eq_bind, Option.bind_some,
      matchSub_eq, withAddr_withAddr, Tlv.last_concat, Option.pure_def]

/-- The options inside an IA_NA are taken in as a whole. -/
theorem iaLoop_eq (hfuel : data.length - j < fuel) : iaLoop data fuel j v =
    some (v.withAddr (Tlv.last (field optIaAddr readIaAddr) (WideTlv.decode (data.drop j)))) := by
  rw [iaLoop_eq_walk, WideTlv.walk_eq_foldlM hfuel, foldlM_matchSub]

theorem wordAt_eq (data : List UInt8) : WideTlv.wordAt data 0 = readWord data := by
  match data with
  | [] => rfl
  | [a] => rfl
  | a :: b :: rest => rfl

/-- What an option changes. -/
def ReplyVars.after (v : ReplyVars) (o : UInt16 × List UInt8) : ReplyVars :=
  let w := v.withAddr (addrIn o)
  { w with
    serverDuid := (field optServerid some o).getD v.serverDuid
    t1 := ((field optIaNa readIaNa o).map IaNa.t1).getD v.t1
    t2 := ((field optIaNa readIaNa o).map IaNa.t2).getD v.t2
    dns := v.dns ++ dnsServers o
    statusCode := (field optStatus readWord o).getD v.statusCode }

theorem readIaNa_of_le (h : 12 ≤ data.length) : ∃ t1 t2, leadingU32 (data.drop 4) = some t1 ∧
    leadingU32 (data.drop 8) = some t2 ∧
    readIaNa data = some ⟨t1, t2, WideTlv.decode (data.drop 12)⟩ := by
  obtain ⟨t1, ht1⟩ : ∃ n, leadingU32 (data.drop 4) = some n :=
    Dhcp.leadingU32_of_le (by rw [List.length_drop]; omega)
  obtain ⟨t2, ht2⟩ : ∃ n, leadingU32 (data.drop 8) = some n :=
    Dhcp.leadingU32_of_le (by rw [List.length_drop]; omega)
  have hread : readIaNa data = some ⟨t1, t2, WideTlv.decode (data.drop 12)⟩ := by
    unfold readIaNa
    rw [ht1, ht2]
    rfl
  exact ⟨t1, t2, ht1, ht2, hread⟩

theorem readIaNa_of_short (h : data.length < 12) : readIaNa data = none := by
  have hnone : leadingU32 (data.drop 8) = none :=
    Dhcp.leadingU32_of_short (by rw [List.length_drop]; omega)
  unfold readIaNa
  rw [hnone]
  cases leadingU32 (data.drop 4) <;> rfl

theorem readWord_of_short (h : data.length < 2) : readWord data = none := by
  match data with
  | [] => rfl
  | [a] => rfl
  | a :: b :: rest =>
    simp only [List.length_cons] at h
    omega

theorem readWord_of_le (h : 2 ≤ data.length) : ∃ w, readWord data = some w := by
  match data with
  | [] => simp at h
  | [a] => simp at h
  | a :: b :: rest => exact ⟨_, rfl⟩

/-- An option changes the variables that it is about, if it can be read. -/
theorem matchOption_eq : v.matchOption code data = some (v.after (code, data)) := by
  unfold ReplyVars.matchOption ReplyVars.after addrIn field dnsServers
  simp only [u32At_eq, wordAt_eq]
  -- the codes are different numbers, so an option has one meaning at most
  by_cases hserver : code = optServerid
  · subst hserver
    simp [optServerid, optIaNa, optDns, optStatus, ReplyVars.withAddr]
  by_cases hia : code = optIaNa
  · subst hia
    by_cases hlen : data.length ≥ 12
    · obtain ⟨t1, t2, ht1, ht2, hread⟩ := readIaNa_of_le hlen
      have hloop : iaLoop data (data.length + 1) 12 { v with t1, t2 } =
          some (ReplyVars.withAddr { v with t1, t2 }
            (Tlv.last (field optIaAddr readIaAddr) (WideTlv.decode (data.drop 12)))) :=
        iaLoop_eq (by omega)
      simp [optServerid, optIaNa, optDns, optStatus, hlen, ht1, ht2, hread, hloop,
        ReplyVars.withAddr, IaNa.lastAddr]
    · simp [optServerid, optIaNa, optDns, optStatus, hlen, readIaNa_of_short (Nat.lt_of_not_le hlen),
        ReplyVars.withAddr]
  by_cases hdns : code = optDns
  · subst hdns
    have hservers : pushServers data data.length (data.length + 1) 0 v.dns =
        some (v.dns ++ addresses data) := pushServers_eq (by omega)
    simp [optServerid, optIaNa, optDns, optStatus, hservers, ReplyVars.withAddr]
  by_cases hstatus : code = optStatus
  · subst hstatus
    by_cases hlen : data.length ≥ 2
    · obtain ⟨w, hw⟩ := readWord_of_le hlen
      simp [optServerid, optIaNa, optDns, optStatus, hlen, hw, ReplyVars.withAddr]
    · simp [optServerid, optIaNa, optDns, optStatus, hlen, readWord_of_short (Nat.lt_of_not_le hlen),
        ReplyVars.withAddr]
  · simp [hserver, hia, hdns, hstatus, ReplyVars.withAddr]

theorem said_concat (options : List (UInt16 × List UInt8)) (o : UInt16 × List UInt8) :
    said (options ++ [o]) = (said options).after o := by
  simp [said, ReplyVars.after, ReplyVars.withAddr, Tlv.last_concat, Option.map_or]

theorem foldlM_matchOption (options : List (UInt16 × List UInt8)) :
    options.foldlM (fun v o => ReplyVars.matchOption v o.1 o.2) {} = some (said options) := by
  induction options using List.reverseRecOn with
  | nil => rfl
  | append_singleton options o ih =>
    rw [List.foldlM_append, ih, said_concat]
    simp only [List.foldlM_cons, List.foldlM_nil, Option.bind_eq_bind, Option.bind_some,
      matchOption_eq, Option.pure_def]

/-- Options of other codes are passed over. -/
theorem after_of_unknown {o : UInt16 × List UInt8} (hserver : o.1 ≠ optServerid)
    (hia : o.1 ≠ optIaNa) (hdns : o.1 ≠ optDns) (hstatus : o.1 ≠ optStatus) : v.after o = v := by
  simp [ReplyVars.after, ReplyVars.withAddr, addrIn, field, dnsServers, hserver, hia, hdns, hstatus]

end Options

/-! The packet. -/

/-- An option that `push_opt` writes as it is: short enough for its two length bytes. -/
structure ReplyOption where
  code : UInt16
  data : List UInt8
  fits : data.length ≤ 65535

def ReplyOption.pair (o : ReplyOption) : UInt16 × List UInt8 := (o.code, o.data)

/-- The packet with these options pushed one after another. -/
def withOptions (msgType : UInt8) (xid : Vector UInt8 3) (options : List ReplyOption) :
    Dhcp6Packet :=
  options.foldl (fun p o => p.pushOpt o.code o.data) (.new msgType xid)

/-- The data of an IA_NA. -/
def iaNaData (iaid t1 t2 : UInt32) (subs : List ReplyOption) : List UInt8 :=
  toBeBytes iaid ++ toBeBytes t1 ++ toBeBytes t2 ++ WideTlv.encodeAll (subs.map ReplyOption.pair)

section Packet
variable {buf : List UInt8} {msgType : UInt8} {xid : Vector UInt8 3} {options : List ReplyOption}

theorem replyLoop_eq_walk {fuel i : ℕ} {v : ReplyVars} :
    replyLoop buf fuel i v = WideTlv.walk ReplyVars.matchOption buf fuel i v := by
  induction fuel generalizing i v with
  | zero => rfl
  | succ fuel ih =>
    unfold replyLoop WideTlv.walk
    simp only [ih]

theorem parseDhcp6Reply_of_short (h : buf.length < 4) : parseDhcp6Reply buf = some none := by
  unfold parseDhcp6Reply
  rw [if_pos h]

/-- Of every buffer that has room for a header the parser returns what the options in it say. -/
theorem parseDhcp6Reply_of_header (x y z : UInt8) (rest : List UInt8) :
    parseDhcp6Reply (msgType :: x :: y :: z :: rest) =
      some (some (replyOf msgType #v[x, y, z] (said (WideTlv.decode rest)))) := by
  have hloop : replyLoop (msgType :: x :: y :: z :: rest)
      ((msgType :: x :: y :: z :: rest).length + 1) 4 {} = some (said (WideTlv.decode rest)) := by
    rw [replyLoop_eq_walk, WideTlv.walk_eq_foldlM (by omega)]
    exact foldlM_matchOption (WideTlv.decode rest)
  have hlen : ¬(msgType :: x :: y :: z :: rest).length < 4 := by
    simp only [List.length_cons]
    omega
  unfold parseDhcp6Reply
  rw [if_neg hlen, hloop]
  rfl

theorem isSome_parseDhcp6Reply (buf : List UInt8) : (parseDhcp6Reply buf).isSome := by
  match buf with
  | [] => rfl
  | [_] => rfl
  | [_, _] => rfl
  | [_, _, _] => rfl
  | _ :: x :: y :: z :: rest =>
    rw [parseDhcp6Reply_of_header x y z rest]
    rfl

theorem decode_pairs (options : List ReplyOption) :
    WideTlv.decode (WideTlv.encodeAll (options.map ReplyOption.pair)) =
      options.map ReplyOption.pair := by
  apply WideTlv.decode_encodeAll
  intro o ho
  obtain ⟨o, -, rfl⟩ := List.mem_map.1 ho
  exact Nat.lt_succ_of_le o.fits

theorem foldl_pushOpt (p : Dhcp6Packet) (options : List ReplyOption) :
    (options.foldl (fun p o => p.pushOpt o.code o.data) p).bytes =
      p.bytes ++ WideTlv.encodeAll (options.map ReplyOption.pair) := by
  induction options generalizing p with
  | nil => exact (List.append_nil _).symm
  | cons o options ih =>
    rw [List.foldl_cons, ih]
    exact List.append_assoc _ _ _

theorem parseDhcp6Reply_pushed : parseDhcp6Reply (withOptions msgType xid options).bytes =
    some (some (replyOf msgType xid (said (options.map ReplyOption.pair)))) := by
  obtain ⟨x, y, z, rfl⟩ : ∃ x y z, xid = #v[x, y, z] := by
    obtain ⟨⟨l⟩, hsize⟩ := xid
    match l, hsize with
    | [x, y, z], _ => exact ⟨x, y, z, rfl⟩
  have hbytes : (withOptions msgType #v[x, y, z] options).bytes =
      msgType :: x :: y :: z :: WideTlv.encodeAll (options.map ReplyOption.pair) :=
    foldl_pushOpt _ options
  rw [hbytes, parseDhcp6Reply_of_header, decode_pairs]

theorem leadingU32_toBeBytes (n : UInt32) (rest : List UInt8) :
    leadingU32 (toBeBytes n ++ rest) = some n :=
  congrArg some (fromBeBytes_toBeBytes n)

theorem readIaNa_iaNaData (iaid t1 t2 : UInt32) (subs : List ReplyOption) :
    readIaNa (iaNaData iaid t1 t2 subs) = some ⟨t1, t2, subs.map ReplyOption.pair⟩ := by
  have h4 : (iaNaData iaid t1 t2 subs).drop 4 =
      toBeBytes t1 ++ (toBeBytes t2 ++ WideTlv.encodeAll (subs.map ReplyOption.pair)) := rfl
  have h8 : (iaNaData iaid t1 t2 subs).drop 8 =
      toBeBytes t2 ++ WideTlv.encodeAll (subs.map ReplyOption.pair) := rfl
  have h12 : (iaNaData iaid t1 t2 subs).drop 12 =
      WideTlv.encodeAll (subs.map ReplyOption.pair) := rfl
  unfold readIaNa
  rw [h4, h8, h12, leadingU32_toBeBytes, leadingU32_toBeBytes, decode_pairs]
  rfl

theorem field_iaNaData (iaid t1 t2 : UInt32) (subs : List ReplyOption) :
    field optIaNa readIaNa (optIaNa, iaNaData iaid t1 t2 subs) =
      some ⟨t1, t2, subs.map ReplyOption.pair⟩ := by
  unfold field
  rw [if_pos rfl, readIaNa_iaNaData]

theorem length_iaAddrData (addr : Ipv6Addr) (preferred valid : UInt32) :
    (Dhcp6Packet.iaAddrData addr preferred valid).length = 24 := by
  have hlen : addr.octets.toList.length = 16 := addr.octets.length_toList
  simp [Dhcp6Packet.iaAddrData, hlen, length_toBeBytes]

theorem readIaAddr_iaAddrData (addr : Ipv6Addr) (preferred valid : UInt32) :
    readIaAddr (Dhcp6Packet.iaAddrData addr preferred valid) =
      some ⟨addr, preferred, valid⟩ := by
  have hlen : addr.octets.toList.length = 16 := addr.octets.length_toList
  have h16 : (Dhcp6Packet.iaAddrData addr preferred valid).drop 16 =
      toBeBytes preferred ++ toBeBytes valid := by
    unfold Dhcp6Packet.iaAddrData
    rw [List.append_assoc, List.drop_left' hlen]
  have h20 : (Dhcp6Packet.iaAddrData addr preferred valid).drop 20 = toBeBytes valid ++ [] := by
    show List.drop (16 + 4) _ = _
    rw [← List.drop_drop, h16, List.append_nil]
    rfl
  unfold readIaAddr
  rw [h16, h20, leadingU32_toBeBytes, leadingU32_toBeBytes]
  unfold Dhcp6Packet.iaAddrData
  rw [List.append_assoc, leadingIpv6_append]
  rfl

/-- The IA_ADDR option that the client writes. -/
def iaAddrOption (addr : Ipv6Addr) (preferred valid : UInt32) : ReplyOption :=
  ⟨optIaAddr, Dhcp6Packet.iaAddrData addr preferred valid, by rw [length_iaAddrData]; omega⟩

theorem lastAddr_iaAddrOption (t1 t2 : UInt32) (addr : Ipv6Addr) (preferred valid : UInt32) :
    IaNa.lastAddr ⟨t1, t2, [(iaAddrOption addr preferred valid).pair]⟩ =
      some ⟨addr, preferred, valid⟩ := by
  have hread : field optIaAddr readIaAddr (iaAddrOption addr preferred valid).pair =
      some ⟨addr, preferred, valid⟩ := by
    show (if optIaAddr = optIaAddr then readIaAddr _ else none) = _
    rw [if_pos rfl]
    exact readIaAddr_iaAddrData addr preferred valid
  unfold IaNa.lastAddr Tlv.last
  rw [List.filterMap_cons_some hread]
  rfl

end Packet

/-! What the client itself writes. -/

section Client
variable (mac : Mac) (xid : Vector UInt8 3) (iaid : UInt32) (addr : Ipv6Addr)
  (preferred valid : UInt32) (serverDuid : {duid : List UInt8 // duid.length ≤ 65535})

def clientIdOption : ReplyOption :=
  ⟨optClientid, makeDuidLl mac, by simp [makeDuidLl, Mac.octets, length_toBeBytes16]⟩

def serverIdOption : ReplyOption := ⟨optServerid, serverDuid.1, serverDuid.2⟩

/-- An IA_NA without times and with one address. -/
def iaNaOption : ReplyOption :=
  ⟨optIaNa, iaNaData iaid 0 0 [iaAddrOption addr preferred valid], by
    have haddr : (Dhcp6Packet.iaAddrData addr preferred valid).length = 24 :=
      length_iaAddrData addr preferred valid
    simp [iaNaData, WideTlv.encodeAll, WideTlv.encode, iaAddrOption, ReplyOption.pair, haddr,
      length_toBeBytes, length_toBeBytes16]⟩

def oroOption : ReplyOption := ⟨optOro, toBeBytes16 optDns, by decide⟩

def elapsedOption : ReplyOption := ⟨optElapsed, toBeBytes16 0, by decide⟩

theorem request_eq_withOptions :
    Dhcp6Packet.request mac xid serverDuid.1 iaid (some addr) =
      withOptions msgRequest xid [clientIdOption mac, serverIdOption serverDuid,
        iaNaOption iaid addr 3600 7200, oroOption, elapsedOption] := by
  simp [Dhcp6Packet.request, withOptions, clientIdOption, serverIdOption, iaNaOption, oroOption,
    elapsedOption, iaNaData, Dhcp6Packet.pushOptU16, WideTlv.encodeAll, iaAddrOption,
    ReplyOption.pair]

theorem release_eq_withOptions :
    Dhcp6Packet.release mac xid serverDuid.1 iaid addr =
      withOptions msgRelease xid [clientIdOption mac, serverIdOption serverDuid,
        iaNaOption iaid addr 0 0] := by
  simp [Dhcp6Packet.release, withOptions, clientIdOption, serverIdOption, iaNaOption, iaNaData,
    WideTlv.encodeAll, iaAddrOption, ReplyOption.pair]

/-- What a packet of the client says: its server, and one address with its lifetimes. -/
def named : ReplyVars :=
  { serverDuid := serverDuid.1, iaAddress := some addr, preferred, valid, t1 := 0, t2 := 0 }

theorem readIaNa_iaNaOption : field optIaNa readIaNa (iaNaOption iaid addr preferred valid).pair =
    some ⟨0, 0, [(iaAddrOption addr preferred valid).pair]⟩ :=
  field_iaNaData iaid 0 0 [iaAddrOption addr preferred valid]

theorem addrIn_iaNaOption :
    addrIn (iaNaOption iaid addr preferred valid).pair = some ⟨addr, preferred, valid⟩ := by
  unfold addrIn
  rw [readIaNa_iaNaOption, Option.bind_some, lastAddr_iaAddrOption]

theorem said_clientId : said [(clientIdOption mac).pair] = {} := by
  have hcode : (clientIdOption mac).pair.1 = optClientid := rfl
  rw [← List.nil_append [(clientIdOption mac).pair], said_concat,
    after_of_unknown (by rw [hcode]; decide) (by rw [hcode]; decide) (by rw [hcode]; decide)
      (by rw [hcode]; decide)]
  rfl

theorem said_client : said ([clientIdOption mac, serverIdOption serverDuid,
      iaNaOption iaid addr preferred valid].map ReplyOption.pair) =
    named addr preferred valid serverDuid := by
  have hserver : said ([(clientIdOption mac).pair] ++ [(serverIdOption serverDuid).pair]) =
      { serverDuid := serverDuid.1 } := by
    rw [said_concat, said_clientId]
    rfl
  show said ([(clientIdOption mac).pair, (serverIdOption serverDuid).pair] ++ [_]) = _
  rw [said_concat]
  show (said ([(clientIdOption mac).pair] ++ [(serverIdOption serverDuid).pair])).after _ = _
  rw [hserver]
  unfold ReplyVars.after
  rw [readIaNa_iaNaOption, addrIn_iaNaOption]
  rfl

/-- A request comes back with its server, its address and the two lifetimes. -/
theorem parse_request :
    parseDhcp6Reply (Dhcp6Packet.request mac xid serverDuid.1 iaid (some addr)).bytes =
      some (some (replyOf msgRequest xid (named addr 3600 7200 serverDuid))) := by
  have hsaid : said (([clientIdOption mac, serverIdOption serverDuid,
      iaNaOption iaid addr 3600 7200, oroOption, elapsedOption]).map ReplyOption.pair) =
      named addr 3600 7200 serverDuid := by
    show said (([clientIdOption mac, serverIdOption serverDuid,
      iaNaOption iaid addr 3600 7200].map ReplyOption.pair ++ [oroOption.pair]) ++
        [elapsedOption.pair]) = _
    rw [said_concat, said_concat, said_client,
      after_of_unknown (by decide) (by decide) (by decide) (by decide),
      after_of_unknown (by decide) (by decide) (by decide) (by decide)]
  rw [request_eq_withOptions, parseDhcp6Reply_pushed, hsaid]

/-- A release comes back with the address that is given up, and lifetimes of 0. -/
theorem parse_release :
    parseDhcp6Reply (Dhcp6Packet.release mac xid serverDuid.1 iaid addr).bytes =
      some (some (replyOf msgRelease xid (named addr 0 0 serverDuid))) := by
  rw [release_eq_withOptions, parseDhcp6Reply_pushed, said_client]

/-- A solicit names no server and no address. -/
theorem parse_solicit : parseDhcp6Reply (Dhcp6Packet.solicit mac xid iaid).bytes =
    some (some (replyOf msgSolicit xid { t1 := 0, t2 := 0 })) := by
  let iaNa : ReplyOption := ⟨optIaNa, iaNaData iaid 0 0 [], by
    simp [iaNaData, WideTlv.encodeAll, length_toBeBytes]⟩
  let oro : ReplyOption := ⟨optOro, toBeBytes16 optDns ++ toBeBytes16 optDomain, by decide⟩
  have hbytes : Dhcp6Packet.solicit mac xid iaid =
      withOptions msgSolicit xid [clientIdOption mac, iaNa, elapsedOption, oro] := by
    simp [Dhcp6Packet.solicit, withOptions, clientIdOption, elapsedOption, iaNaData,
      Dhcp6Packet.pushOptU16, WideTlv.encodeAll, iaNa, oro]
  have hia : field optIaNa readIaNa iaNa.pair = some ⟨0, 0, []⟩ := field_iaNaData iaid 0 0 []
  have hsaid : said ([clientIdOption mac, iaNa, elapsedOption, oro].map ReplyOption.pair) =
      { t1 := 0, t2 := 0 } := by
    show said (([(clientIdOption mac).pair] ++ [iaNa.pair] ++ [elapsedOption.pair]) ++
      [oro.pair]) = _
    rw [said_concat, said_concat, said_concat, said_clientId,
      after_of_unknown (by decide) (by decide) (by decide) (by decide),
      after_of_unknown (by decide) (by decide) (by decide) (by decide)]
    unfold ReplyVars.after addrIn
    rw [hia]
    rfl
  rw [hbytes, parseDhcp6Reply_pushed, hsaid]

end Client

/-! Times and address from one IA_NA. -/

/-- A readable IA_NA with an address in it. -/
def holding (o : UInt16 × List UInt8) : Option IaNa :=
  (field optIaNa readIaNa o).filter (·.lastAddr.isSome)

/-- The times and the address are those of the last IA_NA that holds an address, and the rest is
what the last server and status and all the name servers say. -/
structure Reports (options : List (UInt16 × List UInt8)) (r : ParsedReply) : Prop where
  server : r.serverDuid = (Tlv.last (field optServerid some) options).getD []
  times : ∀ ia, Tlv.last holding options = some ia → r.t1 = ia.t1 ∧ r.t2 = ia.t2
  address : ∀ ia a, Tlv.last holding options = some ia → ia.lastAddr = some a →
    r.iaAddress = some a.address ∧ r.preferred = a.preferred ∧ r.valid = a.valid
  without : Tlv.last holding options = none → r.iaAddress = none ∧
    ∀ ia, Tlv.last (field optIaNa readIaNa) options = some ia → r.t1 = ia.t1 ∧ r.t2 = ia.t2
  dns : r.dns = options.flatMap dnsServers
  status : r.statusCode = (Tlv.last (field optStatus readWord) options).getD statusSuccess

/-- The last IA_NA names the same two times as the last one that holds an address. -/
def TimesAgree (options : List (UInt16 × List UInt8)) : Prop :=
  ∀ ia last, Tlv.last holding options = some ia →
    Tlv.last (field optIaNa readIaNa) options = some last → last.t1 = ia.t1 ∧ last.t2 = ia.t2

theorem addrIn_eq_holding (o : UInt16 × List UInt8) :
    addrIn o = (holding o).bind IaNa.lastAddr := by
  unfold addrIn holding
  cases field optIaNa readIaNa o with
  | none => rfl
  | some ia => cases haddr : ia.lastAddr <;> simp [Option.filter, haddr]

theorem last_addrIn (options : List (UInt16 × List UInt8)) :
    Tlv.last addrIn options = (Tlv.last holding options).bind IaNa.lastAddr := by
  induction options using List.reverseRecOn with
  | nil => rfl
  | append_singleton options o ih =>
    rw [Tlv.last_concat, Tlv.last_concat, ih, addrIn_eq_holding]
    cases hia : holding o with
    | none => rfl
    | some ia =>
      have haddr : ia.lastAddr.isSome := by simpa using (Option.filter_eq_some_iff.1 hia).2
      obtain ⟨a, ha⟩ := Option.isSome_iff_exists.1 haddr
      simp [ha]

/-- Where an IA_NA holds an address there is a last IA_NA. -/
theorem exists_last_of_holding {options : List (UInt16 × List UInt8)} {ia : IaNa}
    (h : Tlv.last holding options = some ia) :
    ∃ last, Tlv.last (field optIaNa readIaNa) options = some last := by
  obtain ⟨o, ho, hia⟩ := List.mem_filterMap.1 (List.mem_of_getLast? h)
  have hread : ia ∈ options.filterMap (field optIaNa readIaNa) :=
    List.mem_filterMap.2 ⟨o, ho, (Option.filter_eq_some_iff.1 hia).1⟩
  exact ⟨_, List.getLast?_eq_some_getLast (List.ne_nil_of_mem hread)⟩

theorem reports_said_iff (options : List (UInt16 × List UInt8)) (msgType : UInt8)
    (xid : Vector UInt8 3) :
    Reports options (replyOf msgType xid (said options)) ↔ TimesAgree options := by
  constructor
  · intro h ia last hia hlast
    obtain ⟨ht1, ht2⟩ := h.times ia hia
    simp only [replyOf, said, hlast, Option.map_some, Option.getD_some] at ht1 ht2
    exact ⟨ht1, ht2⟩
  · intro h
    refine ⟨rfl, fun ia hia => ?_, fun ia a hia ha => ?_, fun hnone => ⟨?_, fun ia hia => ?_⟩, rfl,
      rfl⟩
    · obtain ⟨last, hlast⟩ := exists_last_of_holding hia
      simpa only [replyOf, said, hlast, Option.map_some, Option.getD_some] using h ia last hia hlast
    · have haddr : Tlv.last addrIn options = some a := by rw [last_addrIn, hia, Option.bind_some, ha]
      simp [replyOf, said, haddr]
    · have haddr : Tlv.last addrIn options = none := by rw [last_addrIn, hnone, Option.bind_none]
      simp [replyOf, said, haddr]
    · simp [replyOf, said, hia]

/-- The parser stays inside every buffer, and a request says what it asks for. Of a packet that was
put together the parser returns the times and the address of one IA_NA, and the rest of what the
options say, exactly if the last IA_NA has the times of the last one that holds an address. -/
theorem dhcp6_roundTrip_iff (buf : List UInt8) (msgType : UInt8) (mac : Mac)
    (xid : Vector UInt8 3) (options subs : List ReplyOption) (iaid t1 t2 : UInt32) (addr : Ipv6Addr)
    (serverDuid : {duid : List UInt8 // duid.length ≤ 65535}) :
    (parseDhcp6Reply buf).isSome ∧
    ((∃ r, parseDhcp6Reply (withOptions msgType xid options).bytes = some (some r) ∧
      r.msgType = msgType ∧ r.xid = xid ∧ Reports (options.map ReplyOption.pair) r) ↔
        TimesAgree (options.map ReplyOption.pair)) ∧
    readIaNa (iaNaData iaid t1 t2 subs) = some ⟨t1, t2, subs.map ReplyOption.pair⟩ ∧
    parseDhcp6Reply (Dhcp6Packet.request mac xid serverDuid.1 iaid (some addr)).bytes =
      some (some (replyOf msgRequest xid (named addr 3600 7200 serverDuid))) := by
  refine ⟨isSome_parseDhcp6Reply buf, ?_, readIaNa_iaNaData iaid t1 t2 subs,
    parse_request mac xid iaid addr serverDuid⟩
  rw [parseDhcp6Reply_pushed, ← reports_said_iff _ msgType xid]
  constructor
  · rintro ⟨r, hr, -, -, hreports⟩
    cases hr
    exact hreports
  · exact fun hreports => ⟨_, rfl, rfl, rfl, hreports⟩

/-- A reply with an IA_NA that holds an address, and behind it one with other times and none. -/
def splitTimes : List ReplyOption := [
  ⟨optIaNa, iaNaData 1 10 20 [iaAddrOption ⟨Vector.replicate 16 0⟩ 3600 7200], by
    have haddr := length_iaAddrData ⟨Vector.replicate 16 0⟩ 3600 7200
    simp [iaNaData, WideTlv.encodeAll, WideTlv.encode, iaAddrOption, ReplyOption.pair, haddr,
      length_toBeBytes, length_toBeBytes16]⟩,
  ⟨optIaNa, iaNaData 2 999 9999 [], by simp [iaNaData, WideTlv.encodeAll, length_toBeBytes]⟩]

/-- The address comes back with the times of the IA_NA that does not hold it. -/
theorem times_from_other_iaNa :
    ¬ ∃ r, parseDhcp6Reply (withOptions 7 #v[1, 2, 3] splitTimes).bytes = some (some r) ∧
      r.msgType = 7 ∧ r.xid = #v[1, 2, 3] ∧ Reports (splitTimes.map ReplyOption.pair) r := by
  rintro ⟨r, hr, -, -, hreports⟩
  rw [parseDhcp6Reply_pushed] at hr
  cases hr
  have hagree := (reports_said_iff _ _ _).1 hreports
  let sub := iaAddrOption ⟨Vector.replicate 16 0⟩ 3600 7200
  have hfirst : holding (optIaNa, iaNaData 1 10 20 [sub]) = some ⟨10, 20, [sub.pair]⟩ := by
    have haddr : (IaNa.lastAddr ⟨10, 20, [sub.pair]⟩).isSome := by
      rw [lastAddr_iaAddrOption]
      rfl
    unfold holding
    rw [field_iaNaData]
    exact Option.filter_eq_some_iff.2 ⟨rfl, haddr⟩
  have hsecond : holding (optIaNa, iaNaData 2 999 9999 []) = none := by
    unfold holding
    rw [field_iaNaData]
    rfl
  have hholding : Tlv.last holding (splitTimes.map ReplyOption.pair) =
      some ⟨10, 20, [sub.pair]⟩ := by
    show Tlv.last holding ([(optIaNa, iaNaData 1 10 20 [sub])] ++
      [(optIaNa, iaNaData 2 999 9999 [])]) = _
    rw [Tlv.last_concat, hsecond, Option.none_or, ← List.nil_append [_], Tlv.last_concat, hfirst]
    rfl
  have hlast : Tlv.last (field optIaNa readIaNa) (splitTimes.map ReplyOption.pair) =
      some ⟨999, 9999, []⟩ := by
    show Tlv.last (field optIaNa readIaNa) ([(optIaNa, iaNaData 1 10 20 [sub])] ++
      [(optIaNa, iaNaData 2 999 9999 [])]) = _
    rw [Tlv.last_concat, field_iaNaData]
    rfl
  exact absurd (hagree _ _ hholding hlast).1 (by decide)

end Quantra.Dhcp6
