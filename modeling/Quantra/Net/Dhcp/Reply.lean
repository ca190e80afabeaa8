import Quantra.Net.Dhcp.Packet
import Mathlib.Tactic.SplitIfs

/-! The two parsers of server replies: `parse_reply` of `quantra-netd` and `parse_dhcp_reply` of
`quantra-ramfs`. An outer `none` is an index panic, an inner one a rejected reply. -/
namespace Quantra.Dhcp
open Quantra.Net

/-- `Ipv4Addr::new(data[j], data[j + 1], data[j + 2], data[j + 3])`. -/
def ipAt (data : List UInt8) (j : ℕ) : Option Ipv4Addr := do
  let a ← data[j]?
  let b ← data[j + 1]?
  let c ← data[j + 2]?
  let d ← data[j + 3]?
  some ⟨a, b, c, d⟩

def u32At (data : List UInt8) (j : ℕ) : Option UInt32 := do
  let a ← data[j]?
  let b ← data[j + 1]?
  let c ← data[j + 2]?
  let d ← data[j + 3]?
  some (Bytes.fromBeBytes a b c d)

/-- The inner loop of the DNS option, the same text in both parsers. -/
def pushServers (data : List UInt8) (len : ℕ) : ℕ → ℕ → List Ipv4Addr → Option (List Ipv4Addr)
  | 0, _, _ => none
  | fuel + 1, j, dns =>
    if j + 4 ≤ len then do
      let ip ← ipAt data j
      pushServers data len fuel (j + 4) (dns ++ [ip])
    else some dns

/-! `quantra-netd`. -/

structure DhcpReply where
  msgType : UInt8
  yourIp : Ipv4Addr
  serverIp : Ipv4Addr
  serverId : Ipv4Addr
  subnetMask : Ipv4Addr
  gateway : Option Ipv4Addr
  dns : List Ipv4Addr
  leaseSecs : UInt32
  xid : UInt32
  deriving DecidableEq, Repr

/-- The variables of the option loop of `parse_reply`. -/
structure ReplyVars where
  msgType : UInt8 := 0
  serverId : Ipv4Addr
  subnetMask : Ipv4Addr := ⟨255, 255, 255, 0⟩
  gateway : Option Ipv4Addr := none
  dns : List Ipv4Addr := []
  leaseSecs : UInt32 := 86400

/-- The `match` on the option code. -/
def ReplyVars.matchOption (v : ReplyVars) (code : UInt8) (data : List UInt8) :
    Option ReplyVars :=
  let len := data.length
  if code = optMsgType ∧ len ≥ 1 then do
    let msgType ← data[0]?
    some { v with msgType }
  else if code = optSubnetMask ∧ len ≥ 4 then do
    let subnetMask ← ipAt data 0
    some { v with subnetMask }
  else if code = optRouter ∧ len ≥ 4 then do
    let gateway ← ipAt data 0
    some { v with gateway := some gateway }
  else if code = optDns then do
    let dns ← pushServers data len (len + 1) 0 v.dns
    some { v with dns }
  else if code = optLeaseTime ∧ len ≥ 4 then do
    let leaseSecs ← u32At data 0
    some { v with leaseSecs }
  else if code = optServerId ∧ len ≥ 4 then do
    let serverId ← ipAt data 0
    some { v with serverId }
  else some v

/-- The option loop of `parse_reply`. -/
def replyLoop (buf : List UInt8) : ℕ → ℕ → ReplyVars → Option ReplyVars
  | 0, _, _ => none
  | fuel + 1, i, v =>
    if i < buf.length then do
      let code ← buf[i]?
      let i := i + 1
      if code = optEnd then some v
      else if code = optPad then replyLoop buf fuel i v
      else if i ≥ buf.length then some v
      else do
        let len ← buf[i]?
        let i := i + 1
        if i + len.toNat > buf.length then some v
        else do
          let data ← Bytes.slice buf i (i + len.toNat)
          let i := i + len.toNat
          let v ← v.matchOption code data
          replyLoop buf fuel i v
    else some v

def parseReply (buf : List UInt8) : Option (Option DhcpReply) :=
  if buf.length < 240 then some none
  else do
    let op ← buf[0]?
    if op ≠ opReply then some none
    else do
      let cookie ← Bytes.slice buf 236 240
      if cookie ≠ magicCookie then some none
      else do
        let xid ← u32At buf 4
        let yourIp ← ipAt buf 16
        let siaddr ← ipAt buf 20
        let v ← replyLoop buf (buf.length + 1) 240 { serverId := siaddr }
        if v.msgType = 0 then some none
        else some (some {
          msgType := v.msgType
          yourIp
          serverIp := siaddr
          serverId := v.serverId
          subnetMask := v.subnetMask
          gateway := v.gateway
          dns := v.dns
          leaseSecs := v.leaseSecs
          xid })

/-! `quantra-ramfs`. -/

structure DhcpLease where
  ip : Ipv4Addr
  subnetMask : Ipv4Addr
  gateway : Option Ipv4Addr
  dns : List Ipv4Addr
  leaseTimeSec : UInt32
  serverIp : Ipv4Addr
  iface : String
  deriving DecidableEq, Repr

/-- The variables of the option loop of `parse_dhcp_reply`. -/
structure LeaseVars where
  msgType : UInt8 := 0
  subnet : Ipv4Addr := ⟨255, 255, 255, 0⟩
  gateway : Option Ipv4Addr := none
  dns : List Ipv4Addr := []
  leaseTime : UInt32 := 86400
  serverId : Ipv4Addr := .unspecified

def LeaseVars.matchOption (v : LeaseVars) (opt : UInt8) (data : List UInt8) :
    Option LeaseVars :=
  let len := data.length
  if opt = optMsgType ∧ len ≥ 1 then do
    let msgType ← data[0]?
    some { v with msgType }
  else if opt = optSubnetMask ∧ len ≥ 4 then do
    let subnet ← ipAt data 0
    some { v with subnet }
  else if opt = optRouter ∧ len ≥ 4 then do
    let gateway ← ipAt data 0
    some { v with gateway := some gateway }
  else if opt = optDns then do
    let dns ← pushServers data len (len + 1) 0 v.dns
    some { v with dns }
  else if opt = optLeaseTime ∧ len ≥ 4 then do
    let leaseTime ← u32At data 0
    some { v with leaseTime }
  else if opt = optServerId ∧ len ≥ 4 then do
    let serverId ← ipAt data 0
    some { v with serverId }
  else some v

/-- The option loop of `parse_dhcp_reply`. -/
def leaseLoop (buf : List UInt8) : ℕ → ℕ → LeaseVars → Option LeaseVars
  | 0, _, _ => none
  | fuel + 1, i, v =>
    if i < buf.length then do
      let opt ← buf[i]?
      let i := i + 1
      if opt = optEnd then some v
      else if opt = 0 then leaseLoop buf fuel i v
      else if i ≥ buf.length then some v
      else do
        let len ← buf[i]?
        let i := i + 1
        if i + len.toNat > buf.length then some v
        else do
          let data ← Bytes.slice buf i (i + len.toNat)
          let i := i + len.toNat
          let v ← v.matchOption opt data
          leaseLoop buf fuel i v
    else some v

def parseDhcpReply (buf : List UInt8) (xid : UInt32) (iface : String) (expectedType : UInt8) :
    Option (Option DhcpLease) :=
  if buf.length < 240 then some none
  else do
    let op ← buf[0]?
    if op ≠ opReply then some none
    else do
      let rxXid ← u32At buf 4
      if rxXid ≠ xid then some none
      else do
        let yourIp ← ipAt buf 16
        let cookie ← Bytes.slice buf 236 240
        if cookie ≠ magicCookie then some none
        else do
          let v ← leaseLoop buf (buf.length + 1) 240 {}
          if v.msgType ≠ expectedType then some none
          else some (some {
            ip := yourIp
            subnetMask := v.subnet
            gateway := v.gateway
            dns := v.dns
            leaseTimeSec := v.leaseTime
            serverIp := v.serverId
            iface })

/-! Both loops read the same options. -/

theorem replyLoop_eq_walk {buf : List UInt8} {fuel i : ℕ} {v : ReplyVars} :
    replyLoop buf fuel i v = Tlv.walk optPad optEnd ReplyVars.matchOption buf fuel i v := by
  induction fuel generalizing i v with
  | zero => rfl
  | succ fuel ih =>
    unfold replyLoop Tlv.walk
    simp only [ih]

theorem leaseLoop_eq_walk {buf : List UInt8} {fuel i : ℕ} {v : LeaseVars} :
    leaseLoop buf fuel i v = Tlv.walk optPad optEnd LeaseVars.matchOption buf fuel i v := by
  induction fuel generalizing i v with
  | zero => rfl
  | succ fuel ih =>
    unfold leaseLoop Tlv.walk
    simp only [ih]
    rfl

theorem exists_ipAt {data : List UInt8} {j : ℕ} (h : j + 4 ≤ data.length) :
    ∃ ip, ipAt data j = some ip := by
  unfold ipAt
  rw [List.getElem?_eq_getElem (by omega), List.getElem?_eq_getElem (by omega),
    List.getElem?_eq_getElem (by omega), List.getElem?_eq_getElem (by omega)]
  exact ⟨_, rfl⟩

theorem exists_u32At {data : List UInt8} {j : ℕ} (h : j + 4 ≤ data.length) :
    ∃ n, u32At data j = some n := by
  unfold u32At
  rw [List.getElem?_eq_getElem (by omega), List.getElem?_eq_getElem (by omega),
    List.getElem?_eq_getElem (by omega), List.getElem?_eq_getElem (by omega)]
  exact ⟨_, rfl⟩

theorem exists_pushServers {data : List UInt8} {len fuel j : ℕ} {dns : List Ipv4Addr}
    (hlen : len ≤ data.length) (hfuel : len - j < fuel) :
    ∃ servers, pushServers data len fuel j dns = some servers := by
  induction fuel generalizing j dns with
  | zero => omega
  | succ fuel ih =>
    unfold pushServers
    by_cases hnext : j + 4 ≤ len
    · obtain ⟨ip, hip⟩ : ∃ ip, ipAt data j = some ip := exists_ipAt (by omega)
      rw [if_pos hnext, hip]
      exact ih (by omega)
    · rw [if_neg hnext]
      exact ⟨dns, rfl⟩

/-- The server identifier is given by an option of four bytes or more. -/
def HasServerId (options : List (UInt8 × List UInt8)) : Prop :=
  ∃ data, (optServerId, data) ∈ options ∧ 4 ≤ data.length

/-- The two sets of variables after the same options. -/
structure VarsAgree (options : List (UInt8 × List UInt8)) (n : ReplyVars) (r : LeaseVars) :
    Prop where
  msgType : r.msgType = n.msgType
  subnet : r.subnet = n.subnetMask
  gateway : r.gateway = n.gateway
  dns : r.dns = n.dns
  lease : r.leaseTime = n.leaseSecs
  serverId : HasServerId options → r.serverId = n.serverId

theorem hasServerId_append {options : List (UInt8 × List UInt8)} {code : UInt8}
    {data : List UInt8} : HasServerId (options ++ [(code, data)]) ↔
      HasServerId options ∨ (code = optServerId ∧ data.length ≥ 4) := by
  unfold HasServerId
  simp only [List.mem_append, List.mem_singleton, Prod.mk.injEq]
  constructor
  · intro ⟨d, hd, hlen⟩
    cases hd with
    | inl hd => exact .inl ⟨d, hd, hlen⟩
    | inr hd => exact .inr ⟨hd.1.symm, hd.2 ▸ hlen⟩
  · intro h
    cases h with
    | inl h => exact h.imp fun d hd => ⟨.inl hd.1, hd.2⟩
    | inr h => exact ⟨data, .inr ⟨h.1.symm, rfl⟩, h.2⟩

/-- One more option keeps the variables in agreement. -/
theorem VarsAgree.matchOption {options : List (UInt8 × List UInt8)} {n : ReplyVars}
    {r : LeaseVars} (h : VarsAgree options n r) (code : UInt8) (data : List UInt8) :
    ∃ n' r', n.matchOption code data = some n' ∧ r.matchOption code data = some r' ∧
      VarsAgree (options ++ [(code, data)]) n' r' := by
  have hkeep : ¬ (code = optServerId ∧ data.length ≥ 4) →
      HasServerId (options ++ [(code, data)]) → r.serverId = n.serverId := by
    intro hno hhas
    exact h.serverId ((hasServerId_append.1 hhas).resolve_right hno)
  have hother : ∀ {c : UInt8}, code = c → c ≠ optServerId →
      ¬ (code = optServerId ∧ data.length ≥ 4) := by
    intro c hc hne hserver
    exact hne (hc.symm.trans hserver.1)
  unfold ReplyVars.matchOption LeaseVars.matchOption
  by_cases hmsg : code = optMsgType ∧ data.length ≥ 1
  · have hbyte : data[0]? = some data[0] := List.getElem?_eq_getElem (by omega)
    rw [if_pos hmsg, if_pos hmsg, hbyte]
    exact ⟨_, _, rfl, rfl, rfl, h.subnet, h.gateway, h.dns, h.lease,
      hkeep (hother hmsg.1 (by decide))⟩
  rw [if_neg hmsg, if_neg hmsg]
  by_cases hmask : code = optSubnetMask ∧ data.length ≥ 4
  · obtain ⟨mask, hread⟩ : ∃ ip, ipAt data 0 = some ip := exists_ipAt hmask.2
    rw [if_pos hmask, if_pos hmask, hread]
    exact ⟨_, _, rfl, rfl, h.msgType, rfl, h.gateway, h.dns, h.lease,
      hkeep (hother hmask.1 (by decide))⟩
  rw [if_neg hmask, if_neg hmask]
  by_cases hrouter : code = optRouter ∧ data.length ≥ 4
  · obtain ⟨router, hread⟩ : ∃ ip, ipAt data 0 = some ip := exists_ipAt hrouter.2
    rw [if_pos hrouter, if_pos hrouter, hread]
    exact ⟨_, _, rfl, rfl, h.msgType, h.subnet, rfl, h.dns, h.lease,
      hkeep (hother hrouter.1 (by decide))⟩
  rw [if_neg hrouter, if_neg hrouter]
  by_cases hdns : code = optDns
  · obtain ⟨servers, hread⟩ : ∃ servers,
        pushServers data data.length (data.length + 1) 0 n.dns = some servers :=
      exists_pushServers (Nat.le_refl _) (by omega)
    rw [if_pos hdns, if_pos hdns, h.dns, hread]
    exact ⟨_, _, rfl, rfl, h.msgType, h.subnet, h.gateway, rfl, h.lease,
      hkeep (hother hdns (by decide))⟩
  rw [if_neg hdns, if_neg hdns]
  by_cases hlease : code = optLeaseTime ∧ data.length ≥ 4
  · obtain ⟨secs, hread⟩ : ∃ n, u32At data 0 = some n := exists_u32At hlease.2
    rw [if_pos hlease, if_pos hlease, hread]
    exact ⟨_, _, rfl, rfl, h.msgType, h.subnet, h.gateway, h.dns, rfl,
      hkeep (hother hlease.1 (by decide))⟩
  rw [if_neg hlease, if_neg hlease]
  by_cases hserver : code = optServerId ∧ data.length ≥ 4
  · obtain ⟨server, hread⟩ : ∃ ip, ipAt data 0 = some ip := exists_ipAt hserver.2
    rw [if_pos hserver, if_pos hserver, hread]
    exact ⟨_, _, rfl, rfl, h.msgType, h.subnet, h.gateway, h.dns, h.lease, fun _ => rfl⟩
  rw [if_neg hserver, if_neg hserver]
  exact ⟨_, _, rfl, rfl, h.msgType, h.subnet, h.gateway, h.dns, h.lease, hkeep hserver⟩

/-- Both loops run through and agree. -/
theorem VarsAgree.foldlM {n : ReplyVars} {r : LeaseVars} {done : List (UInt8 × List UInt8)}
    (h : VarsAgree done n r) (options : List (UInt8 × List UInt8)) :
    ∃ n' r', options.foldlM (fun v o => v.matchOption o.1 o.2) n = some n' ∧
      options.foldlM (fun v o => v.matchOption o.1 o.2) r = some r' ∧
      VarsAgree (done ++ options) n' r' := by
  induction options generalizing done n r with
  | nil => exact ⟨n, r, rfl, rfl, by rwa [List.append_nil]⟩
  | cons o options ih =>
    obtain ⟨n₁, r₁, hn, hr, hagree⟩ := h.matchOption o.1 o.2
    obtain ⟨n₂, r₂, hn₂, hr₂, hagree₂⟩ := ih hagree
    rw [List.append_assoc, List.singleton_append] at hagree₂
    refine ⟨n₂, r₂, ?_, ?_, hagree₂⟩
    · rw [List.foldlM_cons, hn]
      exact hn₂
    · rw [List.foldlM_cons, hr]
      exact hr₂

theorem loops_agree (buf : List UInt8) (siaddr : Ipv4Addr) :
    ∃ n r, replyLoop buf (buf.length + 1) 240 { serverId := siaddr } = some n ∧
      leaseLoop buf (buf.length + 1) 240 {} = some r ∧ VarsAgree (optionsOf buf) n r := by
  have hstart : VarsAgree [] { serverId := siaddr } {} := by
    refine ⟨rfl, rfl, rfl, rfl, rfl, fun hno => ?_⟩
    obtain ⟨data, hmem, -⟩ := hno
    cases hmem
  obtain ⟨n, r, hn, hr, hagree⟩ := hstart.foldlM (optionsOf buf)
  refine ⟨n, r, ?_, ?_, hagree⟩
  · rw [replyLoop_eq_walk, Tlv.walk_eq_foldlM (by omega)]
    exact hn
  · rw [leaseLoop_eq_walk, Tlv.walk_eq_foldlM (by omega)]
    exact hr

/-- A reply header: the operation and the cookie. -/
def IsReply (buf : List UInt8) : Prop :=
  240 ≤ buf.length ∧ buf[0]? = some opReply ∧ (buf.drop 236).take 4 = magicCookie

instance (buf : List UInt8) : Decidable (IsReply buf) := inferInstanceAs (Decidable (_ ∧ _))

/-- The lease of one parser says what the reply of the other says; of the server identifier only
where option 54 is there with its four bytes. -/
structure SameLease (buf : List UInt8) (r : DhcpReply) (l : DhcpLease) : Prop where
  ip : l.ip = r.yourIp
  subnetMask : l.subnetMask = r.subnetMask
  gateway : l.gateway = r.gateway
  dns : l.dns = r.dns
  lease : l.leaseTimeSec = r.leaseSecs
  server : HasServerId (optionsOf buf) → l.serverIp = r.serverId

/-- Neither parser panics, and they differ only in the header fields and the message type that
they insist on. -/
theorem parsers_eq {buf : List UInt8} (hlen : 240 ≤ buf.length) :
    ∃ (r : DhcpReply) (l : String → DhcpLease), (∀ iface, SameLease buf r (l iface)) ∧
      parseReply buf = some (if IsReply buf ∧ r.msgType ≠ 0 then some r else none) ∧
      ∀ xid iface expected, parseDhcpReply buf xid iface expected =
        some (if IsReply buf ∧ r.xid = xid ∧ r.msgType = expected then some (l iface)
          else none) := by
  obtain ⟨x, hx⟩ : ∃ x, u32At buf 4 = some x := exists_u32At (by omega)
  obtain ⟨ip, hip⟩ : ∃ ip, ipAt buf 16 = some ip := exists_ipAt (by omega)
  obtain ⟨siaddr, hsiaddr⟩ : ∃ ip, ipAt buf 20 = some ip := exists_ipAt (by omega)
  obtain ⟨n, v, hn, hv, hagree⟩ := loops_agree buf siaddr
  have hop : buf[0]? = some buf[0] := List.getElem?_eq_getElem (by omega)
  have hcookie : Bytes.slice buf 236 240 = some ((buf.drop 236).take 4) :=
    Bytes.slice_eq (by omega) hlen
  have hreply : IsReply buf ↔ buf[0] = opReply ∧ (buf.drop 236).take 4 = magicCookie := by
    unfold IsReply
    rw [hop, Option.some.injEq]
    exact ⟨fun h => h.2, fun h => ⟨hlen, h⟩⟩
  refine ⟨⟨n.msgType, ip, siaddr, n.serverId, n.subnetMask, n.gateway, n.dns, n.leaseSecs, x⟩,
    fun iface => ⟨ip, v.subnet, v.gateway, v.dns, v.leaseTime, v.serverId, iface⟩, fun iface =>
    ⟨rfl, hagree.subnet, hagree.gateway, hagree.dns, hagree.lease, hagree.serverId⟩, ?_,
    fun xid iface expected => ?_⟩
  · unfold parseReply
    rw [if_neg (by omega), hop, hcookie, hx, hip, hsiaddr]
    simp only [Option.bind_eq_bind, Option.bind_some, hn, hreply]
    by_cases h0 : buf[0] = opReply <;> by_cases hc : (buf.drop 236).take 4 = magicCookie <;>
      by_cases ht : n.msgType = 0 <;> simp [h0, hc, ht]
  · unfold parseDhcpReply
    rw [if_neg (by omega), hop, hcookie, hx, hip, hv]
    simp only [Option.bind_eq_bind, Option.bind_some, hreply, hagree.msgType]
    by_cases h0 : buf[0] = opReply <;> by_cases hc : (buf.drop 236).take 4 = magicCookie <;>
      by_cases hxid : x = xid <;> by_cases ht : n.msgType = expected <;> simp [h0, hc, hxid, ht]

theorem parse_of_short {buf : List UInt8} (hlen : buf.length < 240) :
    parseReply buf = some none ∧
      ∀ xid iface expected, parseDhcpReply buf xid iface expected = some none := by
  constructor
  · unfold parseReply
    rw [if_pos hlen]
  · intro xid iface expected
    unfold parseDhcpReply
    rw [if_pos hlen]

/-- `recv_matching` of `quantra-netd` takes the buffer as the reply `r` it waits for. -/
def Accepts (buf : List UInt8) (xid : UInt32) (expected : UInt8) (r : DhcpReply) : Prop :=
  parseReply buf = some (some r) ∧ r.xid = xid ∧ r.msgType = expected

private theorem some_ite_eq {α : Type} {c : Prop} [Decidable c] {a b : α} :
    some (if c then some a else none) = some (some b) ↔ c ∧ a = b := by
  by_cases hc : c <;> simp [hc]

/-- For every message type but 0, which only one of them tells from a missing type, the two
clients accept the same buffers and read the same lease from them. Neither indexes outside the
buffer. -/
theorem clients_agree (buf : List UInt8) (xid : UInt32) (iface : String) (expected : UInt8)
    (hexpected : expected ≠ 0) :
    ((parseReply buf).isSome ∧ (parseDhcpReply buf xid iface expected).isSome) ∧
    ((∃ r, Accepts buf xid expected r) ↔
      ∃ l, parseDhcpReply buf xid iface expected = some (some l)) ∧
    ∀ r l, Accepts buf xid expected r → parseDhcpReply buf xid iface expected = some (some l) →
      SameLease buf r l := by
  unfold Accepts
  by_cases hlen : buf.length < 240
  · obtain ⟨hnetd, hramfs⟩ := parse_of_short hlen
    rw [hnetd, hramfs]
    simp
  · obtain ⟨r, l, hsame, hnetd, hramfs⟩ := parsers_eq (Nat.le_of_not_lt hlen)
    rw [hnetd, hramfs]
    simp only [some_ite_eq]
    refine ⟨⟨rfl, rfl⟩, ⟨?_, ?_⟩, ?_⟩
    · intro ⟨r', ⟨hok, heq⟩, hxid, htype⟩
      subst heq
      exact ⟨l iface, ⟨hok.1, hxid, htype⟩, rfl⟩
    · intro ⟨l', hok, _⟩
      exact ⟨r, ⟨⟨hok.1, hok.2.2 ▸ hexpected⟩, rfl⟩, hok.2⟩
    · intro r' l' hr' hl'
      rw [← hr'.1.2, ← hl'.2]
      exact hsame iface

/-- A reply with the given options after an otherwise empty header. -/
def replyBytes (siaddr : Ipv4Addr) (options : List UInt8) : List UInt8 :=
  [opReply] ++ List.replicate 19 0 ++ siaddr.octets ++ List.replicate 212 0 ++ magicCookie ++
    options

private theorem exists_lease {buf : List UInt8} {expected : UInt8}
    (h : ((parseDhcpReply buf 0 "eth0" expected).bind id).isSome) :
    ∃ l, parseDhcpReply buf 0 "eth0" expected = some (some l) := by
  obtain ⟨l, hl⟩ := Option.isSome_iff_exists.1 h
  obtain ⟨lease, hlease, heq⟩ := Option.bind_eq_some_iff.1 hl
  exact ⟨l, heq ▸ hlease⟩

theorem clients_agree_on_ack :
    let buf := replyBytes ⟨10, 0, 0, 2⟩ [53, 1, 5, 54, 4, 10, 0, 0, 1, 255]
    ∃ r l, Accepts buf 0 msgAck r ∧ parseDhcpReply buf 0 "eth0" msgAck = some (some l) ∧
      l.serverIp = r.serverId := by
  intro buf
  obtain ⟨-, hiff, hsame⟩ := clients_agree buf 0 "eth0" msgAck (by decide)
  obtain ⟨l, hl⟩ : ∃ l, parseDhcpReply buf 0 "eth0" msgAck = some (some l) :=
    exists_lease (by decide +kernel)
  obtain ⟨r, hr⟩ := hiff.2 ⟨l, hl⟩
  have hserver : HasServerId (optionsOf buf) := ⟨[10, 0, 0, 1], by decide +kernel, by decide⟩
  exact ⟨r, l, hr, hl, (hsame r l hr hl).server hserver⟩

/-- A reply without a message type. -/
def untypedReply : List UInt8 := replyBytes ⟨10, 0, 0, 2⟩ [255]

/-- An ACK whose server identifier is cut short. -/
def shortServerIdReply : List UInt8 := replyBytes ⟨10, 0, 0, 2⟩ [53, 1, 5, 54, 1, 10, 255]

/-- Where the message type is missing, the expected type 0 is accepted by one client only; and a
server identifier that is cut short is `siaddr` for one client and `0.0.0.0` for the other. -/
theorem clients_disagree :
    ((¬ ∃ r, Accepts untypedReply 0 0 r) ∧
      ∃ l, parseDhcpReply untypedReply 0 "eth0" 0 = some (some l)) ∧
    (optServerId, [10]) ∈ optionsOf shortServerIdReply ∧
    ∃ r l, Accepts shortServerIdReply 0 msgAck r ∧
      parseDhcpReply shortServerIdReply 0 "eth0" msgAck = some (some l) ∧
      r.serverId = ⟨10, 0, 0, 2⟩ ∧ l.serverIp = .unspecified := by
  refine ⟨⟨?_, exists_lease (by decide +kernel)⟩, by decide +kernel, ?_⟩
  · intro ⟨r, hr, _⟩
    have hnone : parseReply untypedReply = some none := by decide +kernel
    rw [hnone] at hr
    cases hr
  · have hnetd : parseReply shortServerIdReply = some (some ⟨msgAck, .unspecified,
        ⟨10, 0, 0, 2⟩, ⟨10, 0, 0, 2⟩, ⟨255, 255, 255, 0⟩, none, [], 86400, 0⟩) := by
      decide +kernel
    have hramfs : parseDhcpReply shortServerIdReply 0 "eth0" msgAck = some (some ⟨.unspecified,
        ⟨255, 255, 255, 0⟩, none, [], 86400, .unspecified, "eth0"⟩) := by
      decide +kernel
    exact ⟨_, _, ⟨hnetd, rfl, rfl⟩, hramfs, rfl, rfl⟩

end Quantra.Dhcp
