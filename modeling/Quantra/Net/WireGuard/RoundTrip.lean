import Quantra.Net.WireGuard.Grammar

/-! What the reader makes of the message that is sent. -/
namespace Quantra.WireGuard
open Bytes Nla

section Read
variable {nums : PeerNumbers} {p : Peer} {dev : Device} {data : List UInt8}

/-! What is written is as long as it is counted. -/

theorem length_sockaddr_v4 (ip : Vector UInt8 4) (port : UInt16) :
    (sockaddr (.v4 ip port)).length = 16 := by
  have hip : ip.toList.length = 4 := ip.length_toList
  simp only [sockaddr, toBeBytes16, List.length_append, List.length_cons, List.length_nil,
    List.length_replicate, hip]

theorem length_sockaddr_v6 (ip : Vector UInt8 16) (port : UInt16) (flowinfo scopeId : UInt32) :
    (sockaddr (.v6 ip port flowinfo scopeId)).length = 28 := by
  have hip : ip.toList.length = 16 := ip.length_toList
  simp only [sockaddr, toBeBytes16, List.length_append, List.length_cons, List.length_nil,
    List.length_replicate, hip]

theorem length_sockaddr (addr : SocketAddr) :
    4 + align (sockaddr addr).length = endpointSize addr := by
  cases addr with
  | v4 ip port =>
    rw [length_sockaddr_v4]
    rfl
  | v6 ip port flowinfo scopeId =>
    rw [length_sockaddr_v6]
    rfl

theorem length_allowedIpNla (ip : AllowedIp) :
    4 + align (allowedIpNla ip).length = allowedIpSize ip := by
  unfold allowedIpNla allowedIpSize
  cases ip.ip with
  | v4 octets =>
    have hip : octets.toList.length = 4 := octets.length_toList
    simp only [List.length_append, length_leBytes, List.length_cons, List.length_nil, hip]
    rfl
  | v6 octets =>
    have hip : octets.toList.length = 16 := octets.length_toList
    simp only [List.length_append, length_leBytes, List.length_cons, List.length_nil, hip]
    rfl

theorem length_peerAttrs (p : Peer) : 4 + (encode (peerAttrs p)).length = peerSize p := by
  have hkey : p.publicKey.toList.length = 32 := p.publicKey.length_toList
  have hips : ((p.allowedIps.map fun ip => (⟨(wgpeerAAllowedips ||| nlaFNested).toNat,
      allowedIpNla ip⟩ : Attr)).map cost).sum = (p.allowedIps.map allowedIpSize).sum := by
    rw [List.map_map]
    exact congrArg List.sum (List.map_congr_left fun ip _ => length_allowedIpNla ip)
  have hendpoint : ((p.endpoint.map fun addr => (⟨wgpeerAEndpoint.toNat,
      sockaddr addr⟩ : Attr)).toList.map cost).sum = p.endpoint.elim 0 endpointSize := by
    cases p.endpoint with
    | none => rfl
    | some addr => exact (Nat.add_zero _).trans (length_sockaddr addr)
  have hkeepalive : ((p.persistentKeepalive.map fun ka => (⟨wgpeerAPersistentKeepalive.toNat,
      leBytes 2 ka.toNat⟩ : Attr)).toList.map cost).sum =
      p.persistentKeepalive.elim 0 fun _ => 8 := by
    cases p.persistentKeepalive with
    | none => rfl
    | some ka =>
      rw [Option.map_some, Option.toList_some, List.map_singleton, List.sum_singleton, cost,
        length_leBytes]
      rfl
  rw [length_encode, peerAttrs]
  simp only [List.map_append, List.sum_append, hips, hendpoint, hkeepalive, List.map_singleton,
    List.sum_singleton, cost, hkey, peerSize]
  have halign : align 32 = 32 := rfl
  omega

theorem length_peerElements (ps : List Peer) (idx : ℕ) :
    (encode (peerElements ps idx)).length = (ps.map peerSize).sum := by
  rw [length_encode]
  induction ps generalizing idx with
  | nil => rfl
  | cons p ps ih =>
    rw [List.map_cons, List.sum_cons, ← ih (idx + 1), ← length_peerAttrs]
    refine (List.sum_cons).trans (congrArg (· + _) ?_)
    exact congrArg (4 + ·) align_length_encode

/-! Reading what was written. -/

theorem readCString_name {name : List UInt8} (h : 0 ∉ name) :
    readCString (name ++ [0]) = some name := by
  have hzero : (name ++ [0]).contains 0 := List.contains_iff_mem.2 (by simp)
  have hall : ∀ b ∈ name, decide (b ≠ 0) = true :=
    fun b hb => decide_eq_true fun heq => h (heq ▸ hb)
  rw [readCString, if_pos hzero, List.takeWhile_append_of_pos hall]
  exact congrArg some (List.append_nil name)

theorem readVector_toList {n : ℕ} (v : Vector UInt8 n) : readVector n v.toList = some v := by
  rw [readVector, dif_pos v.length_toList]
  rfl

theorem readU16_leBytes (v : UInt16) : readU16 (leBytes 2 v.toNat) = some v := by
  have hlt : v.toNat < 256 ^ 2 := v.toNat_lt
  rw [readU16, if_pos (length_leBytes _ _), leValue_leBytes, Nat.mod_eq_of_lt hlt,
    UInt16.ofNat_toNat]

/-- The types as the reader sees them. -/
def typed (l : List Attr) : List Attr := l.map fun a => ⟨typeOf a.type, a.data⟩

theorem find_deviceAttrs (dev : Device) :
    find 2 (typed (deviceAttrs dev)) = some (dev.name ++ [0]) ∧
      find 3 (typed (deviceAttrs dev)) = some dev.privateKey.toList ∧
      find 6 (typed (deviceAttrs dev)) =
        (if dev.listenPort > 0 then some (leBytes 2 dev.listenPort.toNat) else none) ∧
      find 5 (typed (deviceAttrs dev)) =
        (if dev.replacePeers then some (leBytes 4 wgdeviceFReplacePeers.toNat) else none) ∧
      find 8 (typed (deviceAttrs dev)) =
        (if dev.peers.isEmpty then none else some (encode (peerElements dev.peers 0))) := by
  have hpeers : typeOf (wgdeviceAPeers ||| nlaFNested).toNat = 8 := by decide
  unfold deviceAttrs headAttrs
  by_cases hport : dev.listenPort > 0 <;> simp only [hport, if_true, if_false]
  all_goals
    cases dev.peers with
    | nil => cases dev.replacePeers <;> exact ⟨rfl, rfl, rfl, rfl, rfl⟩
    | cons p ps =>
      simp only [typed, List.isEmpty_cons, Bool.false_eq_true, if_false, List.map_append,
        List.map_cons, List.map_nil, hpeers]
      cases dev.replacePeers <;> exact ⟨rfl, rfl, rfl, rfl, rfl⟩

/-- The list of peers as it is read. -/
def readPeers (nums : PeerNumbers) (ps : List Peer) : Option (List Peer) :=
  ps.mapM fun p => readPeer nums (encode (peerAttrs p))

theorem nested_peerElements {ps : List Peer} (idx : ℕ)
    (h : (ps.map peerSize).sum + 4 < 2 ^ 16) :
    nested (readPeer nums) (encode (peerElements ps idx)) = readPeers nums ps := by
  have hall : ∀ a ∈ peerElements ps idx, a.data.length + 4 < 2 ^ 16 := by
    rw [← length_peerElements ps idx] at h
    intro a ha
    have hle := length_le_encode ha
    omega
  have hfst : readPeers nums ps =
      ((ps.zipIdx idx).map Prod.fst).mapM fun p => readPeer nums (encode (peerAttrs p)) := by
    rw [List.zipIdx_map_fst]
    rfl
  rw [nested, attrs_encode hall, hfst, List.mapM_map]
  change (List.map _ (List.map _ _)).mapM _ = _
  rw [List.mapM_map, List.mapM_map]
  rfl

/-- The lengths that a message has room for, and a name that a NUL can end. -/
structure Fits (dev : Device) : Prop where
  name : 0 ∉ dev.name
  length_name : dev.name.length + 5 < 2 ^ 16
  length_peers : (dev.peers.map peerSize).sum + 4 < 2 ^ 16

theorem getD_listenPort (port : UInt16) : (if port > 0 then some port else none).getD 0 = port := by
  by_cases hpos : port > 0
  · rw [if_pos hpos]
    rfl
  · rw [if_neg hpos]
    exact (UInt16.le_zero_iff.1 (UInt16.not_lt.1 hpos)).symm

theorem readFlags (replacePeers : Bool) :
    (optional readU32 (if replacePeers then some (leBytes 4 wgdeviceFReplacePeers.toNat)
      else none)).map (·.any (· &&& 1 ≠ 0)) = some replacePeers := by
  cases replacePeers <;> decide

theorem readDeviceAttrs_eq (h : Fits dev) :
    readDeviceAttrs nums (typed (deviceAttrs dev)) =
      (readPeers nums dev.peers).map fun ps => { dev with peers := ps } := by
  obtain ⟨hname, hkey, hport, hflags, hpeers⟩ := find_deviceAttrs dev
  have hlisten : optional readU16 (if dev.listenPort > 0 then some (leBytes 2 dev.listenPort.toNat)
      else none) = some (if dev.listenPort > 0 then some dev.listenPort else none) := by
    by_cases hpos : dev.listenPort > 0
    · rw [if_pos hpos, if_pos hpos, optional, readU16_leBytes]
      rfl
    · rw [if_neg hpos, if_neg hpos]
      rfl
  obtain ⟨flags, hflags', hreplace⟩ := Option.map_eq_some_iff.1 (readFlags dev.replacePeers)
  have hread : (optional (nested (readPeer nums)) (if dev.peers.isEmpty then none
      else some (encode (peerElements dev.peers 0)))).map (·.getD []) =
      readPeers nums dev.peers := by
    cases hps : dev.peers with
    | nil => rfl
    | cons p ps =>
      have hlength := h.length_peers
      rw [hps] at hlength
      rw [List.isEmpty_cons, if_neg Bool.false_ne_true, optional, nested_peerElements 0 hlength]
      cases readPeers nums (p :: ps) <;> rfl
  unfold readDeviceAttrs
  rw [hname, hkey, hport, hflags, hpeers, hlisten, hflags', ← hread]
  simp only [Option.bind_eq_bind, Option.bind_some, readCString_name h.name, readVector_toList,
    getD_listenPort, hreplace]
  cases optional (nested (readPeer nums)) (if dev.peers.isEmpty then none
    else some (encode (peerElements dev.peers 0))) <;> rfl

theorem length_message (familyId : UInt16) (dev : Device) :
    (message familyId dev).length = 20 + (encode (deviceAttrs dev)).length := by
  have hhead : (pushGenl (newMsg familyId nlmFlags 2) wgCmdSetDevice).length = 20 := rfl
  rw [message, finish, List.length_append, length_leBytes, List.length_drop, List.length_append,
    hhead]
  omega

theorem take_message (familyId : UInt16) (dev : Device) :
    leValue ((message familyId dev).take 4) = (message familyId dev).length % 256 ^ 4 := by
  have hhead : (pushGenl (newMsg familyId nlmFlags 2) wgCmdSetDevice).length = 20 := rfl
  rw [length_message, message, finish, List.take_left' (length_leBytes _ _), leValue_leBytes,
    List.length_append, hhead]

theorem drop_message (familyId : UInt16) (dev : Device) :
    ((message familyId dev).drop 16).take 1 = [wgCmdSetDevice] ∧
      (message familyId dev).drop 20 = encode (deviceAttrs dev) := by
  unfold message finish
  exact ⟨rfl, rfl⟩

theorem eq_of_mem_ite {c : Prop} [Decidable c] {a b : Attr} (h : a ∈ if c then [b] else []) :
    a = b := by
  by_cases hc : c
  · rw [if_pos hc] at h
    exact List.mem_singleton.1 h
  · rw [if_neg hc] at h
    cases h

theorem eq_of_mem_ite_not {c : Prop} [Decidable c] {a b : Attr} (h : a ∈ if c then [] else [b]) :
    a = b := by
  by_cases hc : c
  · rw [if_pos hc] at h
    cases h
  · rw [if_neg hc] at h
    exact List.mem_singleton.1 h

theorem length_deviceAttrs (h : Fits dev) {a : Attr} (ha : a ∈ deviceAttrs dev) :
    a.data.length + 4 < 2 ^ 16 := by
  have hkey : dev.privateKey.toList.length = 32 := dev.privateKey.length_toList
  have hname := h.length_name
  have hpeers := h.length_peers
  rw [← length_peerElements dev.peers 0] at hpeers
  rw [deviceAttrs, headAttrs, List.mem_append, List.mem_append, List.mem_append] at ha
  rcases ha with ((ha | ha) | ha) | ha
  · rcases List.mem_pair.1 ha with rfl | rfl
    · rw [List.length_append, List.length_singleton]
      omega
    · rw [hkey]
      decide
  · rw [eq_of_mem_ite ha, length_leBytes]
    decide
  · rw [eq_of_mem_ite ha, length_leBytes]
    decide
  · rw [eq_of_mem_ite_not ha]
    exact hpeers

theorem length_encode_lt (h : Fits dev) : 20 + (encode (deviceAttrs dev)).length < 256 ^ 4 := by
  have hcost : ∀ a ∈ deviceAttrs dev, cost a ≤ 2 ^ 17 := by
    intro a ha
    have hlen := length_deviceAttrs h ha
    unfold cost align
    omega
  have hlen : (deviceAttrs dev).length ≤ 5 := by
    unfold deviceAttrs headAttrs
    by_cases hport : dev.listenPort > 0 <;> simp only [hport, if_true, if_false]
    all_goals cases dev.replacePeers <;> cases dev.peers <;> simp
  have hle := length_encode_le hcost
  omega

theorem readDevice_message (familyId : UInt16) (h : Fits dev) :
    readDevice nums (message familyId dev) =
      (readPeers nums dev.peers).map fun ps => { dev with peers := ps } := by
  have hlength := take_message familyId dev
  obtain ⟨hcmd, hattrs⟩ := drop_message familyId dev
  rw [Nat.mod_eq_of_lt (length_message familyId dev ▸ length_encode_lt h)] at hlength
  rw [← readDeviceAttrs_eq h, readDevice, if_pos ⟨hlength, hcmd⟩, hattrs,
    attrs_encode fun a ha => length_deviceAttrs h ha]
  rfl

/-- Only what fits can come back. -/
theorem fits_of_readDevice {bytes : List UInt8} (h : readDevice nums bytes = some dev) :
    Fits dev := by
  unfold readDevice at h
  by_cases hhead : leValue (bytes.take 4) = bytes.length ∧
      (bytes.drop 16).take 1 = [wgCmdSetDevice]
  · rw [if_pos hhead] at h
    obtain ⟨l, hl, h⟩ := Option.bind_eq_some_iff.1 h
    obtain ⟨name, hname, h⟩ := Option.bind_eq_some_iff.1 h
    obtain ⟨key, -, h⟩ := Option.bind_eq_some_iff.1 h
    obtain ⟨port, -, h⟩ := Option.bind_eq_some_iff.1 h
    obtain ⟨flags, -, h⟩ := Option.bind_eq_some_iff.1 h
    obtain ⟨peers, hpeers, h⟩ := Option.bind_eq_some_iff.1 h
    cases h
    obtain ⟨d, hd, hname⟩ := Option.bind_eq_some_iff.1 hname
    obtain ⟨hzero, hlen⟩ := readCString_spec hname
    have hd' := (cost_attrs hl).2 _ (mem_of_find hd)
    refine ⟨hzero, ?_, ?_⟩
    · dsimp only at hd' ⊢
      omega
    · cases hpayload : find 8 l with
      | none =>
        rw [hpayload] at hpeers
        cases hpeers
        exact Nat.lt_of_sub_pos (Nat.zero_lt_succ _)
      | some payload =>
        rw [hpayload] at hpeers
        obtain ⟨ps, hps, rfl⟩ := Option.map_eq_some_iff.1 hpeers
        have hlong := (cost_attrs hl).2 _ (mem_of_find hpayload)
        have hsum := sum_nested_le peerSize_le hps
        dsimp only [Option.getD_some] at hlong ⊢
        omega
  · rw [if_neg hhead] at h
    cases h

theorem mapM_eq_self {β : Type} {f : β → Option β} {l : List β} :
    l.mapM f = some l ↔ ∀ b ∈ l, f b = some b := by
  induction l with
  | nil => exact iff_of_true rfl fun _ h => by cases h
  | cons b l ih =>
    rw [List.mapM_cons, List.forall_mem_cons, ← ih]
    constructor
    · intro h
      obtain ⟨c, hc, h⟩ := Option.bind_eq_some_iff.1 h
      obtain ⟨m, hm, h⟩ := Option.bind_eq_some_iff.1 h
      cases h
      exact ⟨hc, hm⟩
    · rintro ⟨hb, hl⟩
      rw [hb, hl]
      rfl

/-- A configuration comes back if it fits and each of its peers does. -/
theorem readDevice_iff (familyId : UInt16) :
    readDevice nums (message familyId dev) = some dev ↔
      Fits dev ∧ ∀ p ∈ dev.peers, readPeer nums (encode (peerAttrs p)) = some p := by
  constructor
  · intro h
    have hfits := fits_of_readDevice h
    rw [readDevice_message familyId hfits] at h
    obtain ⟨ps, hps, hdev⟩ := Option.map_eq_some_iff.1 h
    have hpeers : ps = dev.peers := congrArg Device.peers hdev
    rw [hpeers] at hps
    exact ⟨hfits, mapM_eq_self.1 hps⟩
  · rintro ⟨hfits, hpeers⟩
    have hps : readPeers nums dev.peers = some dev.peers := mapM_eq_self.2 hpeers
    rw [readDevice_message familyId hfits, hps]
    rfl

/-! Peers. -/

theorem typeOf_allowedips : typeOf (wgpeerAAllowedips ||| nlaFNested).toNat = 8 := by decide

theorem typed_peerAttrs (p : Peer) :
    typed (peerAttrs p) = [⟨1, p.publicKey.toList⟩] ++
      (p.endpoint.map fun addr => ⟨3, sockaddr addr⟩).toList ++
      (p.persistentKeepalive.map fun ka => ⟨4, leBytes 2 ka.toNat⟩).toList ++
      p.allowedIps.map fun ip => ⟨8, allowedIpNla ip⟩ := by
  have hips : ((p.allowedIps.map fun ip => (⟨(wgpeerAAllowedips ||| nlaFNested).toNat,
      allowedIpNla ip⟩ : Attr)).map fun a => ⟨typeOf a.type, a.data⟩) =
      p.allowedIps.map fun ip => (⟨8, allowedIpNla ip⟩ : Attr) := by
    rw [List.map_map]
    exact List.map_congr_left fun ip _ => by rw [Function.comp_apply, typeOf_allowedips]
  simp only [typed, peerAttrs, List.map_append, hips]
  cases p.endpoint <;> cases p.persistentKeepalive <;> rfl

theorem attrs_peerAttrs (p : Peer) : attrs (encode (peerAttrs p)) = some (typed (peerAttrs p)) := by
  refine attrs_encode fun a ha => ?_
  have hcost : cost a ≤ 36 := by
    rw [peerAttrs, List.mem_append, List.mem_append, List.mem_append] at ha
    rcases ha with ((ha | ha) | ha) | ha
    · rw [List.mem_singleton.1 ha, cost, p.publicKey.length_toList]
      decide
    · obtain ⟨addr, -, rfl⟩ := Option.map_eq_some_iff.1 (Option.mem_toList.1 ha)
      refine Nat.le_trans (Nat.le_of_eq (length_sockaddr addr)) ?_
      cases addr with
      | v4 ip port => exact Nat.le_add_right 20 16
      | v6 ip port flowinfo scopeId => exact Nat.le_add_right 32 4
    · obtain ⟨ka, -, rfl⟩ := Option.map_eq_some_iff.1 (Option.mem_toList.1 ha)
      rw [cost, length_leBytes]
      decide
    · obtain ⟨ip, -, rfl⟩ := List.mem_map.1 ha
      have hsize := allowedIpSize_le ip
      rw [cost, length_allowedIpNla]
      omega
  have hle := le_align a.data.length
  unfold cost at hcost
  omega

theorem find_of_ne {k : ℕ} (hk : k ≠ 8) (p : Peer) :
    find k (typed (peerAttrs p)) = find k ([⟨1, p.publicKey.toList⟩] ++
      (p.endpoint.map fun addr => ⟨3, sockaddr addr⟩).toList ++
      (p.persistentKeepalive.map fun ka => ⟨4, leBytes 2 ka.toNat⟩).toList) := by
  have hnone : find k (p.allowedIps.map fun ip => ⟨8, allowedIpNla ip⟩) = none := by
    refine find_eq_none fun a ha => ?_
    obtain ⟨ip, -, rfl⟩ := List.mem_map.1 ha
    exact hk.symm
  rw [typed_peerAttrs, find_append, hnone, Option.none_or]

theorem find_publicKey (p : Peer) :
    find 1 (typed (peerAttrs p)) = some p.publicKey.toList := by
  rw [find_of_ne (by decide)]
  cases p.endpoint <;> cases p.persistentKeepalive <;> rfl

theorem find_three (p : Peer) : find 3 (typed (peerAttrs p)) = p.endpoint.map sockaddr := by
  rw [find_of_ne (by decide)]
  cases p.endpoint <;> cases p.persistentKeepalive <;> rfl

theorem find_four (p : Peer) :
    find 4 (typed (peerAttrs p)) = p.persistentKeepalive.map fun ka => leBytes 2 ka.toNat := by
  rw [find_of_ne (by decide)]
  cases p.endpoint <;> cases p.persistentKeepalive <;> rfl

theorem readSockaddr_short (h : data.length < 16) : readSockaddr data = none := by
  have hv4 : ¬(leValue (data.take 2) = afInet ∧ data.length = 16) := fun hc => by omega
  have hv6 : ¬(leValue (data.take 2) = afInet6 ∧ data.length = 28) := fun hc => by omega
  unfold readSockaddr
  dsimp only
  rw [if_neg hv4, if_neg hv6]

/-- The kernel sees the keepalive in the place of the endpoint, and the rest not at all. -/
theorem readPeer_kernel_iff : readPeer kernelNumbers (encode (peerAttrs p)) = some p ↔
    p.endpoint = none ∧ p.persistentKeepalive = none ∧ p.allowedIps = [] := by
  have hfive : find 5 (typed (peerAttrs p)) = none := by
    rw [find_of_ne (by decide)]
    cases p.endpoint <;> cases p.persistentKeepalive <;> rfl
  have hnine : find 9 (typed (peerAttrs p)) = none := by
    rw [find_of_ne (by decide)]
    cases p.endpoint <;> cases p.persistentKeepalive <;> rfl
  have hread : readPeer kernelNumbers (encode (peerAttrs p)) =
      (optional readSockaddr (p.persistentKeepalive.map fun ka => leBytes 2 ka.toNat)).map
        fun endpoint => ⟨p.publicKey, endpoint, none, []⟩ := by
    rw [readPeer, attrs_peerAttrs]
    simp only [Option.bind_eq_bind, Option.bind_some, readPeerAttrs, kernelNumbers,
      find_publicKey, find_four, hfive, hnine, readVector_toList, optional_none, Option.getD_none]
    cases optional readSockaddr (p.persistentKeepalive.map fun ka => leBytes 2 ka.toNat) <;> rfl
  obtain ⟨key, endpoint, keepalive, ips⟩ := p
  rw [hread]
  cases keepalive with
  | none =>
    constructor
    · intro h
      cases h
      exact ⟨rfl, rfl, rfl⟩
    · rintro ⟨rfl, -, rfl⟩
      rfl
  | some ka =>
    have hshort : readSockaddr (leBytes 2 ka.toNat) = none :=
      readSockaddr_short (by rw [length_leBytes]; decide)
    rw [Option.map_some, optional, hshort]
    constructor
    · intro h
      cases h
    · rintro ⟨-, hka, -⟩
      cases hka

/-- No scope or flow, for which the message has no room. -/
def SocketAddr.Plain : SocketAddr → Prop
  | .v4 _ _ => True
  | .v6 _ _ flowinfo scopeId => flowinfo = 0 ∧ scopeId = 0

theorem port_toBeBytes16 (port : UInt16) :
    UInt16.ofNat (256 * leValue ((toBeBytes16 port).take 1) + leValue ((toBeBytes16 port).drop 1)) =
      port := by
  have hlt : port.toNat < 2 ^ 16 := port.toNat_lt
  have hhi : (UInt8.ofNat (port.toNat / 256)).toNat = port.toNat / 256 % 256 := UInt8.toNat_ofNat'
  have hlo : (UInt8.ofNat port.toNat).toNat = port.toNat % 256 := UInt8.toNat_ofNat'
  have hvalue : 256 * leValue ((toBeBytes16 port).take 1) + leValue ((toBeBytes16 port).drop 1) =
      port.toNat := by
    simp only [toBeBytes16, List.take_succ_cons, List.take_zero, List.drop_succ_cons, List.drop_zero,
      leValue, hhi, hlo]
    omega
  rw [hvalue, UInt16.ofNat_toNat]

theorem readSockaddr_v4 (ip : Vector UInt8 4) (port : UInt16) :
    readSockaddr (sockaddr (.v4 ip port)) = some (.v4 ip port) := by
  have hdata : sockaddr (.v4 ip port) =
      [UInt8.ofNat afInet, 0] ++ (toBeBytes16 port ++ (ip.toList ++ List.replicate 8 0)) := by
    simp only [sockaddr, List.append_assoc]
  have hip : ((sockaddr (.v4 ip port)).drop 4).take 4 = ip.toList := by
    rw [hdata]
    exact List.take_left' ip.length_toList
  have hfamily : leValue ((sockaddr (.v4 ip port)).take 2) = afInet := by
    rw [hdata]
    rfl
  unfold readSockaddr
  dsimp only
  rw [if_pos ⟨hfamily, length_sockaddr_v4 ip port⟩, hip, readVector_toList]
  exact congrArg (fun port => some (SocketAddr.v4 ip port)) (port_toBeBytes16 port)

theorem readSockaddr_v6 (ip : Vector UInt8 16) (port : UInt16) (flowinfo scopeId : UInt32) :
    readSockaddr (sockaddr (.v6 ip port flowinfo scopeId)) = some (.v6 ip port 0 0) := by
  have hdata : sockaddr (.v6 ip port flowinfo scopeId) =
      [UInt8.ofNat afInet6, 0] ++ (toBeBytes16 port ++ (List.replicate 4 0 ++
        (ip.toList ++ List.replicate 4 0))) := by
    simp only [sockaddr, List.append_assoc]
  have hlen := length_sockaddr_v6 ip port flowinfo scopeId
  have hip : ((sockaddr (.v6 ip port flowinfo scopeId)).drop 8).take 16 = ip.toList := by
    rw [hdata]
    exact List.take_left' ip.length_toList
  have hscope : (sockaddr (.v6 ip port flowinfo scopeId)).drop 24 = List.replicate 4 0 := by
    have hdrop : (sockaddr (.v6 ip port flowinfo scopeId)).drop 24 =
        ((sockaddr (.v6 ip port flowinfo scopeId)).drop 8).drop 16 := by rw [List.drop_drop]
    rw [hdrop, hdata]
    exact List.drop_left' ip.length_toList
  have hfamily : leValue ((sockaddr (.v6 ip port flowinfo scopeId)).take 2) = afInet6 := by
    rw [hdata]
    rfl
  have hv4 : ¬(leValue ((sockaddr (.v6 ip port flowinfo scopeId)).take 2) = afInet ∧
      (sockaddr (.v6 ip port flowinfo scopeId)).length = 16) := by
    rw [hlen]
    exact fun hc => absurd hc.2 (by decide)
  unfold readSockaddr
  dsimp only
  rw [if_neg hv4, if_pos ⟨hfamily, hlen⟩, hip, readVector_toList, hscope]
  exact congrArg (fun port => some (SocketAddr.v6 ip port 0 0)) (port_toBeBytes16 port)

theorem readSockaddr_iff (addr : SocketAddr) :
    readSockaddr (sockaddr addr) = some addr ↔ addr.Plain := by
  cases addr with
  | v4 ip port => exact iff_of_true (readSockaddr_v4 ip port) trivial
  | v6 ip port flowinfo scopeId =>
    rw [readSockaddr_v6, Option.some_inj]
    constructor
    · intro h
      cases h
      exact ⟨rfl, rfl⟩
    · rintro ⟨rfl, rfl⟩
      rfl

/-- The record of an allowed address is too short for a list of such. -/
theorem nested_allowedIpNla {ip : AllowedIp} {ips : List AllowedIp}
    (h : nested readAllowedIp (allowedIpNla ip) = some ips) : ips = [] := by
  have hsum : (ips.map fun _ => 28).sum ≤ (allowedIpNla ip).length := by
    refine sum_nested_le (fun {d ip} hip => ?_) h
    have hlen := length_of_readAllowedIp hip
    have hle := le_align d.length
    omega
  have hsize := length_allowedIpNla ip
  have hle := allowedIpSize_le ip
  have halign := le_align (allowedIpNla ip).length
  cases ips with
  | nil => rfl
  | cons ip ips =>
    rw [List.map_cons, List.sum_cons] at hsum
    omega

theorem find_allowedIps {p : Peer} (h : p.allowedIps ≠ []) :
    ∃ ip, find 8 (typed (peerAttrs p)) = some (allowedIpNla ip) := by
  have hips : ∀ {ips : List AllowedIp}, ips ≠ [] →
      ∃ ip, find 8 (ips.map fun ip => ⟨8, allowedIpNla ip⟩) = some (allowedIpNla ip) := by
    intro ips hne
    induction ips with
    | nil => exact absurd rfl hne
    | cons ip ips ih =>
      by_cases hnil : ips = []
      · rw [hnil]
        exact ⟨ip, rfl⟩
      · obtain ⟨last, hlast⟩ := ih hnil
        exact ⟨last, by rw [List.map_cons, find, hlast, Option.some_or]⟩
  obtain ⟨ip, hip⟩ := hips h
  rw [typed_peerAttrs, find_append, hip]
  exact ⟨ip, rfl⟩

theorem find_allowedIps_nil {p : Peer} (h : p.allowedIps = []) :
    find 8 (typed (peerAttrs p)) = none := by
  rw [typed_peerAttrs, h]
  cases p.endpoint <;> cases p.persistentKeepalive <;> rfl

theorem readPeer_source (p : Peer) : readPeer sourceNumbers (encode (peerAttrs p)) =
    (optional readSockaddr (p.endpoint.map sockaddr)).bind fun endpoint =>
      (optional (nested readAllowedIp) (find 8 (typed (peerAttrs p)))).bind fun ips =>
        some ⟨p.publicKey, endpoint, p.persistentKeepalive, ips.getD []⟩ := by
  have hka : optional readU16 (p.persistentKeepalive.map fun ka => leBytes 2 ka.toNat) =
      some p.persistentKeepalive := by
    cases p.persistentKeepalive with
    | none => rfl
    | some ka => rw [Option.map_some, optional, readU16_leBytes, Option.map_some]
  rw [readPeer, attrs_peerAttrs]
  change readPeerAttrs ⟨1, 3, 4, 8, _⟩ _ = _
  simp only [Option.bind_eq_bind, Option.bind_some, readPeerAttrs, find_publicKey, find_three,
    find_four, hka, readVector_toList]

/-- By the numbers of the source everything but the allowed addresses is seen. -/
theorem readPeer_source_iff : readPeer sourceNumbers (encode (peerAttrs p)) = some p ↔
    (∀ addr, p.endpoint = some addr → addr.Plain) ∧ p.allowedIps = [] := by
  rw [readPeer_source]
  constructor
  · intro h
    obtain ⟨endpoint, hendpoint, h⟩ := Option.bind_eq_some_iff.1 h
    obtain ⟨ips, hips, h⟩ := Option.bind_eq_some_iff.1 h
    have hp := Option.some.inj h
    have hep : endpoint = p.endpoint := congrArg Peer.endpoint hp
    have hall : ips.getD [] = p.allowedIps := congrArg Peer.allowedIps hp
    constructor
    · intro addr haddr
      rw [hep, haddr] at hendpoint
      obtain ⟨read, hread, heq⟩ := Option.map_eq_some_iff.1 hendpoint
      cases heq
      exact (readSockaddr_iff addr).1 hread
    · by_contra hne
      obtain ⟨ip, hfind⟩ := find_allowedIps hne
      rw [hfind] at hips
      obtain ⟨read, hread, rfl⟩ := Option.map_eq_some_iff.1 hips
      rw [nested_allowedIpNla hread] at hall
      exact hne hall.symm
  · rintro ⟨hplain, hips⟩
    have hendpoint : optional readSockaddr (p.endpoint.map sockaddr) = some p.endpoint := by
      cases hep : p.endpoint with
      | none => rfl
      | some addr =>
        rw [Option.map_some, optional, (readSockaddr_iff addr).2 (hplain addr hep),
          Option.map_some]
    rw [hendpoint, find_allowedIps_nil hips, optional_none, Option.bind_some, Option.bind_some,
      Option.getD_none, ← hips]

end Read

/-! What is expected of `wg_set_device`. -/

section Law
variable (parseSocketAddr : String → Option SocketAddr) (parseIpAddr : String → Option IpAddr)
  (familyId : UInt16) (name privateKeyB64 : String) (listenPort : UInt16)
  (peers : List WgPeerConfig) (replacePeers : Bool)

/-- The message that is sent, if one is, is read as what was asked for. -/
def Recovered (nums : PeerNumbers) : Prop :=
  ∀ msg, wgSetDevice parseSocketAddr parseIpAddr familyId name privateKeyB64 listenPort peers
      replacePeers = .ok msg →
    ∃ dev, configured parseSocketAddr parseIpAddr name privateKeyB64 listenPort peers
        replacePeers = .ok dev ∧
      readDevice nums msg = some dev

theorem recovered_iff (nums : PeerNumbers) :
    Recovered parseSocketAddr parseIpAddr familyId name privateKeyB64 listenPort peers replacePeers
        nums ↔
      ∀ dev, configured parseSocketAddr parseIpAddr name privateKeyB64 listenPort peers
          replacePeers = .ok dev →
        Fits dev ∧ ∀ p ∈ dev.peers, readPeer nums (encode (peerAttrs p)) = some p := by
  unfold Recovered
  rw [wgSetDevice_eq]
  cases configured parseSocketAddr parseIpAddr name privateKeyB64 listenPort peers
    replacePeers with
  | error e => exact iff_of_true (fun _ h => by cases h) fun _ h => by cases h
  | ok dev =>
    constructor
    · intro h dev' hdev
      cases hdev
      obtain ⟨read, hread, hmsg⟩ := h _ rfl
      cases hread
      exact (readDevice_iff familyId).1 hmsg
    · intro h msg hmsg
      cases hmsg
      exact ⟨dev, rfl, (readDevice_iff familyId).2 (h dev rfl)⟩

/-- By the numbers of the kernel a configuration comes back if its lengths fit and its peers have
nothing but their keys; by those of the source it is the allowed addresses and the scopes that are
lost. -/
theorem wg_iff :
    (Recovered parseSocketAddr parseIpAddr familyId name privateKeyB64 listenPort peers
        replacePeers kernelNumbers ↔
      ∀ dev, configured parseSocketAddr parseIpAddr name privateKeyB64 listenPort peers
          replacePeers = .ok dev →
        Fits dev ∧ ∀ p ∈ dev.peers,
          p.endpoint = none ∧ p.persistentKeepalive = none ∧ p.allowedIps = []) ∧
    (Recovered parseSocketAddr parseIpAddr familyId name privateKeyB64 listenPort peers
        replacePeers sourceNumbers ↔
      ∀ dev, configured parseSocketAddr parseIpAddr name privateKeyB64 listenPort peers
          replacePeers = .ok dev →
        Fits dev ∧ ∀ p ∈ dev.peers,
          (∀ addr, p.endpoint = some addr → addr.Plain) ∧ p.allowedIps = []) := by
  constructor
  · rw [recovered_iff]
    refine forall_congr' fun dev => imp_congr_right fun _ => and_congr_right fun _ => ?_
    exact forall_congr' fun p => imp_congr_right fun _ => readPeer_kernel_iff
  · rw [recovered_iff]
    refine forall_congr' fun dev => imp_congr_right fun _ => and_congr_right fun _ => ?_
    exact forall_congr' fun p => imp_congr_right fun _ => readPeer_source_iff

end Law

/-- A parser that knows one address. -/
def knownIp (s : String) : Option IpAddr :=
  if s = "10.0.0.0" then some (.v4 #v[10, 0, 0, 0]) else none

def zeroKey : String := "AAAAAAAAAAAAAAAAAAAAAAAAAAAAAAAAAAAAAAAAAAA="

/-- An allowed address does not come back, by whichever numbers. -/
theorem allowed_ip_lost :
    ¬Recovered (fun _ => none) knownIp 28 "wg0" zeroKey 51820
        [{ publicKey := zeroKey, allowedIps := ["10.0.0.0/8"] }] true kernelNumbers ∧
      ¬Recovered (fun _ => none) knownIp 28 "wg0" zeroKey 51820
        [{ publicKey := zeroKey, allowedIps := ["10.0.0.0/8"] }] true sourceNumbers := by
  have hdev : ∃ dev, configured (fun _ => none) knownIp "wg0" zeroKey 51820
      [{ publicKey := zeroKey, allowedIps := ["10.0.0.0/8"] }] true = .ok dev ∧
      ∃ p ∈ dev.peers, p.allowedIps ≠ [] := by
    have hcheck : (configured (fun _ => none) knownIp "wg0" zeroKey 51820
        [{ publicKey := zeroKey, allowedIps := ["10.0.0.0/8"] }] true).toOption.any
        (fun dev => dev.peers.any fun p => p.allowedIps ≠ []) := by decide +kernel
    cases hconf : configured (fun _ => none) knownIp "wg0" zeroKey 51820
        [{ publicKey := zeroKey, allowedIps := ["10.0.0.0/8"] }] true with
    | error e =>
      rw [hconf] at hcheck
      cases hcheck
    | ok dev =>
      rw [hconf] at hcheck
      obtain ⟨p, hp, hne⟩ := List.any_eq_true.1 hcheck
      exact ⟨dev, rfl, p, hp, of_decide_eq_true hne⟩
  obtain ⟨dev, hdev, p, hp, hne⟩ := hdev
  constructor
  · intro h
    have hpeers := ((recovered_iff _ _ _ _ _ _ _ _ _).1 h dev hdev).2 p hp
    exact hne (readPeer_kernel_iff.1 hpeers).2.2
  · intro h
    have hpeers := ((recovered_iff _ _ _ _ _ _ _ _ _).1 h dev hdev).2 p hp
    exact hne (readPeer_source_iff.1 hpeers).2

end Quantra.WireGuard