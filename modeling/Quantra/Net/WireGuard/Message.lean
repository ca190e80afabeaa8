import Quantra.Lib.Nla
import Quantra.Lib.Text

/-! `wireguard.rs`: the message by which a WireGuard interface is configured, as it is put together
and as a tree of attributes. -/
namespace Quantra.WireGuard
open Bytes Nla

inductive IpAddr
  | v4 (octets : Vector UInt8 4)
  | v6 (octets : Vector UInt8 16)
  deriving DecidableEq, Repr

inductive SocketAddr
  | v4 (ip : Vector UInt8 4) (port : UInt16)
  | v6 (ip : Vector UInt8 16) (port : UInt16) (flowinfo scopeId : UInt32)
  deriving DecidableEq, Repr

/-- An address and the length of its prefix. -/
structure AllowedIp where
  ip : IpAddr
  cidr : UInt8
  deriving DecidableEq, Repr

/-- A configuration as the caller gives it. -/
structure WgPeerConfig where
  publicKey : String
  allowedIps : List String := []
  endpoint : Option String := none
  persistentKeepalive : Option UInt16 := none
  deriving DecidableEq, Repr

/-! Keys. -/

def alphabet : List UInt8 :=
  asBytes "ABCDEFGHIJKLMNOPQRSTUVWXYZabcdefghijklmnopqrstuvwxyz0123456789+/"

def val (c : UInt8) : Option UInt8 := (alphabet.idxOf? c).map UInt8.ofNat

/-- The bytes that up to four sextets hold. -/
def decodeChunk : List UInt8 → List UInt8
  | [a, b, c, d] => [a <<< 2 ||| b >>> 4, b <<< 4 ||| c >>> 2, c <<< 6 ||| d]
  | [a, b, c] => [a <<< 2 ||| b >>> 4, b <<< 4 ||| c >>> 2]
  | [a, b] => [a <<< 2 ||| b >>> 4]
  | _ => []

/-- Characters outside of the alphabet are left out, which makes the key too short. -/
def decodeKey (b64 : String) : Except String (Vector UInt8 32) :=
  let b64 := asBytes (String.ofList (Text.dropWhileEnd (· = '=') (Text.trim b64).toList))
  if b64.length ≠ 43 then
    .error ("WireGuard key must be 44 base64 chars (got " ++ toString b64.length ++ ")")
  else
    let bytes := (b64.toChunks 4).flatMap fun chunk => decodeChunk (chunk.filterMap val)
    if h : bytes.length < 32 then
      .error ("WireGuard key decoded to " ++ toString bytes.length ++ " bytes (need 32)")
    else .ok ⟨(bytes.take 32).toArray, by simp; omega⟩

/-! Netlink messages, on a little-endian machine. -/

/-- `NlMsg::new`. -/
def newMsg (msgType flags : UInt16) (seq : UInt32) : List UInt8 :=
  List.replicate 4 0 ++ leBytes 2 msgType.toNat ++ leBytes 2 flags.toNat ++ leBytes 4 seq.toNat ++
    List.replicate 4 0

def pushGenl (msg : List UInt8) (cmd : UInt8) : List UInt8 := msg ++ [cmd, 1, 0, 0]

def pushNla (msg : List UInt8) (nlaType : UInt16) (data : List UInt8) : List UInt8 :=
  msg ++ leBytes 2 (4 + data.length) ++ leBytes 2 nlaType.toNat ++ data ++
    List.replicate ((4 - data.length % 4) % 4) 0

def pushNlaStr (msg : List UInt8) (nlaType : UInt16) (s : List UInt8) : List UInt8 :=
  pushNla msg nlaType (s ++ [0])

def pushNlaU16 (msg : List UInt8) (nlaType v : UInt16) : List UInt8 :=
  pushNla msg nlaType (leBytes 2 v.toNat)

def pushNlaU32 (msg : List UInt8) (nlaType : UInt16) (v : UInt32) : List UInt8 :=
  pushNla msg nlaType (leBytes 4 v.toNat)

def finish (msg : List UInt8) : List UInt8 := leBytes 4 msg.length ++ msg.drop 4

/-! Peers. -/

def wgpeerAPublicKey : UInt16 := 1

def wgpeerAEndpoint : UInt16 := 3

def wgpeerAPersistentKeepalive : UInt16 := 4

def wgpeerAAllowedips : UInt16 := 8

/-- `NLA_F_NESTED`. -/
def nlaFNested : UInt16 := 0x8000

def afInet : ℕ := 2

def afInet6 : ℕ := 10

/-- `struct sockaddr_in` or `struct sockaddr_in6`. -/
def sockaddr : SocketAddr → List UInt8
  | .v4 ip port => [UInt8.ofNat afInet, 0] ++ toBeBytes16 port ++ ip.toList ++ List.replicate 8 0
  | .v6 ip port _ _ =>
    [UInt8.ofNat afInet6, 0] ++ toBeBytes16 port ++ List.replicate 4 0 ++ ip.toList ++
      List.replicate 4 0

/-- The record that `parse_allowed_ip_nla` makes. -/
def allowedIpNla (ip : AllowedIp) : List UInt8 :=
  match ip.ip with
  | .v4 octets => leBytes 2 afInet ++ [ip.cidr, 0] ++ octets.toList
  | .v6 octets => leBytes 2 afInet6 ++ [ip.cidr, 0] ++ octets.toList

section Send
variable (parseSocketAddr : String → Option SocketAddr) (parseIpAddr : String → Option IpAddr)

def parseEndpoint (endpoint : String) : Except String SocketAddr :=
  match parseSocketAddr endpoint with
  | some addr => .ok addr
  | none => .error ("parse WireGuard endpoint '" ++ endpoint ++ "'")

def parseEndpointSockaddr (endpoint : String) : Except String (List UInt8) :=
  (parseEndpoint parseSocketAddr endpoint).map sockaddr

def parseAllowedIp (cidr : String) : Except String AllowedIp :=
  match Text.splitOnce '/' cidr with
  | none => .error ("allowed_ip '" ++ cidr ++ "' must be CIDR")
  | some (ip, len) =>
    match Text.parseUnsigned 256 len with
    | none => .error ("parse prefix in '" ++ cidr ++ "'")
    | some len =>
      match parseIpAddr ip with
      | none => .error ("parse IP in '" ++ cidr ++ "'")
      | some ip => .ok ⟨ip, UInt8.ofNat len⟩

def parseAllowedIpNla (cidr : String) : Except String (List UInt8) :=
  (parseAllowedIp parseIpAddr cidr).map allowedIpNla

/-- The attributes of a peer are written by hand in the way of `push_nla`. -/
def buildPeerNla (peer : WgPeerConfig) : Except String (List UInt8) := do
  let pubkey ← decodeKey peer.publicKey
  let p := leBytes 2 (4 + 32) ++ leBytes 2 wgpeerAPublicKey.toNat ++ pubkey.toList
  let p ← match peer.endpoint with
    | some ep => do
      let epBytes ← parseEndpointSockaddr parseSocketAddr ep
      pure (pushNla p wgpeerAEndpoint epBytes)
    | none => pure p
  let p := match peer.persistentKeepalive with
    | some ka =>
      p ++ leBytes 2 (4 + 2) ++ leBytes 2 wgpeerAPersistentKeepalive.toNat ++
        leBytes 2 ka.toNat ++ [0, 0]
    | none => p
  peer.allowedIps.foldlM (fun p cidr => do
    let aip ← parseAllowedIpNla parseIpAddr cidr
    pure (pushNla p (wgpeerAAllowedips ||| nlaFNested) aip)) p

/-- One element of the list of peers, without padding; its number is truncated to 16 bits. -/
def peerWrapper (idx : ℕ) (peerNla : List UInt8) : List UInt8 :=
  leBytes 2 (4 + peerNla.length) ++ leBytes 2 ((UInt16.ofNat idx + 1) ||| nlaFNested).toNat ++
    peerNla

def peersPayload (peers : List WgPeerConfig) : Except String (List UInt8) :=
  peers.zipIdx.foldlM (fun payload (peer, idx) => do
    let peerNla ← buildPeerNla parseSocketAddr parseIpAddr peer
    pure (payload ++ peerWrapper idx peerNla)) []

def wgCmdSetDevice : UInt8 := 1

def wgdeviceAIfname : UInt16 := 2

def wgdeviceAPrivateKey : UInt16 := 3

def wgdeviceAFlags : UInt16 := 5

def wgdeviceAListenPort : UInt16 := 6

def wgdeviceAPeers : UInt16 := 8

def wgdeviceFReplacePeers : UInt32 := 1

/-- `NLM_F_REQUEST | NLM_F_ACK`. -/
def nlmFlags : UInt16 := 0x01 ||| 0x04

/-- The message that `wg_set_device` sends to the family. -/
def wgSetDevice (familyId : UInt16) (name privateKeyB64 : String) (listenPort : UInt16)
    (peers : List WgPeerConfig) (replacePeers : Bool) : Except String (List UInt8) := do
  let privateKey ← (decodeKey privateKeyB64).mapError fun _ => "decode WireGuard private key"
  let msg := pushGenl (newMsg familyId nlmFlags 2) wgCmdSetDevice
  let msg := pushNlaStr msg wgdeviceAIfname (asBytes name)
  let msg := pushNla msg wgdeviceAPrivateKey privateKey.toList
  let msg := if listenPort > 0 then pushNlaU16 msg wgdeviceAListenPort listenPort else msg
  let msg :=
    if replacePeers then pushNlaU32 msg wgdeviceAFlags wgdeviceFReplacePeers else msg
  if peers.isEmpty then return finish msg
  else
    let payload ← peersPayload parseSocketAddr parseIpAddr peers
    return finish (pushNla msg (wgdeviceAPeers ||| nlaFNested) payload)

end Send

/-! What the caller asked for. -/

structure Peer where
  publicKey : Vector UInt8 32
  endpoint : Option SocketAddr
  persistentKeepalive : Option UInt16
  allowedIps : List AllowedIp
  deriving DecidableEq, Repr

structure Device where
  name : List UInt8
  privateKey : Vector UInt8 32
  listenPort : UInt16
  replacePeers : Bool
  peers : List Peer
  deriving DecidableEq, Repr

section Configured
variable (parseSocketAddr : String → Option SocketAddr) (parseIpAddr : String → Option IpAddr)

def configuredPeer (peer : WgPeerConfig) : Except String Peer := do
  let publicKey ← decodeKey peer.publicKey
  let endpoint ← match peer.endpoint with
    | some ep => (parseEndpoint parseSocketAddr ep).map some
    | none => .ok none
  let allowedIps ← peer.allowedIps.mapM (parseAllowedIp parseIpAddr)
  return ⟨publicKey, endpoint, peer.persistentKeepalive, allowedIps⟩

def configured (name privateKeyB64 : String) (listenPort : UInt16) (peers : List WgPeerConfig)
    (replacePeers : Bool) : Except String Device := do
  let privateKey ← (decodeKey privateKeyB64).mapError fun _ => "decode WireGuard private key"
  let peers ← peers.mapM (configuredPeer parseSocketAddr parseIpAddr)
  return ⟨asBytes name, privateKey, listenPort, replacePeers, peers⟩

end Configured

/-! The message as a tree of attributes. -/

def peerAttrs (p : Peer) : List Attr :=
  [⟨wgpeerAPublicKey.toNat, p.publicKey.toList⟩] ++
    (p.endpoint.map fun addr => ⟨wgpeerAEndpoint.toNat, sockaddr addr⟩).toList ++
    (p.persistentKeepalive.map fun ka =>
      ⟨wgpeerAPersistentKeepalive.toNat, leBytes 2 ka.toNat⟩).toList ++
    p.allowedIps.map fun ip => ⟨(wgpeerAAllowedips ||| nlaFNested).toNat, allowedIpNla ip⟩

/-- The peers as elements of a list, the first of them with this index. -/
def peerElements (peers : List Peer) (idx : ℕ) : List Attr :=
  (peers.zipIdx idx).map fun p =>
    ⟨((UInt16.ofNat p.2 + 1) ||| nlaFNested).toNat, encode (peerAttrs p.1)⟩

def headAttrs (name : List UInt8) (privateKey : Vector UInt8 32) (listenPort : UInt16)
    (replacePeers : Bool) : List Attr :=
  [⟨wgdeviceAIfname.toNat, name ++ [0]⟩, ⟨wgdeviceAPrivateKey.toNat, privateKey.toList⟩] ++
    (if listenPort > 0 then [⟨wgdeviceAListenPort.toNat, leBytes 2 listenPort.toNat⟩] else []) ++
    (if replacePeers then [⟨wgdeviceAFlags.toNat, leBytes 4 wgdeviceFReplacePeers.toNat⟩] else [])

def deviceAttrs (dev : Device) : List Attr :=
  headAttrs dev.name dev.privateKey dev.listenPort dev.replacePeers ++
    if dev.peers.isEmpty then []
    else [⟨(wgdeviceAPeers ||| nlaFNested).toNat, encode (peerElements dev.peers 0)⟩]

def message (familyId : UInt16) (dev : Device) : List UInt8 :=
  finish (pushGenl (newMsg familyId nlmFlags 2) wgCmdSetDevice ++ encode (deviceAttrs dev))

theorem pushNla_eq (msg : List UInt8) (nlaType : UInt16) (data : List UInt8) :
    pushNla msg nlaType data = msg ++ attr nlaType.toNat data := by
  have hpad : (4 - data.length % 4) % 4 = align data.length - data.length := by
    unfold align
    omega
  simp only [pushNla, attr, hpad, List.append_assoc]

theorem peerWrapper_eq (idx : ℕ) (l : List Attr) :
    peerWrapper idx (encode l) =
      attr ((UInt16.ofNat idx + 1) ||| nlaFNested).toNat (encode l) := by
  rw [peerWrapper, attr, align_length_encode, Nat.sub_self, List.replicate_zero, List.append_nil]

theorem foldlM_append {α β γ ε : Type} (f : α → Except ε β) (g : β → List γ) (l : List α)
    (acc : List γ) :
    l.foldlM (fun acc x => (f x).map fun y => acc ++ g y) acc =
      (l.mapM f).map fun ys => acc ++ ys.flatMap g := by
  induction l generalizing acc with
  | nil =>
    change Except.ok acc = Except.ok (acc ++ [])
    rw [List.append_nil]
  | cons x l ih =>
    rw [List.foldlM_cons, List.mapM_cons]
    cases hx : f x with
    | error e => rfl
    | ok y =>
      change l.foldlM (fun acc x => (f x).map fun y => acc ++ g y) (acc ++ g y) = _
      rw [ih]
      cases hl : l.mapM f with
      | error e => rfl
      | ok ys =>
        change Except.ok (acc ++ g y ++ ys.flatMap g) = Except.ok (acc ++ (y :: ys).flatMap g)
        rw [List.flatMap_cons, List.append_assoc]

section Message
variable {parseSocketAddr : String → Option SocketAddr} {parseIpAddr : String → Option IpAddr}

theorem attr_key (key : Vector UInt8 32) :
    attr wgpeerAPublicKey.toNat key.toList =
      leBytes 2 (4 + 32) ++ leBytes 2 wgpeerAPublicKey.toNat ++ key.toList := by
  have hlen : key.toList.length = 32 := key.length_toList
  rw [attr, hlen]
  exact List.append_nil _

theorem attr_keepalive (ka : UInt16) :
    attr wgpeerAPersistentKeepalive.toNat (leBytes 2 ka.toNat) =
      leBytes 2 (4 + 2) ++ leBytes 2 wgpeerAPersistentKeepalive.toNat ++ leBytes 2 ka.toNat ++
        [0, 0] := by
  rw [attr, length_leBytes]
  rfl

theorem allowedIps_eq (acc : List UInt8) (cidrs : List String) :
    cidrs.foldlM (fun p cidr => do
        let aip ← parseAllowedIpNla parseIpAddr cidr
        pure (pushNla p (wgpeerAAllowedips ||| nlaFNested) aip)) acc =
      (cidrs.mapM (parseAllowedIp parseIpAddr)).map fun ips => acc ++
        encode (ips.map fun ip => ⟨(wgpeerAAllowedips ||| nlaFNested).toNat, allowedIpNla ip⟩) := by
  simp only [encode, List.flatMap_map]
  rw [← foldlM_append]
  refine congrArg (fun f => List.foldlM f acc cidrs) ?_
  funext acc cidr
  unfold parseAllowedIpNla
  cases parseAllowedIp parseIpAddr cidr with
  | error e => rfl
  | ok ip => exact congrArg Except.ok (pushNla_eq _ _ _)

/-- The part of `build_peer_nla` before the allowed addresses. -/
def peerHead (key : Vector UInt8 32) (endpoint : Option SocketAddr) (keepalive : Option UInt16) :
    List UInt8 :=
  let p := leBytes 2 (4 + 32) ++ leBytes 2 wgpeerAPublicKey.toNat ++ key.toList
  let p := endpoint.elim p fun addr => pushNla p wgpeerAEndpoint (sockaddr addr)
  keepalive.elim p fun ka =>
    p ++ leBytes 2 (4 + 2) ++ leBytes 2 wgpeerAPersistentKeepalive.toNat ++ leBytes 2 ka.toNat ++
      [0, 0]

theorem encode_peerAttrs (p : Peer) :
    encode (peerAttrs p) = peerHead p.publicKey p.endpoint p.persistentKeepalive ++
      encode (p.allowedIps.map fun ip =>
        ⟨(wgpeerAAllowedips ||| nlaFNested).toNat, allowedIpNla ip⟩) := by
  have hendpoint : ∀ msg,
      (p.endpoint.elim msg fun addr => pushNla msg wgpeerAEndpoint (sockaddr addr)) =
        msg ++ encode (p.endpoint.map fun addr =>
          ⟨wgpeerAEndpoint.toNat, sockaddr addr⟩).toList := by
    intro msg
    cases p.endpoint with
    | none => exact (List.append_nil msg).symm
    | some addr =>
      rw [Option.elim_some, pushNla_eq, Option.map_some, Option.toList_some, encode_singleton]
  have hkeepalive : ∀ msg,
      (p.persistentKeepalive.elim msg fun ka =>
        msg ++ leBytes 2 (4 + 2) ++ leBytes 2 wgpeerAPersistentKeepalive.toNat ++
          leBytes 2 ka.toNat ++ [0, 0]) =
        msg ++ encode (p.persistentKeepalive.map fun ka =>
          ⟨wgpeerAPersistentKeepalive.toNat, leBytes 2 ka.toNat⟩).toList := by
    intro msg
    cases p.persistentKeepalive with
    | none => exact (List.append_nil msg).symm
    | some ka =>
      rw [Option.map_some, Option.toList_some, encode_singleton, attr_keepalive]
      simp only [Option.elim_some, List.append_assoc]
  rw [peerAttrs, encode_append, encode_append, encode_append, encode_singleton, attr_key,
    ← hendpoint, ← hkeepalive]
  rfl

theorem buildPeerNla_eq (peer : WgPeerConfig) :
    buildPeerNla parseSocketAddr parseIpAddr peer =
      (configuredPeer parseSocketAddr parseIpAddr peer).map fun p => encode (peerAttrs p) := by
  have hrest : ∀ key endpoint,
      peer.allowedIps.foldlM (fun p cidr => do
        let aip ← parseAllowedIpNla parseIpAddr cidr
        pure (pushNla p (wgpeerAAllowedips ||| nlaFNested) aip))
          (peerHead key endpoint peer.persistentKeepalive) =
        (do
          let allowedIps ← peer.allowedIps.mapM (parseAllowedIp parseIpAddr)
          return (⟨key, endpoint, peer.persistentKeepalive, allowedIps⟩ : Peer)).map
            fun p => encode (peerAttrs p) := by
    intro key endpoint
    rw [allowedIps_eq]
    cases peer.allowedIps.mapM (parseAllowedIp parseIpAddr) with
    | error e => rfl
    | ok ips => exact congrArg Except.ok (encode_peerAttrs ⟨key, endpoint, _, ips⟩).symm
  unfold buildPeerNla configuredPeer
  cases decodeKey peer.publicKey with
  | error e => rfl
  | ok key =>
    cases hep : peer.endpoint with
    | none =>
      refine Eq.trans ?_ (hrest key none)
      cases peer.persistentKeepalive <;> rfl
    | some ep =>
      unfold parseEndpointSockaddr
      dsimp only
      cases parseEndpoint parseSocketAddr ep with
      | error e => rfl
      | ok addr =>
        refine Eq.trans ?_ (hrest key (some addr))
        cases peer.persistentKeepalive <;> rfl

theorem peersPayload_from (peers : List WgPeerConfig) (k : ℕ) (acc : List UInt8) :
    (peers.zipIdx k).foldlM (fun payload (peer, idx) => do
      let peerNla ← buildPeerNla parseSocketAddr parseIpAddr peer
      pure (payload ++ peerWrapper idx peerNla)) acc =
      (peers.mapM (configuredPeer parseSocketAddr parseIpAddr)).map
        fun ps => acc ++ encode (peerElements ps k) := by
  induction peers generalizing k acc with
  | nil => exact congrArg Except.ok (List.append_nil acc).symm
  | cons peer peers ih =>
    rw [List.zipIdx_cons, List.foldlM_cons, List.mapM_cons]
    dsimp only
    rw [buildPeerNla_eq]
    cases configuredPeer parseSocketAddr parseIpAddr peer with
    | error e => rfl
    | ok p =>
      refine (ih (k + 1) (acc ++ peerWrapper k (encode (peerAttrs p)))).trans ?_
      cases peers.mapM (configuredPeer parseSocketAddr parseIpAddr) with
      | error e => rfl
      | ok ps =>
        refine congrArg Except.ok ?_
        rw [peerWrapper_eq]
        exact List.append_assoc _ _ _

theorem peersPayload_eq (peers : List WgPeerConfig) :
    peersPayload parseSocketAddr parseIpAddr peers =
      (peers.mapM (configuredPeer parseSocketAddr parseIpAddr)).map
        fun ps => encode (peerElements ps 0) :=
  peersPayload_from peers 0 []

theorem head_eq (msg name : List UInt8) (privateKey : Vector UInt8 32) (listenPort : UInt16)
    (replacePeers : Bool) :
    (let msg := pushNlaStr msg wgdeviceAIfname name
      let msg := pushNla msg wgdeviceAPrivateKey privateKey.toList
      let msg := if listenPort > 0 then pushNlaU16 msg wgdeviceAListenPort listenPort else msg
      if replacePeers then pushNlaU32 msg wgdeviceAFlags wgdeviceFReplacePeers else msg) =
      msg ++ encode (headAttrs name privateKey listenPort replacePeers) := by
  have hpair : ∀ a b : Attr, encode [a, b] = attr a.type a.data ++ attr b.type b.data :=
    fun a b => (encode_append (l := [a])).trans (by rw [encode_singleton, encode_singleton])
  simp only [pushNlaStr, pushNlaU16, pushNlaU32, pushNla_eq, headAttrs, encode_append, hpair]
  by_cases hport : listenPort > 0
  · rw [if_pos hport, if_pos hport, encode_singleton]
    cases replacePeers <;> simp [encode_singleton]
  · rw [if_neg hport, if_neg hport]
    cases replacePeers <;> simp [encode_singleton]

theorem pushNla_peers (msg : List UInt8) (dev : Device) (h : dev.peers.isEmpty = false) :
    pushNla (msg ++ encode (headAttrs dev.name dev.privateKey dev.listenPort dev.replacePeers))
        (wgdeviceAPeers ||| nlaFNested) (encode (peerElements dev.peers 0)) =
      msg ++ encode (deviceAttrs dev) := by
  rw [pushNla_eq, List.append_assoc, deviceAttrs, h, if_neg Bool.false_ne_true, encode_append,
    encode_singleton]

/-- What is sent is the tree of attributes of what was asked for. -/
theorem wgSetDevice_eq (familyId : UInt16) (name privateKeyB64 : String) (listenPort : UInt16)
    (peers : List WgPeerConfig) (replacePeers : Bool) :
    wgSetDevice parseSocketAddr parseIpAddr familyId name privateKeyB64 listenPort peers
        replacePeers =
      (configured parseSocketAddr parseIpAddr name privateKeyB64 listenPort peers
        replacePeers).map (message familyId) := by
  unfold wgSetDevice configured
  cases (decodeKey privateKeyB64).mapError fun _ => "decode WireGuard private key" with
  | error e => rfl
  | ok key =>
    have hhead := head_eq (pushGenl (newMsg familyId nlmFlags 2) wgCmdSetDevice) (asBytes name) key
      listenPort replacePeers
    dsimp only at hhead
    dsimp only [bind, Except.bind]
    rw [hhead]
    cases peers with
    | nil => exact congrArg (fun l => Except.ok (finish (_ ++ encode l))) (List.append_nil _).symm
    | cons peer peers =>
      have hpayload : peersPayload parseSocketAddr parseIpAddr (peer :: peers) = (do
          let p ← configuredPeer parseSocketAddr parseIpAddr peer
          let ps ← peers.mapM (configuredPeer parseSocketAddr parseIpAddr)
          return p :: ps).map fun ps => encode (peerElements ps 0) := by
        rw [peersPayload_eq, List.mapM_cons]
      rw [hpayload, List.mapM_cons]
      cases configuredPeer parseSocketAddr parseIpAddr peer with
      | error e => rfl
      | ok p =>
        cases peers.mapM (configuredPeer parseSocketAddr parseIpAddr) with
        | error e => rfl
        | ok ps =>
          exact congrArg (fun msg => Except.ok (finish msg))
            (pushNla_peers _ ⟨asBytes name, key, listenPort, replacePeers, p :: ps⟩ rfl)

end Message

end Quantra.WireGuard
