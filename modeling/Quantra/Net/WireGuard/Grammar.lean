import Quantra.Net.WireGuard.Message
import Mathlib.Data.List.TakeWhile

/-! The grammar of the generic netlink family of WireGuard, and how much room it takes. -/
namespace Quantra.WireGuard
open Bytes Nla

/-- The numbers of the attributes of a peer. -/
structure PeerNumbers where
  publicKey : ℕ
  endpoint : ℕ
  persistentKeepalive : ℕ
  allowedIps : ℕ
  different : [publicKey, endpoint, persistentKeepalive, allowedIps].Nodup

/-- The numbers of `linux/wireguard.h`. -/
def kernelNumbers : PeerNumbers := ⟨1, 4, 5, 9, by decide⟩

/-- The numbers of the constants of `wireguard.rs`. -/
def sourceNumbers : PeerNumbers :=
  ⟨wgpeerAPublicKey.toNat, wgpeerAEndpoint.toNat, wgpeerAPersistentKeepalive.toNat,
    wgpeerAAllowedips.toNat, by decide⟩

/-- A field of so many bytes. -/
def readVector (n : ℕ) (data : List UInt8) : Option (Vector UInt8 n) :=
  if h : data.length = n then some ⟨data.toArray, h⟩ else none

def readU16 (data : List UInt8) : Option UInt16 :=
  if data.length = 2 then some (UInt16.ofNat (leValue data)) else none

def readU32 (data : List UInt8) : Option UInt32 :=
  if data.length = 4 then some (UInt32.ofNat (leValue data)) else none

/-- A text up to its NUL, which has to be there. -/
def readCString (data : List UInt8) : Option (List UInt8) :=
  if data.contains 0 then some (data.takeWhile (· ≠ 0)) else none

/-- An attribute that may be missing. -/
def optional {β : Type} (f : List UInt8 → Option β) : Option (List UInt8) → Option (Option β)
  | none => some none
  | some data => (f data).map some

def readIp (family : UInt16) (data : List UInt8) : Option IpAddr :=
  if family.toNat = afInet then (readVector 4 data).map .v4
  else if family.toNat = afInet6 then (readVector 16 data).map .v6
  else none

def readSockaddr (data : List UInt8) : Option SocketAddr := do
  let family := leValue (data.take 2)
  let port := UInt16.ofNat (256 * leValue ((data.drop 2).take 1) + leValue ((data.drop 3).take 1))
  if family = afInet ∧ data.length = 16 then do
    let ip ← readVector 4 ((data.drop 4).take 4)
    some (.v4 ip port)
  else if family = afInet6 ∧ data.length = 28 then do
    let ip ← readVector 16 ((data.drop 8).take 16)
    let flowinfo := leValue ((data.drop 4).take 4).reverse
    let scopeId := leValue (data.drop 24)
    some (.v6 ip port (UInt32.ofNat flowinfo) (UInt32.ofNat scopeId))
  else none

def readAllowedIp (data : List UInt8) : Option AllowedIp := do
  let l ← attrs data
  let family ← (find 1 l).bind readU16
  let ip ← (find 2 l).bind (readIp family)
  let cidr ← (find 3 l).bind (readVector 1)
  some ⟨ip, cidr[0]⟩

def readPeerAttrs (nums : PeerNumbers) (l : List Attr) : Option Peer := do
  let publicKey ← (find nums.publicKey l).bind (readVector 32)
  let endpoint ← optional readSockaddr (find nums.endpoint l)
  let persistentKeepalive ← optional readU16 (find nums.persistentKeepalive l)
  let allowedIps ← optional (nested readAllowedIp) (find nums.allowedIps l)
  some ⟨publicKey, endpoint, persistentKeepalive, allowedIps.getD []⟩

def readPeer (nums : PeerNumbers) (data : List UInt8) : Option Peer := do
  let l ← attrs data
  readPeerAttrs nums l

def readDeviceAttrs (nums : PeerNumbers) (l : List Attr) : Option Device := do
  let name ← (find 2 l).bind readCString
  let privateKey ← (find 3 l).bind (readVector 32)
  let listenPort ← optional readU16 (find 6 l)
  let flags ← optional readU32 (find 5 l)
  let peers ← optional (nested (readPeer nums)) (find 8 l)
  some ⟨name, privateKey, listenPort.getD 0, flags.any (· &&& 1 ≠ 0), peers.getD []⟩

/-- A message that configures a device: 16 bytes of netlink header, four of the generic one, and the
attributes of the device. -/
def readDevice (nums : PeerNumbers) (msg : List UInt8) : Option Device :=
  if leValue (msg.take 4) = msg.length ∧ (msg.drop 16).take 1 = [wgCmdSetDevice] then
    (attrs (msg.drop 20)).bind (readDeviceAttrs nums)
  else none

/-! What is read is no longer than what it is read from. -/

section Sizes
variable {nums : PeerNumbers} {p : Peer} {data : List UInt8}

/-- The bytes that an allowed address takes in the message. -/
def allowedIpSize (ip : AllowedIp) : ℕ :=
  match ip.ip with
  | .v4 _ => 12
  | .v6 _ => 24

def endpointSize : SocketAddr → ℕ
  | .v4 _ _ => 20
  | .v6 _ _ _ _ => 32

/-- The bytes that a peer takes in the message. -/
def peerSize (p : Peer) : ℕ :=
  40 + p.endpoint.elim 0 endpointSize + p.persistentKeepalive.elim 0 (fun _ => 8) +
    (p.allowedIps.map allowedIpSize).sum

theorem length_of_readVector {n : ℕ} {v : Vector UInt8 n} (h : readVector n data = some v) :
    data.length = n := by
  unfold readVector at h
  by_cases hlen : data.length = n
  · exact hlen
  · rw [dif_neg hlen] at h
    cases h

theorem length_of_readU16 {v : UInt16} (h : readU16 data = some v) : data.length = 2 := by
  unfold readU16 at h
  by_cases hlen : data.length = 2
  · exact hlen
  · rw [if_neg hlen] at h
    cases h

theorem readCString_spec {name : List UInt8} (h : readCString data = some name) :
    0 ∉ name ∧ name.length + 1 ≤ data.length := by
  unfold readCString at h
  by_cases hzero : data.contains 0
  · rw [if_pos hzero] at h
    cases h
    have hdrop : data.dropWhile (· ≠ 0) ≠ [] := fun hnil => by
      have hne := List.dropWhile_eq_nil_iff.1 hnil 0 (List.contains_iff_mem.1 hzero)
      simp at hne
    have hlen := congrArg List.length (List.takeWhile_append_dropWhile (p := (· ≠ 0)) (l := data))
    rw [List.length_append] at hlen
    have hpos := List.length_pos_iff.2 hdrop
    refine ⟨fun hmem => ?_, by omega⟩
    have hne := List.mem_takeWhile_imp hmem
    simp at hne
  · rw [if_neg hzero] at h
    cases h

theorem endpointSize_le {addr : SocketAddr} (h : readSockaddr data = some addr) :
    endpointSize addr ≤ 4 + align data.length := by
  have hle := le_align data.length
  unfold readSockaddr at h
  dsimp only at h
  by_cases hv4 : leValue (data.take 2) = afInet ∧ data.length = 16
  · rw [if_pos hv4] at h
    obtain ⟨ip, -, hip⟩ := Option.bind_eq_some_iff.1 h
    cases hip
    dsimp only [endpointSize]
    omega
  · rw [if_neg hv4] at h
    by_cases hv6 : leValue (data.take 2) = afInet6 ∧ data.length = 28
    · rw [if_pos hv6] at h
      obtain ⟨ip, -, hip⟩ := Option.bind_eq_some_iff.1 h
      cases hip
      dsimp only [endpointSize]
      omega
    · rw [if_neg hv6] at h
      cases h

/-- The address of an allowed address takes at least four bytes. -/
theorem length_of_readIp {family : UInt16} {ip : IpAddr} (h : readIp family data = some ip) :
    4 ≤ data.length := by
  unfold readIp at h
  by_cases hv4 : family.toNat = afInet
  · rw [if_pos hv4] at h
    obtain ⟨v, hv, -⟩ := Option.map_eq_some_iff.1 h
    exact Nat.le_of_eq (length_of_readVector hv).symm
  · rw [if_neg hv4] at h
    by_cases hv6 : family.toNat = afInet6
    · rw [if_pos hv6] at h
      obtain ⟨v, hv, -⟩ := Option.map_eq_some_iff.1 h
      have hlen := length_of_readVector hv
      omega
    · rw [if_neg hv6] at h
      cases h

/-- With its three attributes an allowed address takes no less than in the message. -/
theorem length_of_readAllowedIp {ip : AllowedIp} (h : readAllowedIp data = some ip) :
    24 ≤ data.length := by
  unfold readAllowedIp at h
  obtain ⟨l, hl, h⟩ := Option.bind_eq_some_iff.1 h
  obtain ⟨family, hfamily, h⟩ := Option.bind_eq_some_iff.1 h
  obtain ⟨addr, haddr, h⟩ := Option.bind_eq_some_iff.1 h
  obtain ⟨cidr, hcidr, -⟩ := Option.bind_eq_some_iff.1 h
  obtain ⟨d₁, hd₁, hfamily⟩ := Option.bind_eq_some_iff.1 hfamily
  obtain ⟨d₂, hd₂, haddr⟩ := Option.bind_eq_some_iff.1 haddr
  obtain ⟨d₃, hd₃, hcidr⟩ := Option.bind_eq_some_iff.1 hcidr
  have hsum := sum_find_le [1, 2, 3] (by decide) l
  rw [(cost_attrs hl).1] at hsum
  simp only [List.map_cons, List.map_nil, List.sum_cons, List.sum_nil, hd₁, hd₂, hd₃,
    Option.elim_some, length_of_readU16 hfamily, length_of_readVector hcidr] at hsum
  have hip := length_of_readIp haddr
  unfold align at hsum
  omega

theorem allowedIpSize_le (ip : AllowedIp) : allowedIpSize ip ≤ 24 := by
  unfold allowedIpSize
  cases ip.ip with
  | v4 octets => exact Nat.le_add_right 12 12
  | v6 octets => exact Nat.le_refl 24

theorem sum_allowedIps_le {ips : List AllowedIp} (h : nested readAllowedIp data = some ips) :
    (ips.map allowedIpSize).sum ≤ data.length := by
  refine sum_nested_le (fun {d ip} hip => ?_) h
  have hlen := length_of_readAllowedIp hip
  have hle := le_align d.length
  have hsize := allowedIpSize_le ip
  omega

theorem optional_none {β : Type} {f : List UInt8 → Option β} : optional f none = some none := rfl

theorem optional_size_le {β : Type} {f : List UInt8 → Option β} {size : β → ℕ}
    {o : Option (List UInt8)} {r : Option β}
    (hsize : ∀ {d b}, f d = some b → size b ≤ 4 + align d.length) (h : optional f o = some r) :
    r.elim 0 size ≤ o.elim 0 fun d => 4 + align d.length := by
  cases o with
  | none =>
    cases h
    exact Nat.le_refl 0
  | some d =>
    obtain ⟨b, hb, rfl⟩ := Option.map_eq_some_iff.1 h
    exact hsize hb

/-- A peer that is read takes no more bytes than there are. -/
theorem peerSize_le (h : readPeer nums data = some p) : peerSize p ≤ 4 + align data.length := by
  obtain ⟨l, hl, h⟩ := Option.bind_eq_some_iff.1 h
  obtain ⟨key, hkey, h⟩ := Option.bind_eq_some_iff.1 h
  obtain ⟨endpoint, hendpoint, h⟩ := Option.bind_eq_some_iff.1 h
  obtain ⟨keepalive, hkeepalive, h⟩ := Option.bind_eq_some_iff.1 h
  obtain ⟨ips, hips, h⟩ := Option.bind_eq_some_iff.1 h
  cases h
  obtain ⟨d, hd, hkey⟩ := Option.bind_eq_some_iff.1 hkey
  have hsum := sum_find_le _ nums.different l
  rw [(cost_attrs hl).1] at hsum
  simp only [List.map_cons, List.map_nil, List.sum_cons, List.sum_nil, hd, Option.elim_some,
    length_of_readVector hkey] at hsum
  have hle := le_align data.length
  have hendpointSize := optional_size_le endpointSize_le hendpoint
  have hkeepaliveSize : (keepalive.elim 0 fun _ => 8) ≤ _ :=
    optional_size_le (fun {d v} hv => by rw [length_of_readU16 hv]; decide) hkeepalive
  have hipsSize : (ips.elim 0 fun ips => (ips.map allowedIpSize).sum) ≤ _ :=
    optional_size_le (fun {d v} hv => by
      have hall := sum_allowedIps_le hv
      have hle := le_align d.length
      omega) hips
  have hnone : (ips.elim 0 fun ips => (ips.map allowedIpSize).sum) =
      ((ips.getD []).map allowedIpSize).sum := by
    cases ips <;> rfl
  have hkeySize : align 32 = 32 := rfl
  unfold peerSize
  dsimp only
  omega

end Sizes

end Quantra.WireGuard
