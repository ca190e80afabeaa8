import Quantra.Net.WireGuard.Message

/-! The replies that `wireguard.rs` reads from its netlink socket: the number of the family, and the
acknowledgement of the configuration. -/
namespace Quantra.WireGuard
open Bytes

def nlmsgError : UInt16 := 2

def genlIdCtrl : UInt16 := 0x10

def ctrlCmdGetfamily : UInt8 := 3

def ctrlAttrFamilyName : UInt16 := 2

def ctrlAttrFamilyId : UInt16 := 1

def wgGenlName : List UInt8 := asBytes "wireguard\x00"

/-! Reading with checked indices. An outer `none` is an index outside of the reply, or a loop that has
not come to its end. -/

/-- `u16::from_ne_bytes`. -/
def u16At (buf : List UInt8) (i : ℕ) : Option UInt16 := do
  let a ← buf[i]?
  let b ← buf[i + 1]?
  some (UInt16.ofNat (leValue [a, b]))

/-- `i32::from_ne_bytes`. -/
def i32At (buf : List UInt8) (i : ℕ) : Option Int32 := do
  let a ← buf[i]?
  let b ← buf[i + 1]?
  let c ← buf[i + 2]?
  let d ← buf[i + 3]?
  some (UInt32.ofNat (leValue [a, b, c, d])).toInt32

/-- The loop over the attributes of the family, which ends at the first number. -/
def familyLoop (resp : List UInt8) : ℕ → ℕ → Option (Option UInt16)
  | 0, _ => none
  | fuel + 1, i =>
    if i + 4 ≤ resp.length then do
      let nlaLen ← u16At resp i
      let nlaType ← u16At resp (i + 2)
      if nlaLen.toNat < 4 ∨ i + nlaLen.toNat > resp.length then some none
      else do
        let data ← Bytes.slice resp (i + 4) (i + nlaLen.toNat)
        if nlaType = ctrlAttrFamilyId ∧ data.length ≥ 2 then do
          let id ← u16At data 0
          some (some id)
        else familyLoop resp fuel (i + Nla.align nlaLen.toNat)
    else some none

/-- The number of the family in a reply. -/
def familyIn (resp : List UInt8) : Option (Option UInt16) :=
  familyLoop resp (resp.length + 1) (16 + 4)

/-- How the socket behaves: whether it opens, whether a message can be sent, and what is received next
once it has been. -/
structure NlSocket where
  opened : Except String Unit
  send : List UInt8 → Except String Unit
  recv : List UInt8 → Except String (List UInt8)

def familyRequest : List UInt8 :=
  finish (pushNlaStr (pushGenl (newMsg genlIdCtrl nlmFlags 1) ctrlCmdGetfamily) ctrlAttrFamilyName
    wgGenlName)

def resolveWireguardFamily (sock : NlSocket) : Option (Except String UInt16) :=
  match sock.send familyRequest with
  | .error e => some (.error e)
  | .ok () =>
    match sock.recv familyRequest with
    | .error e => some (.error e)
    | .ok resp => (familyIn resp).map fun
      | some id => .ok id
      | none => .error
        "WireGuard GENL family not found — is the wireguard kernel module loaded?"

section Send
variable (errorText : Int32 → String) (parseSocketAddr : String → Option SocketAddr)
  (parseIpAddr : String → Option IpAddr)

/-- What `wg_set_device` makes of the reply to its message. -/
def readAck (resp : List UInt8) : Option (Except String Unit) :=
  if resp.length ≥ 16 then do
    let msgType ← u16At resp 4
    if msgType = nlmsgError then do
      let errCode ← i32At resp 16
      if errCode ≠ 0 then
        some (.error ("WireGuard SET_DEVICE failed: errno=" ++ toString (-errCode) ++ " (" ++
          errorText (-errCode) ++ ")"))
      else some (.ok ())
    else some (.ok ())
  else some (.ok ())

/-- The arguments of `wg_set_device`. -/
structure DeviceConfig where
  name : String
  privateKeyB64 : String
  listenPort : UInt16
  peers : List WgPeerConfig
  replacePeers : Bool

/-- The message for a family with this number. -/
def DeviceConfig.message (cfg : DeviceConfig) (familyId : UInt16) : Except String (List UInt8) :=
  wgSetDevice parseSocketAddr parseIpAddr familyId cfg.name cfg.privateKeyB64 cfg.listenPort cfg.peers
    cfg.replacePeers

/-- `wg_set_device` with its socket. -/
def setDevice (sock : NlSocket) (cfg : DeviceConfig) : Option (Except String Unit) :=
  match sock.opened with
  | .error _ => some (.error "open GENL socket")
  | .ok () => (resolveWireguardFamily sock).bind fun
    | .error _ => some (.error "resolve WireGuard GENL family")
    | .ok familyId =>
      match cfg.message parseSocketAddr parseIpAddr familyId with
      | .error e => some (.error e)
      | .ok msg =>
        match sock.send msg with
        | .error e => some (.error e)
        | .ok () =>
          match sock.recv msg with
          | .error e => some (.error e)
          | .ok resp => readAck errorText resp

/-! What a reply should be taken for. -/

/-- It comes to this reply to the configuration: everything before it has gone well. -/
def Reached (sock : NlSocket) (cfg : DeviceConfig) (resp : List UInt8) : Prop :=
  sock.opened = .ok () ∧ sock.send familyRequest = .ok () ∧
    ∃ first familyId msg, sock.recv familyRequest = .ok first ∧
      familyIn first = some (some familyId) ∧
      cfg.message parseSocketAddr parseIpAddr familyId = .ok msg ∧
      sock.send msg = .ok () ∧ sock.recv msg = .ok resp

end Send

/-- A whole error message for the request with this number: a header that counts no more bytes than
there are, the code, and the header of the request. -/
structure IsAck (seq : ℕ) (code : Int32) (resp : List UInt8) : Prop where
  whole : 36 ≤ leValue (resp.take 4) ∧ leValue (resp.take 4) ≤ resp.length
  isError : u16At resp 4 = some nlmsgError
  sameSeq : leValue ((resp.drop 8).take 4) = seq
  hasCode : i32At resp 16 = some code

/-- An error message that holds a code, and is the acknowledgement of the configuration if the code
is 0. -/
structure Sound (resp : List UInt8) : Prop where
  hasCode : 20 ≤ resp.length
  isError : u16At resp 4 = some nlmsgError
  success : i32At resp 16 = some 0 → IsAck 2 0 resp

/-- No index is outside of a reply, and `Ok` stands for an acknowledgement of the configuration. -/
structure AckLaw (errorText : Int32 → String) (parseSocketAddr : String → Option SocketAddr)
    (parseIpAddr : String → Option IpAddr) (sock : NlSocket) (cfg : DeviceConfig) : Prop where
  inBounds : (setDevice errorText parseSocketAddr parseIpAddr sock cfg).isSome
  judged : setDevice errorText parseSocketAddr parseIpAddr sock cfg = some (.ok ()) →
    ∃ resp, Reached parseSocketAddr parseIpAddr sock cfg resp ∧ IsAck 2 0 resp

section Reading
variable {buf resp : List UInt8} {i : ℕ}

theorem u16At_of_le (buf : List UInt8) (i : ℕ) (h : i + 2 ≤ buf.length) : ∃ n, u16At buf i = some n := by
  unfold u16At
  rw [List.getElem?_eq_getElem (by omega), List.getElem?_eq_getElem (by omega)]
  exact ⟨_, rfl⟩

theorem i32At_of_le (buf : List UInt8) (i : ℕ) (h : i + 4 ≤ buf.length) : ∃ n, i32At buf i = some n := by
  unfold i32At
  rw [List.getElem?_eq_getElem (by omega), List.getElem?_eq_getElem (by omega),
    List.getElem?_eq_getElem (by omega), List.getElem?_eq_getElem (by omega)]
  exact ⟨_, rfl⟩

theorem i32At_of_short (h : buf.length < i + 4) : i32At buf i = none := by
  have hlast : buf[i + 3]? = none := List.getElem?_eq_none (by omega)
  unfold i32At
  rw [hlast]
  cases buf[i]? <;> cases buf[i + 1]? <;> cases buf[i + 2]? <;> rfl

/-- The loop moves on by four bytes at least. -/
theorem isSome_familyLoop {fuel : ℕ} (h : resp.length - i < fuel) :
    (familyLoop resp fuel i).isSome := by
  induction fuel generalizing i with
  | zero => omega
  | succ fuel ih =>
    unfold familyLoop
    by_cases hnext : i + 4 ≤ resp.length
    · obtain ⟨nlaLen, hlen⟩ := u16At_of_le resp i (by omega)
      obtain ⟨nlaType, htype⟩ := u16At_of_le resp (i + 2) (by omega)
      rw [if_pos hnext, hlen, htype]
      simp only [Option.bind_eq_bind, Option.bind_some]
      by_cases hbreak : nlaLen.toNat < 4 ∨ i + nlaLen.toNat > resp.length
      · rw [if_pos hbreak]
        rfl
      · rw [if_neg hbreak, Bytes.slice_eq (by omega) (by omega), Option.bind_some]
        by_cases hfound : nlaType = ctrlAttrFamilyId ∧
            ((resp.drop (i + 4)).take (i + nlaLen.toNat - (i + 4))).length ≥ 2
        · obtain ⟨id, hid⟩ := u16At_of_le _ 0 hfound.2
          rw [if_pos hfound, hid]
          rfl
        · have halign : nlaLen.toNat ≤ Nla.align nlaLen.toNat := Nla.le_align _
          rw [if_neg hfound]
          apply ih
          omega
    · rw [if_neg hnext]
      rfl

theorem isSome_familyIn (resp : List UInt8) : (familyIn resp).isSome :=
  isSome_familyLoop (by omega)

end Reading

section Law
variable {errorText : Int32 → String} {parseSocketAddr : String → Option SocketAddr}
  {parseIpAddr : String → Option IpAddr} {sock : NlSocket} {cfg : DeviceConfig} {resp : List UInt8}

theorem readAck_of_short (h : resp.length < 16) : readAck errorText resp = some (.ok ()) := by
  unfold readAck
  rw [if_neg (by omega)]

theorem readAck_of_other {msgType : UInt16} (hlen : 16 ≤ resp.length)
    (htype : u16At resp 4 = some msgType) (hne : msgType ≠ nlmsgError) :
    readAck errorText resp = some (.ok ()) := by
  unfold readAck
  rw [if_pos hlen, htype]
  simp only [Option.bind_eq_bind, Option.bind_some]
  rw [if_neg hne]

theorem readAck_of_error (hlen : 16 ≤ resp.length) (htype : u16At resp 4 = some nlmsgError) :
    readAck errorText resp = (i32At resp 16).map fun errCode =>
      if errCode ≠ 0 then
        .error ("WireGuard SET_DEVICE failed: errno=" ++ toString (-errCode) ++ " (" ++
          errorText (-errCode) ++ ")")
      else .ok () := by
  unfold readAck
  rw [if_pos hlen, htype]
  simp only [Option.bind_eq_bind, Option.bind_some, if_true]
  cases i32At resp 16 with
  | none => rfl
  | some errCode =>
    simp only [Option.bind_some, Option.map_some]
    split <;> rfl

/-- Exactly the sound replies are read without harm. -/
theorem readAck_iff (errorText : Int32 → String) : ((readAck errorText resp).isSome ∧
    (readAck errorText resp = some (.ok ()) → IsAck 2 0 resp)) ↔ Sound resp := by
  constructor
  · rintro ⟨hsome, hok⟩
    have hheader : 16 ≤ resp.length := by
      by_contra hshort
      have hack := hok (readAck_of_short (Nat.lt_of_not_le hshort))
      have hwhole := hack.whole
      omega
    have htype : u16At resp 4 = some nlmsgError := by
      obtain ⟨msgType, hread⟩ := u16At_of_le resp 4 (by omega)
      by_cases herror : msgType = nlmsgError
      · rw [hread, herror]
      · exact (hok (readAck_of_other hheader hread herror)).isError
    rw [readAck_of_error hheader htype] at hsome hok
    have hlen : 20 ≤ resp.length := by
      by_contra hshort
      rw [i32At_of_short (Nat.lt_of_not_le hshort)] at hsome
      cases hsome
    refine ⟨hlen, htype, ?_⟩
    intro hzero
    apply hok
    rw [hzero]
    rfl
  · rintro ⟨hlen, htype, hsuccess⟩
    obtain ⟨errCode, hcode⟩ := i32At_of_le resp 16 hlen
    rw [readAck_of_error (by omega) htype, hcode]
    refine ⟨rfl, ?_⟩
    intro hok
    by_cases hzero : errCode = 0
    · exact hsuccess (hcode.trans (congrArg some hzero))
    · rw [Option.map_some, if_pos hzero] at hok
      cases hok

theorem resolveWireguardFamily_of_ok {first : List UInt8} (hsend : sock.send familyRequest = .ok ())
    (hrecv : sock.recv familyRequest = .ok first) :
    resolveWireguardFamily sock = (familyIn first).map fun
      | some id => .ok id
      | none => .error
        "WireGuard GENL family not found — is the wireguard kernel module loaded?" := by
  unfold resolveWireguardFamily
  rw [hsend, hrecv]

/-- The number that is found is in the first reply. -/
theorem resolveWireguardFamily_cases (sock : NlSocket) :
    (∃ first familyId, sock.send familyRequest = .ok () ∧ sock.recv familyRequest = .ok first ∧
      familyIn first = some (some familyId) ∧
      resolveWireguardFamily sock = some (.ok familyId)) ∨
    ∃ e, resolveWireguardFamily sock = some (.error e) := by
  cases hsend : sock.send familyRequest with
  | error e =>
    refine .inr ⟨e, ?_⟩
    unfold resolveWireguardFamily
    rw [hsend]
  | ok u =>
    cases hrecv : sock.recv familyRequest with
    | error e =>
      refine .inr ⟨e, ?_⟩
      unfold resolveWireguardFamily
      rw [hsend, hrecv]
    | ok first =>
      have hresolve := resolveWireguardFamily_of_ok hsend hrecv
      obtain ⟨found, hfound⟩ := Option.isSome_iff_exists.1 (isSome_familyIn first)
      rw [hfound] at hresolve
      cases found with
      | none => exact .inr ⟨_, hresolve⟩
      | some familyId => exact .inl ⟨first, familyId, rfl, rfl, hfound, hresolve⟩

theorem isSome_resolveWireguardFamily (sock : NlSocket) : (resolveWireguardFamily sock).isSome := by
  obtain ⟨first, familyId, -, -, -, hresolve⟩ | ⟨e, hresolve⟩ := resolveWireguardFamily_cases sock
  · rw [hresolve]
    rfl
  · rw [hresolve]
    rfl

theorem setDevice_of_family {familyId : UInt16} (hopen : sock.opened = .ok ())
    (hfamily : resolveWireguardFamily sock = some (.ok familyId)) :
    setDevice errorText parseSocketAddr parseIpAddr sock cfg =
      match cfg.message parseSocketAddr parseIpAddr familyId with
      | .error e => some (.error e)
      | .ok msg =>
        match sock.send msg with
        | .error e => some (.error e)
        | .ok () =>
          match sock.recv msg with
          | .error e => some (.error e)
          | .ok resp => readAck errorText resp := by
  unfold setDevice
  rw [hopen, hfamily]
  simp only [Option.bind_some]

theorem setDevice_of_reached (errorText : Int32 → String)
    (h : Reached parseSocketAddr parseIpAddr sock cfg resp) :
    setDevice errorText parseSocketAddr parseIpAddr sock cfg = readAck errorText resp := by
  obtain ⟨hopen, hsend, first, familyId, msg, hrecv, hfamily, hmsg, hsend', hrecv'⟩ := h
  have hresolve := resolveWireguardFamily_of_ok hsend hrecv
  rw [hfamily] at hresolve
  rw [setDevice_of_family hopen hresolve, hmsg]
  simp only [hsend', hrecv']

/-- The outcome is what is made of the reply that is reached, or else an error. -/
theorem setDevice_cases (errorText : Int32 → String)
    (parseSocketAddr : String → Option SocketAddr) (parseIpAddr : String → Option IpAddr)
    (sock : NlSocket) (cfg : DeviceConfig) :
    (∃ resp, Reached parseSocketAddr parseIpAddr sock cfg resp) ∨
    ∃ e, setDevice errorText parseSocketAddr parseIpAddr sock cfg = some (.error e) := by
  cases hopen : sock.opened with
  | error e =>
    refine .inr ⟨"open GENL socket", ?_⟩
    unfold setDevice
    rw [hopen]
  | ok u =>
    obtain ⟨first, familyId, hsend, hrecv, hfamily, hresolve⟩ | ⟨e, hresolve⟩ :=
      resolveWireguardFamily_cases sock
    · rw [setDevice_of_family hopen hresolve]
      cases hmsg : cfg.message parseSocketAddr parseIpAddr familyId with
      | error e => exact .inr ⟨e, rfl⟩
      | ok msg =>
        cases hsend' : sock.send msg with
        | error e => exact .inr ⟨e, by simp only [hsend']⟩
        | ok u =>
          cases hrecv' : sock.recv msg with
          | error e => exact .inr ⟨e, by simp only [hsend', hrecv']⟩
          | ok resp =>
            exact .inl ⟨resp, hopen, hsend, first, familyId, msg, hrecv, hfamily, hmsg, hsend',
              hrecv'⟩
    · refine .inr ⟨"resolve WireGuard GENL family", ?_⟩
      unfold setDevice
      rw [hopen, hresolve]
      simp only [Option.bind_some]

theorem reached_unique {resp' : List UInt8} (h : Reached parseSocketAddr parseIpAddr sock cfg resp)
    (h' : Reached parseSocketAddr parseIpAddr sock cfg resp') : resp = resp' := by
  obtain ⟨-, -, first, familyId, msg, hfirst, hfamily, hmsg, -, hresp⟩ := h
  obtain ⟨-, -, first', familyId', msg', hfirst', hfamily', hmsg', -, hresp'⟩ := h'
  obtain rfl : first = first' := Except.ok.inj (hfirst.symm.trans hfirst')
  obtain rfl : familyId = familyId' :=
    Option.some.inj (Option.some.inj (hfamily.symm.trans hfamily'))
  obtain rfl : msg = msg' := Except.ok.inj (hmsg.symm.trans hmsg')
  exact Except.ok.inj (hresp.symm.trans hresp')

/-- The family is looked up without harm, and the configuration is judged rightly exactly if the reply
that is reached is sound. -/
theorem ackLaw_iff (errorText : Int32 → String) (parseSocketAddr : String → Option SocketAddr)
    (parseIpAddr : String → Option IpAddr) (sock : NlSocket) (cfg : DeviceConfig) :
    (resolveWireguardFamily sock).isSome ∧
    (AckLaw errorText parseSocketAddr parseIpAddr sock cfg ↔
      ∀ resp, Reached parseSocketAddr parseIpAddr sock cfg resp → Sound resp) := by
  refine ⟨isSome_resolveWireguardFamily sock, ?_⟩
  by_cases hreach : ∃ resp, Reached parseSocketAddr parseIpAddr sock cfg resp
  · obtain ⟨resp, hreached⟩ := hreach
    have hdevice := setDevice_of_reached errorText hreached
    constructor
    · rintro ⟨hbounds, hjudged⟩ resp' hreached'
      obtain rfl := reached_unique hreached' hreached
      rw [hdevice] at hbounds hjudged
      refine (readAck_iff errorText).1 ⟨hbounds, ?_⟩
      intro hok
      obtain ⟨ack, hack, hisAck⟩ := hjudged hok
      rwa [reached_unique hreached hack]
    · intro hsound
      obtain ⟨hbounds, hjudged⟩ := (readAck_iff errorText).2 (hsound resp hreached)
      rw [← hdevice] at hbounds hjudged
      exact ⟨hbounds, fun hok => ⟨resp, hreached, hjudged hok⟩⟩
  · have hnever : ∀ resp, Reached parseSocketAddr parseIpAddr sock cfg resp → Sound resp :=
      fun resp hreached => (hreach ⟨resp, hreached⟩).elim
    obtain ⟨e, herror⟩ := (setDevice_cases errorText parseSocketAddr parseIpAddr sock cfg).resolve_left
      hreach
    have hlaw : AckLaw errorText parseSocketAddr parseIpAddr sock cfg := by
      constructor <;> simp [herror]
    exact iff_of_true hlaw hnever

end Law

/-- A socket that gives the one reply to the request for the family, and the other to everything
else. -/
def replying (first second : List UInt8) : NlSocket where
  opened := .ok ()
  send _ := .ok ()
  recv msg := if msg[8]? = some 1 then .ok first else .ok second

/-- The number of the family is 28. -/
def familyReply : List UInt8 :=
  finish (pushNlaU16 (pushGenl (newMsg genlIdCtrl 0 1) 1) ctrlAttrFamilyId 28)

/-- The acknowledgement of the request for the family. -/
def lookupAck : List UInt8 :=
  finish (newMsg nlmsgError 0 1 ++ leBytes 4 0 ++ familyRequest.take 16)

def zeroConfig : DeviceConfig where
  name := "wg0"
  privateKeyB64 := "AAAAAAAAAAAAAAAAAAAAAAAAAAAAAAAAAAAAAAAAAAA="
  listenPort := 51820
  peers := []
  replacePeers := true

/-- The lookup's acknowledgement is taken for that of the configuration, and a lone header is read
past its end. -/
theorem lookup_ack_taken :
    ¬AckLaw (fun _ => "") (fun _ => none) (fun _ => none) (replying familyReply lookupAck)
        zeroConfig ∧
      ¬AckLaw (fun _ => "") (fun _ => none) (fun _ => none)
        (replying familyReply (finish (newMsg nlmsgError 0 2))) zeroConfig := by
  constructor
  · intro h
    obtain ⟨resp, ⟨-, -, first, familyId, msg, -, -, -, -, hresp⟩, hack⟩ :=
      h.judged (by decide +kernel)
    have hseq := hack.sameSeq
    have hreply : resp = familyReply ∨ resp = lookupAck := by
      unfold replying at hresp
      dsimp only at hresp
      split at hresp
      · exact .inl (Except.ok.inj hresp).symm
      · exact .inr (Except.ok.inj hresp).symm
    rcases hreply with rfl | rfl
    · exact absurd hseq (by decide +kernel)
    · exact absurd hseq (by decide +kernel)
  · intro h
    exact absurd h.inBounds (by decide +kernel)

end Quantra.WireGuard
