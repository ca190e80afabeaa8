import Quantra.Lib.Bytes

/-! The grammar of the commands that a TPM 2.0 takes: a header, the handles, the authorization area
where there are sessions, and the parameters. -/
namespace TpmCommand
open Bytes

/-- One session of the authorization area. -/
structure AuthCommand where
  handle : UInt32
  nonce : List UInt8
  attributes : UInt8
  hmac : List UInt8
  deriving DecidableEq, Repr

inductive SymDef
  | null
  | xor (hashAlg : UInt16)
  | cipher (alg keyBits mode : UInt16)
  deriving DecidableEq, Repr

/-- The registers of one bank, eight to a byte. -/
structure PcrSelection where
  hash : UInt16
  select : List UInt8
  deriving DecidableEq, Repr

def PcrSelection.selects (s : PcrSelection) (pcr : ℕ) : Bool :=
  (s.select[pcr / 8]?).any fun b => b.toNat.testBit (pcr % 8)

inductive Params
  | load (inPrivate inPublic : List UInt8)
  | startAuthSession (nonceCaller encryptedSalt : List UInt8) (sessionType : UInt8)
    (symmetric : SymDef) (authHash : UInt16)
  | policyPcr (pcrDigest : List UInt8) (pcrs : List PcrSelection)
  | unseal
  | flushContext (flushHandle : UInt32)
  | pcrExtend (digests : List (UInt16 × List UInt8))
  deriving DecidableEq, Repr

structure Command where
  handles : List UInt32
  auths : List AuthCommand
  params : Params
  deriving DecidableEq, Repr

def stNoSessions : UInt16 := 0x8001
def stSessions : UInt16 := 0x8002

def ccPolicyPcr : UInt32 := 0x17F
def ccPcrExtend : UInt32 := 0x182
def ccStartAuthSession : UInt32 := 0x176
def ccFlushContext : UInt32 := 0x165
def ccUnseal : UInt32 := 0x15E
def ccLoad : UInt32 := 0x157

def algXor : UInt16 := 0x000A
def algNull : UInt16 := 0x0010

/-- The bytes of a digest. -/
def digestSize (hashAlg : UInt16) : Option ℕ :=
  match hashAlg.toNat with
  | 0x0004 => some 20
  | 0x000B => some 32
  | 0x000C => some 48
  | 0x000D => some 64
  | 0x0012 => some 32
  | 0x0027 => some 32
  | 0x0028 => some 48
  | 0x0029 => some 64
  | _ => none

abbrev Decoder (α : Type) := List UInt8 → Option (α × List UInt8)

def u8 : Decoder UInt8
  | a :: rest => some (a, rest)
  | _ => none

def u16 : Decoder UInt16
  | a :: b :: rest => some (fromBeBytes16 a b, rest)
  | _ => none

def u32 : Decoder UInt32
  | a :: b :: c :: d :: rest => some (fromBeBytes a b c d, rest)
  | _ => none

def octets (n : ℕ) : Decoder (List UInt8) := fun bytes =>
  if n ≤ bytes.length then some (bytes.take n, bytes.drop n) else none

/-- Bytes behind their number. -/
def sized : Decoder (List UInt8) := fun bytes => do
  let (size, bytes) ← u16 bytes
  octets size.toNat bytes

def times {α : Type} (d : Decoder α) : ℕ → Decoder (List α)
  | 0, bytes => some ([], bytes)
  | n + 1, bytes => do
    let (a, bytes) ← d bytes
    let (as, bytes) ← times d n bytes
    some (a :: as, bytes)

/-- Elements behind their number. -/
def counted {α : Type} (d : Decoder α) : Decoder (List α) := fun bytes => do
  let (count, bytes) ← u32 bytes
  times d count.toNat bytes

def authCommand : Decoder AuthCommand := fun bytes => do
  let (handle, bytes) ← u32 bytes
  let (nonce, bytes) ← sized bytes
  let (attributes, bytes) ← u8 bytes
  let (hmac, bytes) ← sized bytes
  some ({ handle, nonce, attributes, hmac }, bytes)

/-- As many sessions as there are, up to three. -/
def authCommands : ℕ → List UInt8 → Option (List AuthCommand)
  | _, [] => some []
  | 0, _ => none
  | n + 1, bytes => do
    let (auth, bytes) ← authCommand bytes
    let auths ← authCommands n bytes
    some (auth :: auths)

/-- The authorization area behind its size. -/
def authArea (tag : UInt16) : Decoder (List AuthCommand) := fun bytes =>
  if tag = stSessions then do
    let (size, bytes) ← u32 bytes
    let (area, bytes) ← octets size.toNat bytes
    let auths ← authCommands 3 area
    if auths = [] then none else some (auths, bytes)
  else if tag = stNoSessions then some ([], bytes)
  else none

def symDef : Decoder SymDef := fun bytes => do
  let (alg, bytes) ← u16 bytes
  if alg = algNull then some (.null, bytes)
  else if alg = algXor then do
    let (hashAlg, bytes) ← u16 bytes
    some (.xor hashAlg, bytes)
  else do
    let (keyBits, bytes) ← u16 bytes
    let (mode, bytes) ← u16 bytes
    some (.cipher alg keyBits mode, bytes)

def pcrSelection : Decoder PcrSelection := fun bytes => do
  let (hash, bytes) ← u16 bytes
  let (size, bytes) ← u8 bytes
  let (select, bytes) ← octets size.toNat bytes
  some ({ hash, select }, bytes)

def digest : Decoder (UInt16 × List UInt8) := fun bytes => do
  let (hashAlg, bytes) ← u16 bytes
  let size ← digestSize hashAlg
  let (octets, bytes) ← octets size bytes
  some ((hashAlg, octets), bytes)

/-- The handles in front of the parameters, and how many of them need an authorization. -/
def handleCounts (code : UInt32) : Option (ℕ × ℕ) :=
  if code = ccLoad ∨ code = ccUnseal ∨ code = ccPcrExtend then some (1, 1)
  else if code = ccStartAuthSession then some (2, 0)
  else if code = ccPolicyPcr then some (1, 0)
  else if code = ccFlushContext then some (0, 0)
  else none

def params (code : UInt32) : Decoder Params := fun bytes =>
  if code = ccLoad then do
    let (inPrivate, bytes) ← sized bytes
    let (inPublic, bytes) ← sized bytes
    some (.load inPrivate inPublic, bytes)
  else if code = ccStartAuthSession then do
    let (nonceCaller, bytes) ← sized bytes
    let (encryptedSalt, bytes) ← sized bytes
    let (sessionType, bytes) ← u8 bytes
    let (symmetric, bytes) ← symDef bytes
    let (authHash, bytes) ← u16 bytes
    some (.startAuthSession nonceCaller encryptedSalt sessionType symmetric authHash, bytes)
  else if code = ccPolicyPcr then do
    let (pcrDigest, bytes) ← sized bytes
    let (pcrs, bytes) ← counted pcrSelection bytes
    some (.policyPcr pcrDigest pcrs, bytes)
  else if code = ccUnseal then some (.unseal, bytes)
  else if code = ccFlushContext then do
    let (flushHandle, bytes) ← u32 bytes
    some (.flushContext flushHandle, bytes)
  else if code = ccPcrExtend then do
    let (digests, bytes) ← counted digest bytes
    some (.pcrExtend digests, bytes)
  else none

structure Header where
  tag : UInt16
  size : UInt32
  code : UInt32
  deriving DecidableEq, Repr

def header : Decoder Header := fun bytes => do
  let (tag, bytes) ← u16 bytes
  let (size, bytes) ← u32 bytes
  let (code, bytes) ← u32 bytes
  some ({ tag, size, code }, bytes)

/-- A whole command: what the header says is its size, and nothing is left over. -/
def decode (bytes : List UInt8) : Option Command := do
  let (head, body) ← header bytes
  let (count, authorized) ← handleCounts head.code
  let (handles, body) ← times u32 count body
  let (auths, body) ← authArea head.tag body
  let (params, body) ← params head.code body
  if head.size.toNat = bytes.length ∧ authorized ≤ auths.length ∧ body = [] then
    some { handles, auths, params }
  else none

/-- The header gives the size, and the whole is the command. -/
structure Encodes (bytes : List UInt8) (c : Command) : Prop where
  size : ∃ head body, header bytes = some (head, body) ∧ head.size.toNat = bytes.length
  decoded : decode bytes = some c

section Lemmas
variable {rest bytes body body' body'' : List UInt8}

@[simp]
theorem u8_cons (a : UInt8) (rest : List UInt8) : u8 (a :: rest) = some (a, rest) := rfl

@[simp]
theorem u16_append (n : UInt16) (rest : List UInt8) :
    u16 (toBeBytes16 n ++ rest) = some (n, rest) :=
  congrArg (fun m => some (m, rest)) (fromBeBytes16_toBeBytes16 n)

@[simp]
theorem u32_append (n : UInt32) (rest : List UInt8) :
    u32 (toBeBytes n ++ rest) = some (n, rest) :=
  congrArg (fun m => some (m, rest)) (fromBeBytes_toBeBytes n)

theorem octets_append {n : ℕ} (h : bytes.length = n) (rest : List UInt8) :
    octets n (bytes ++ rest) = some (bytes, rest) := by
  subst h
  unfold octets
  rw [if_pos (by simp), List.take_left, List.drop_left]

theorem sized_append (h : bytes.length < 2 ^ 16) (rest : List UInt8) :
    sized (toBeBytes16 (UInt16.ofNat bytes.length) ++ (bytes ++ rest)) = some (bytes, rest) := by
  have hsize : (UInt16.ofNat bytes.length).toNat = bytes.length := UInt16.toNat_ofNat_of_lt' h
  unfold sized
  rw [u16_append]
  exact octets_append hsize.symm rest

@[simp]
theorem sized_nil (rest : List UInt8) : sized (toBeBytes16 0 ++ rest) = some ([], rest) :=
  @sized_append [] (by decide) rest

/-- An area of one session. -/
theorem authArea_append {auth : AuthCommand} (hsize : bytes.length < 2 ^ 32)
    (hauth : authCommand bytes = some (auth, [])) (rest : List UInt8) :
    authArea stSessions (toBeBytes (UInt32.ofNat bytes.length) ++ (bytes ++ rest)) =
      some ([auth], rest) := by
  have hlen : (UInt32.ofNat bytes.length).toNat = bytes.length := UInt32.toNat_ofNat_of_lt' hsize
  have hone : authCommands 3 bytes = some [auth] := by
    cases bytes with
    | nil => cases hauth
    | cons b bytes =>
      unfold authCommands
      rw [hauth]
      rfl
  unfold authArea
  rw [if_pos rfl, u32_append]
  simp only [Option.bind_eq_bind, Option.bind_some, octets_append hlen.symm, hone]
  rfl

theorem times_one {α : Type} {d : Decoder α} {a : α} (h : d bytes = some (a, rest)) :
    times d 1 bytes = some ([a], rest) := by
  unfold times
  rw [h]
  rfl

theorem counted_one {α : Type} {d : Decoder α} {a : α} (h : d bytes = some (a, rest)) :
    counted d (toBeBytes 1 ++ bytes) = some ([a], rest) := by
  unfold counted
  rw [u32_append]
  exact times_one h

/-- A header with the right size, and the areas behind it. -/
theorem encodes_of_layout {tag : UInt16} {size code : UInt32} {count authorized : ℕ}
    {handles : List UInt32} {auths : List AuthCommand} {ps : Params}
    (hsize : size.toNat = 10 + body.length)
    (hcounts : handleCounts code = some (count, authorized))
    (hhandles : times u32 count body = some (handles, body'))
    (hauths : authArea tag body' = some (auths, body''))
    (hparams : params code body'' = some (ps, [])) (hauthorized : authorized ≤ auths.length) :
    Encodes (toBeBytes16 tag ++ (toBeBytes size ++ (toBeBytes code ++ body)))
      { handles, auths, params := ps } := by
  have hhead : header (toBeBytes16 tag ++ (toBeBytes size ++ (toBeBytes code ++ body))) =
      some ({ tag, size, code }, body) := by
    simp [header]
  have htotal : size.toNat =
      (toBeBytes16 tag ++ (toBeBytes size ++ (toBeBytes code ++ body))).length := by
    simp only [List.length_append, length_toBeBytes16, length_toBeBytes]
    omega
  refine ⟨⟨_, _, hhead, htotal⟩, ?_⟩
  unfold decode
  simp only [hhead, Option.bind_eq_bind, Option.bind_some, hcounts, hhandles, hauths, hparams]
  simp only [htotal, hauthorized, and_self, if_true]

end Lemmas

end TpmCommand
