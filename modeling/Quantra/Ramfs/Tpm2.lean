import Quantra.Lib.Calls
import Quantra.Lib.JsonText
import Quantra.Lib.TpmCommand
import Mathlib.Data.Int.Notation

/-! `tpm2.rs`: how the key of the root is got out of the TPM, and the commands that are sent for it.
The texts of log lines are left out. -/
namespace Quantra.Tpm2
open Bytes Calls Calls.Prog Text

def tpm2StNoSessions : UInt16 := 0x8001
def tpm2StSessions : UInt16 := 0x8002
def tpm2CcStartAuthSession : UInt32 := 0x0176
def tpm2CcPolicyPcr : UInt32 := 0x017F
def tpm2CcUnseal : UInt32 := 0x015E
def tpm2CcFlushContext : UInt32 := 0x0165
def tpm2CcLoad : UInt32 := 0x0157
def tpm2CcPcrExtend : UInt32 := 0x0182

def tpm2SePolicy : UInt8 := 0x01
def tpm2AlgNull : UInt16 := 0x0010
def tpm2AlgSha256 : UInt16 := 0x000B
def tpm2RhNull : UInt32 := 0x40000007
def tpm2RsPw : UInt32 := 0x40000009

def tpm2RcSuccess : UInt32 := 0x000

/-- The registers 0, 1, 7 and 8. -/
def defaultPcrMask : UInt32 :=
  ((1 : UInt32) <<< 0) ||| ((1 : UInt32) <<< 1) ||| ((1 : UInt32) <<< 7) ||| ((1 : UInt32) <<< 8)

def blobPath : String := "/overlayer/syshub/etc/zainium/tpm2-luks-blob"

def parentHandlePath : String := "/overlayer/syshub/etc/zainium/tpm2-parent-handle"

def pcrMaskPath : String := "/overlayer/syshub/etc/zainium/tpm2-pcr-mask"

/-! The commands. -/

/-- An authorization with an empty nonce, no attributes and an empty password. -/
def emptyAuth (handle : UInt32) : List UInt8 :=
  toBeBytes handle ++ toBeBytes16 0 ++ [(0 : UInt8)] ++ toBeBytes16 0

def buildPwAuthArea : List UInt8 := emptyAuth tpm2RsPw

def buildPolicyAuthArea (session : UInt32) : List UInt8 := emptyAuth session

/-- The selection has three bytes, for 24 registers. -/
def buildPcrSelection (mask : UInt32) : List UInt8 :=
  toBeBytes 1 ++ toBeBytes16 tpm2AlgSha256 ++ [(3 : UInt8)] ++ [(mask &&& 0xFF).toUInt8] ++
    [((mask >>> 8) &&& 0xFF).toUInt8] ++ [((mask >>> 16) &&& 0xFF).toUInt8]

def loadCommand (parent : UInt32) (publicArea privateArea : List UInt8) : List UInt8 :=
  let authArea := buildPwAuthArea
  let privSize := UInt16.ofNat privateArea.length
  let pubSize := UInt16.ofNat publicArea.length
  let bodySize := 4 + 4 + authArea.length + 2 + privateArea.length + 2 + publicArea.length
  let total := 10 + bodySize
  toBeBytes16 tpm2StSessions ++ toBeBytes (UInt32.ofNat total) ++ toBeBytes tpm2CcLoad ++
    toBeBytes parent ++ toBeBytes (UInt32.ofNat authArea.length) ++ authArea ++
    toBeBytes16 privSize ++ privateArea ++ toBeBytes16 pubSize ++ publicArea

def startAuthSessionCommand : List UInt8 :=
  let bodySize := 4 + 4 + 2 + 2 + 1 + 2 + 2
  let total := 10 + bodySize
  toBeBytes16 tpm2StNoSessions ++ toBeBytes (UInt32.ofNat total) ++
    toBeBytes tpm2CcStartAuthSession ++ toBeBytes tpm2RhNull ++ toBeBytes tpm2RhNull ++
    toBeBytes16 0 ++ toBeBytes16 0 ++ [tpm2SePolicy] ++ toBeBytes16 tpm2AlgNull ++
    toBeBytes16 tpm2AlgSha256

def policyPcrCommand (session pcrMask : UInt32) : List UInt8 :=
  let pcrSel := buildPcrSelection pcrMask
  let bodySize := 4 + 2 + pcrSel.length
  let total := 10 + bodySize
  toBeBytes16 tpm2StNoSessions ++ toBeBytes (UInt32.ofNat total) ++ toBeBytes tpm2CcPolicyPcr ++
    toBeBytes session ++ toBeBytes16 0 ++ pcrSel

def unsealCommand (object session : UInt32) : List UInt8 :=
  let authArea := buildPolicyAuthArea session
  let bodySize := 4 + 4 + authArea.length
  let total := 10 + bodySize
  toBeBytes16 tpm2StSessions ++ toBeBytes (UInt32.ofNat total) ++ toBeBytes tpm2CcUnseal ++
    toBeBytes object ++ toBeBytes (UInt32.ofNat authArea.length) ++ authArea

def flushContextCommand (handle : UInt32) : List UInt8 :=
  toBeBytes16 tpm2StNoSessions ++ toBeBytes 14 ++ toBeBytes tpm2CcFlushContext ++ toBeBytes handle

/-- The command of `extend_pcr` in `measured_boot.rs`. -/
def extendPcrCommand (pcrIndex : UInt32) (digest : Vector UInt8 32) : List UInt8 :=
  let auth := emptyAuth tpm2RsPw
  let digests := toBeBytes 1 ++ toBeBytes16 tpm2AlgSha256 ++ digest.toList
  let body := 4 + 4 + auth.length + digests.length
  let total := 10 + body
  toBeBytes16 tpm2StSessions ++ toBeBytes (UInt32.ofNat total) ++ toBeBytes tpm2CcPcrExtend ++
    toBeBytes pcrIndex ++ toBeBytes (UInt32.ofNat auth.length) ++ auth ++ digests

/-! What is read: the enrollment blob and the responses. -/

/-- Why a function does not come to its end. -/
inductive Stop
  | error (text : String)
  | panic
  deriving DecidableEq, Repr

def fail {α : Type} (text : String) : Except Stop α := .error (.error text)

def index (buf : List UInt8) (i : ℕ) : Except Stop UInt8 := buf[i]?.elim (.error .panic) .ok

def range (buf : List UInt8) (i j : ℕ) : Except Stop (List UInt8) :=
  (slice buf i j).elim (.error .panic) .ok

def u16At (buf : List UInt8) (i : ℕ) : Except Stop UInt16 := do
  let a ← index buf i
  let b ← index buf (i + 1)
  .ok (fromBeBytes16 a b)

def u32At (buf : List UInt8) (i : ℕ) : Except Stop UInt32 := do
  let a ← index buf i
  let b ← index buf (i + 1)
  let c ← index buf (i + 2)
  let d ← index buf (i + 3)
  .ok (fromBeBytes a b c d)

def parseBlob (blob : List UInt8) : Except Stop (List UInt8 × List UInt8) :=
  if blob.length < 4 then fail "TPM2 blob too short"
  else do
    let pubSize := (← u16At blob 0).toNat
    if blob.length < 2 + pubSize + 2 then
      fail ("TPM2 blob truncated: pub_size=" ++ toString pubSize ++ " but blob len=" ++
        toString blob.length)
    else do
      let publicArea ← range blob 2 (2 + pubSize)
      let privOffset := 2 + pubSize
      let privSize := (← u16At blob privOffset).toNat
      if blob.length < privOffset + 2 + privSize then
        fail "TPM2 blob private area truncated"
      else do
        let privateArea ← range blob (privOffset + 2) (privOffset + 2 + privSize)
        .ok (publicArea, privateArea)

/-- The handle in the response to a command that creates one. -/
def handleOf (least : ℕ) (tooShort : String) (resp : List UInt8) : Except Stop UInt32 :=
  if resp.length < least then fail tooShort else u32At resp 10

def loadResponse : List UInt8 → Except Stop UInt32 :=
  handleOf 18 "TPM2_CC_LOAD response too short"

def startAuthSessionResponse : List UInt8 → Except Stop UInt32 :=
  handleOf 14 "TPM2_StartAuthSession response too short"

def unsealResponse (resp : List UInt8) : Except Stop (List UInt8) :=
  if resp.length < 16 then fail "TPM2_Unseal response too short"
  else do
    let _paramSize ← u32At resp 10
    let dataOffset := 14
    if resp.length < dataOffset + 2 then fail "TPM2_Unseal data too short"
    else do
      let dataSize := (← u16At resp dataOffset).toNat
      if resp.length < dataOffset + 2 + dataSize then
        fail ("TPM2_Unseal truncated: need " ++ toString (dataOffset + 2 + dataSize) ++ " bytes")
      else range resp (dataOffset + 2) (dataOffset + 2 + dataSize)

/-- `format!("{:08X}", n)`. -/
def hex8 (n : UInt32) : String :=
  toAsciiUppercase (String.ofList ((Nat.toDigits 16 n.toNat).leftpad 8 '0'))

/-! The device. -/

/-- `read` answers the command `cmd`, which has been written. -/
inductive Call
  | readFile (path : String)
  | readToString (path : String)
  | openDevice (path : String)
  | write (bytes : List UInt8)
  | read (cmd : List UInt8)
  | close
  deriving DecidableEq, Repr

/-- An answer; each call reads the part that it is about. `count` is what `write` returns, and
`osError` the text of the last error of the system. -/
structure Reply where
  result : Except String Unit := .ok ()
  data : List UInt8 := []
  text : String := ""
  count : ℤ := 0
  osError : String := ""

abbrev Tpm (α : Type) := Prog Call Reply α

/-- Each write takes at least one of the bytes. -/
def writeAll : ℕ → List UInt8 → Tpm (Except Stop Unit)
  | 0, _ => done
  | _ + 1, [] => done
  | n + 1, b :: rest => call (.write (b :: rest)) fun r =>
    if r.count ≤ 0 then ret (fail ("TPM2 write: " ++ r.osError))
    else writeAll n ((b :: rest).drop r.count.toNat)

/-- The bytes that `read` has put into the buffer, and what it returns. -/
def Reply.received (r : Reply) : List UInt8 × ℤ :=
  match r.result with
  | .ok _ => (r.data.take 4096, (r.data.take 4096).length)
  | .error _ => ([], -1)

def checkResponse (r : Reply) : Except Stop (List UInt8) :=
  let (resp, n) := r.received
  if n < 10 then
    fail ("TPM2 read short response (" ++ toString n ++ " bytes): " ++ r.osError)
  else do
    let rc ← u32At resp 6
    if rc ≠ tpm2RcSuccess then fail ("TPM2 command failed: RC=0x" ++ hex8 rc)
    else .ok resp

def tpm2Send (cmd : List UInt8) : Tpm (Except Stop (List UInt8)) :=
  (writeAll cmd.length cmd).check (fun _ => call (.read cmd) fun r => ret (checkResponse r))
    fun e => ret (.error e)

/-- A command whose response is read by `part`. -/
def exchange {α : Type} (cmd : List UInt8) (part : List UInt8 → Except Stop α) :
    Tpm (Except Stop α) :=
  (tpm2Send cmd).check (fun resp => ret (part resp)) fun e => ret (.error e)

def tpm2Load (parent : UInt32) (publicArea privateArea : List UInt8) : Tpm (Except Stop UInt32) :=
  exchange (loadCommand parent publicArea privateArea) loadResponse

def tpm2StartAuthSession : Tpm (Except Stop UInt32) :=
  exchange startAuthSessionCommand startAuthSessionResponse

def tpm2PolicyPcr (session pcrMask : UInt32) : Tpm (Except Stop Unit) :=
  exchange (policyPcrCommand session pcrMask) fun _ => .ok ()

def tpm2Unseal (object session : UInt32) : Tpm (Except Stop (List UInt8)) :=
  exchange (unsealCommand object session) unsealResponse

def tpm2FlushContext (handle : UInt32) : Tpm (Except Stop Unit) :=
  exchange (flushContextCommand handle) fun _ => .ok ()

def openTpmDevice : Tpm (Except Stop Unit) :=
  call (.openDevice "/dev/tpmrm0") fun managed =>
    if managed.result.isOk then done
    else call (.openDevice "/dev/tpm0") fun raw =>
      if raw.result.isOk then done
      else ret (fail ("TPM2 device not found (/dev/tpmrm0, /dev/tpm0): " ++ raw.osError))

def readParentHandle : Tpm (Except Stop UInt32) :=
  call (.readFile parentHandlePath) fun r => ret (
    match r.result with
    | .error e => fail ("read parent handle '" ++ parentHandlePath ++ "': " ++ e)
    | .ok _ => if r.data.length < 4 then fail "parent handle file too short" else u32At r.data 0)

/-- `trim_start_matches("0x")`. -/
def trimHexPrefixes : List Char → List Char
  | '0' :: 'x' :: cs => trimHexPrefixes cs
  | cs => cs

/-- `u32::from_str_radix` in base 16. -/
def fromStrRadix16 (cs : List Char) : Option UInt32 :=
  let digits := match cs with
    | '+' :: rest => rest
    | cs => cs
  if digits = [] then none
  else (digits.mapM Json.hexValue).bind fun ds =>
    let n := ds.foldl (fun n d => 16 * n + d) 0
    if n < 2 ^ 32 then some (UInt32.ofNat n) else none

def readPcrMask : Tpm UInt32 :=
  call (.readToString pcrMaskPath) fun r => ret (
    if r.result.isOk then
      (fromStrRadix16 (trimHexPrefixes (trim r.text).toList)).getD defaultPcrMask
    else defaultPcrMask)

/-- The steps from the policy session on. -/
def unsealLoaded (objectHandle : UInt32) : Tpm (Except Stop (List UInt8)) :=
  tpm2StartAuthSession.check (fun sessionHandle =>
    readPcrMask.bind fun pcrMask =>
      (tpm2PolicyPcr sessionHandle pcrMask).check (fun _ =>
        (tpm2Unseal objectHandle sessionHandle).check (fun key =>
          (tpm2FlushContext sessionHandle).bind fun _ =>
            (tpm2FlushContext objectHandle).bind fun _ => ret (.ok key))
          fun e => ret (.error e))
        fun e => ret (.error e))
    fun e => ret (.error e)

/-- The steps with the device open. -/
def unsealWith (blob : List UInt8) (parentHandle : UInt32) : Tpm (Except Stop (List UInt8)) :=
  (ret (parseBlob blob)).check (fun areas =>
    (tpm2Load parentHandle areas.1 areas.2).check unsealLoaded fun e => ret (.error e))
    fun e => ret (.error e)

/-- The device is closed on every way out. -/
def unsealLuksKey : Tpm (Except Stop (List UInt8)) :=
  call (.readFile blobPath) fun r =>
    match r.result with
    | .error e => ret (fail ("read TPM2 blob '" ++ blobPath ++ "': " ++ e))
    | .ok _ =>
      if r.data.length < 8 then ret (fail "TPM2 blob too small — corrupted?")
      else readParentHandle.check (fun parentHandle =>
          openTpmDevice.check (fun _ => (unsealWith r.data parentHandle).bind fun key =>
              call .close fun _ => ret key)
            fun e => ret (.error e))
        fun e => ret (.error e)

end Quantra.Tpm2
