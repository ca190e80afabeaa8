import Quantra.Lib.Bytes
import Mathlib.Data.List.Basic

/-! `query_sntp`: the request, and what a reply is taken for. -/
namespace Quantra.System

/-- Seconds from 1900 to 1970. -/
def ntpEpochOffset : ℕ := 2208988800

/-- 2024-01-01. -/
def oldestAccepted : ℕ := 1704067200

def unixToNtp (unixSecs : UInt64) : UInt64 := (unixSecs + 2208988800) <<< 32

/-- The packet that is sent at `t1`; `none` where building it panics. -/
def buildRequest (t1 : UInt64) : Option (List UInt8) :=
  let packet := 0x23 :: List.replicate 47 0
  let t1Ntp := unixToNtp t1
  (Bytes.copyFromSlice packet 24 28 (Bytes.toBeBytes64 (t1Ntp >>> 32))).bind fun packet =>
    Bytes.copyFromSlice packet 28 32 (Bytes.toBeBytes (t1Ntp &&& 0xffffffff).toUInt32)

/-- The mode of a packet, its three lowest bits. -/
def modeOf (datagram : List UInt8) : UInt8 := datagram.getD 0 0 &&& 7

def stratumOf (datagram : List UInt8) : UInt8 := datagram.getD 1 0

/-- The seconds of the transmit timestamp. -/
def transmitSeconds (datagram : List UInt8) : ℕ :=
  (Bytes.fromBeBytes (datagram.getD 40 0) (datagram.getD 41 0) (datagram.getD 42 0)
    (datagram.getD 43 0)).toNat

/-- What `query_sntp` does with the datagram that it receives, of which 48 bytes fit. -/
def readReply (datagram : List UInt8) : Except String ℕ :=
  let response := datagram.take 48
  if response.length < 48 then
    .error ("NTP response too short: " ++ toString response.length ++ " bytes (need 48)")
  else if modeOf response ≠ 4 ∧ modeOf response ≠ 5 then
    .error ("unexpected NTP mode in response: " ++ toString (modeOf response))
  else if stratumOf response = 0 then
    .error "NTP server sent Kiss-of-Death packet (stratum=0)"
  else if transmitSeconds response < ntpEpochOffset then
    .error ("NTP timestamp too old: " ++ toString (transmitSeconds response) ++
      " (before Unix epoch)")
  else if transmitSeconds response - ntpEpochOffset < oldestAccepted then
    .error ("NTP timestamp implausibly old: " ++
      toString (transmitSeconds response - ntpEpochOffset) ++ " (before 2024-01-01)")
  else .ok (transmitSeconds response - ntpEpochOffset)

/-- `query_sntp` at this clock, with this datagram as the answer; `none` where it panics. -/
def querySntp (t1 : UInt64) (datagram : List UInt8) : Option (Except String ℕ) :=
  (buildRequest t1).map fun _ => readReply datagram

/-! What a query is to do. -/

/-- A reply of a server whose transmit timestamp is `t`, one of the 2^32 seconds from 2024 on. -/
structure Replies (datagram : List UInt8) (t : ℕ) : Prop where
  long : 48 ≤ datagram.length
  mode : modeOf datagram = 4
  stratum : 1 ≤ stratumOf datagram ∧ stratumOf datagram ≤ 15
  recent : oldestAccepted ≤ t ∧ t < oldestAccepted + 2 ^ 32
  seconds : transmitSeconds datagram = (t + ntpEpochOffset) % 2 ^ 32

/-- The request is built, a reply gives its time and all else an error. -/
structure Synchronizes (t1 : UInt64) (datagram : List UInt8) : Prop where
  request : ∃ packet, buildRequest t1 = some packet ∧ packet.length = 48
  reply : ∀ t, Replies datagram t → querySntp t1 datagram = some (.ok t)
  other : (¬ ∃ t, Replies datagram t) → ∃ e, querySntp t1 datagram = some (.error e)

/-! The reply. -/

section Reply
variable {datagram : List UInt8} {t : ℕ}

theorem modeOf_take : modeOf (datagram.take 48) = modeOf datagram := by
  simp [modeOf, List.getD_eq_getElem?_getD]

theorem stratumOf_take : stratumOf (datagram.take 48) = stratumOf datagram := by
  simp [stratumOf, List.getD_eq_getElem?_getD]

theorem transmitSeconds_take :
    transmitSeconds (datagram.take 48) = transmitSeconds datagram := by
  simp [transmitSeconds, List.getD_eq_getElem?_getD]

theorem transmitSeconds_lt : transmitSeconds datagram < 2 ^ 32 := UInt32.toNat_lt _

theorem readReply_eq_ok_iff : readReply datagram = .ok t ↔ 48 ≤ datagram.length ∧
    (modeOf datagram = 4 ∨ modeOf datagram = 5) ∧ stratumOf datagram ≠ 0 ∧
    oldestAccepted ≤ t ∧ transmitSeconds datagram = t + ntpEpochOffset := by
  have hlen : (datagram.take 48).length < 48 ↔ datagram.length < 48 := by
    rw [List.length_take]
    omega
  unfold readReply
  dsimp only
  rw [modeOf_take, stratumOf_take, transmitSeconds_take]
  split_ifs with hshort hmode hkiss hearly hold
  · rw [hlen] at hshort
    refine iff_of_false (by simp) fun h => ?_
    have hlong := h.1
    omega
  · refine iff_of_false (by simp) fun h => ?_
    obtain hfour | hfive := h.2.1
    · exact hmode.1 hfour
    · exact hmode.2 hfive
  · exact iff_of_false (by simp) fun h => h.2.2.1 hkiss
  · refine iff_of_false (by simp) fun h => ?_
    have hseconds := h.2.2.2.2
    omega
  · refine iff_of_false (by simp) fun h => ?_
    have hrange := h.2.2.2
    omega
  · rw [hlen] at hshort
    rw [not_and_or, not_not, not_not] at hmode
    have hlong : 48 ≤ datagram.length := Nat.le_of_not_lt hshort
    rw [Except.ok.injEq]
    constructor
    · intro heq
      refine ⟨hlong, hmode, hkiss, ?_, ?_⟩
      · omega
      · omega
    · intro h
      have hseconds := h.2.2.2.2
      omega

/-- A reply is read until the seconds of a timestamp begin again in 2036, and not from then on. -/
theorem readReply_of_replies (h : Replies datagram t) :
    readReply datagram = .ok t ↔ t < 2 ^ 32 - ntpEpochOffset := by
  have hseconds := h.seconds
  have hlt : transmitSeconds datagram < 2 ^ 32 := transmitSeconds_lt
  have hrange := h.recent
  have hstratum : stratumOf datagram ≠ 0 := by
    intro hzero
    have hone := h.stratum.1
    rw [hzero] at hone
    exact absurd hone (by decide)
  unfold ntpEpochOffset at *
  unfold oldestAccepted at *
  rw [readReply_eq_ok_iff]
  constructor
  · intro hok
    have hexact := hok.2.2.2.2
    unfold ntpEpochOffset at hexact
    omega
  · intro hearly
    refine ⟨h.long, .inl h.mode, hstratum, hrange.1, ?_⟩
    unfold ntpEpochOffset
    omega

/-- What is taken for a reply and is none is a broadcast, or from a server without a clock. -/
theorem readReply_of_not_replies (h : ¬ ∃ t, Replies datagram t)
    (hok : readReply datagram = .ok t) : modeOf datagram = 5 ∨ 15 < stratumOf datagram := by
  obtain ⟨hlong, hmode, hstratum, hrange, hseconds⟩ := readReply_eq_ok_iff.1 hok
  have hlt : transmitSeconds datagram < 2 ^ 32 := transmitSeconds_lt
  by_contra hno
  rw [not_or] at hno
  have hone : 1 ≤ stratumOf datagram := by
    rw [UInt8.le_iff_toNat_le]
    have hpos : (stratumOf datagram).toNat ≠ 0 := fun hzero => hstratum (UInt8.toNat_inj.1 hzero)
    have hunit : (1 : UInt8).toNat = 1 := rfl
    omega
  refine h ⟨t, hlong, hmode.resolve_right hno.1, ⟨hone, UInt8.not_lt.1 hno.2⟩,
    ⟨hrange, ?_⟩, ?_⟩
  · unfold ntpEpochOffset at hseconds
    omega
  · rw [← hseconds, Nat.mod_eq_of_lt hlt]

end Reply

/-! The request. -/

/-- The reply of a server at the first second of 2024. -/
def replyAt2024 : List UInt8 :=
  0x24 :: 1 :: List.replicate 38 0 ++ Bytes.toBeBytes 3913056000 ++ List.replicate 4 0

example : readReply replyAt2024 = .ok oldestAccepted := by decide

/-- The eight bytes of the shifted word do not fit the four of the seconds. -/
theorem buildRequest_eq_none (t1 : UInt64) : buildRequest t1 = none := by
  have hlen : (Bytes.toBeBytes64 (unixToNtp t1 >>> 32)).length ≠ 28 - 24 := by
    rw [Bytes.length_toBeBytes64]
    decide
  rw [buildRequest, Bytes.copyFromSlice_eq_none hlen, Option.bind_none]

/-- A query panics, at every clock and whatever would be the answer. -/
theorem not_synchronizes (t1 : UInt64) (datagram : List UInt8) : ¬ Synchronizes t1 datagram := by
  intro h
  obtain ⟨packet, hpacket, -⟩ := h.request
  rw [buildRequest_eq_none] at hpacket
  cases hpacket

theorem not_synchronizes_2024 : ¬ Synchronizes 1704067200 replyAt2024 := by
  intro h
  obtain ⟨packet, hpacket, -⟩ := h.request
  rw [buildRequest_eq_none] at hpacket
  cases hpacket

end Quantra.System
