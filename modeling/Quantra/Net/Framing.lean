import Quantra.Lib.Bytes
import Quantra.Lib.Effects
import Quantra.Lib.Pieces
import Mathlib.Data.List.Forall2

/-! The framing of messages on a stream: `send_message` and `recv_message` of `common`, and
`send_frame` and `recv_frame` of `control.rs`. -/
namespace Quantra.Framing
open Bytes Effects Pieces

/-- How the messages on a stream are encoded, and what is said of a frame that is too large. What
was encoded is decoded again. -/
structure Channel (M : Type) where
  encode : M → Except String (List UInt8)
  decode : List UInt8 → Except String M
  tooLarge : ℕ → String
  decode_encode : ∀ {m data}, encode m = .ok data → decode data = .ok m

def maxLen : ℕ := 4 * 1024 * 1024

/-- `write_all` on a stream that takes everything. -/
def writeAll (bytes : List UInt8) : Eff (List UInt8) String Unit := modify (· ++ bytes)

section Channel
variable {M : Type} (ch : Channel M)

def send (m : M) : Eff (List UInt8) String Unit := do
  let data ← answer (ch.encode m)
  writeAll (leBytes 4 data.length)
  writeAll data

def recv (reads : Reads) : Except String (M × Reads) := do
  let (lenBuf, reads) ← readExact 4 reads
  let len := leValue lenBuf
  if maxLen < len then .error (ch.tooLarge len)
  else
    let (data, reads) ← readExact len reads
    let msg ← ch.decode data
    return (msg, reads)

def sendAll : List M → Eff (List UInt8) String Unit
  | [] => pure ()
  | m :: ms => do
    send ch m
    sendAll ms

/-- So many calls of the receiver. -/
def recvMany : ℕ → Reads → Except String (List M × Reads)
  | 0, reads => .ok ([], reads)
  | n + 1, reads => do
    let (m, reads) ← recv ch reads
    let (ms, reads) ← recvMany n reads
    return (m :: ms, reads)

end Channel

/-! The two pairs of functions. -/

section Messages
variable {M : Type} (encode : M → Except String (List UInt8))
  (decode : List UInt8 → Except String M)
  (h : ∀ {m data}, encode m = .ok data → decode data = .ok m)

/-- The streams of `common`. -/
def messages : Channel M where
  encode := encode
  decode := decode
  tooLarge len := "Frame too large (" ++ toString len ++ " bytes, max 4MB)"
  decode_encode := h

def sendMessage : M → Eff (List UInt8) String Unit := send (messages encode decode h)

def recvMessage : Reads → Except String (M × Reads) := recv (messages encode decode h)

end Messages

/-- The streams of `control.rs`. -/
def frames : Channel (List UInt8) where
  encode := .ok
  decode := .ok
  tooLarge len := "Frame too large: " ++ toString len ++ " bytes"
  decode_encode h := by
    cases h
    rfl

def sendFrame : List UInt8 → Eff (List UInt8) String Unit := send frames

def recvFrame : Reads → Except String (List UInt8 × Reads) := recv frames

/-! What is expected of a channel. -/

section Law
variable {M : Type} (ch : Channel M)

/-- Messages that were written without an error come back, however the bytes are cut, and nothing is
left over. -/
def Delivered (ms : List M) : Prop :=
  ∀ written, outcome (sendAll ch ms) [] = (.ok (), written) →
    ∀ reads, Cut written reads → recvMany ch ms.length reads = .ok (ms, [])

/-- A message over the limit of the receiver is refused before anything of it is written. -/
def RefusedEarly (m : M) : Prop :=
  ∀ data, ch.encode m = .ok data → maxLen < data.length →
    ∀ written, ∃ e, outcome (send ch m) written = (.error e, written)

def Framed (ms : List M) : Prop := Delivered ch ms ∧ ∀ m ∈ ms, RefusedEarly ch m

/-- The encoding of the message is within the limit of the receiver. -/
def Small (m : M) : Prop := ∀ data, ch.encode m = .ok data → data.length ≤ maxLen

end Law

/-! One frame. -/

variable {M : Type} {ch : Channel M} {m : M} {ms : List M} {data rest written after : List UInt8}
  {reads : Reads}

def frame (data : List UInt8) : List UInt8 := leBytes 4 data.length ++ data

theorem outcome_send (h : ch.encode m = .ok data) :
    outcome (send ch m) written = (.ok (), written ++ frame data) := by
  unfold send
  rw [h]
  exact congrArg (fun bytes => (Except.ok (), bytes)) (List.append_assoc _ _ _)

theorem encode_of_send (h : outcome (send ch m) written = (.ok (), after)) :
    ∃ data, ch.encode m = .ok data ∧ after = written ++ frame data := by
  cases hm : ch.encode m with
  | error e =>
    unfold send at h
    rw [hm] at h
    cases h
  | ok data =>
    rw [outcome_send hm] at h
    cases h
    exact ⟨data, rfl, rfl⟩

/-- The length of a frame comes first. -/
theorem recv_frame (ch : Channel M) (h : Cut (frame data ++ rest) reads)
    (hlen : data.length < 2 ^ 32) :
    ∃ reads', Cut (data ++ rest) reads' ∧
      recv ch reads = if maxLen < data.length then .error (ch.tooLarge data.length) else do
        let (data, reads) ← readExact data.length reads'
        let msg ← ch.decode data
        return (msg, reads) := by
  unfold frame at h
  rw [List.append_assoc] at h
  obtain ⟨reads', hread, hcut⟩ := readExact_append h
  have hvalue : leValue (leBytes 4 data.length) = data.length := by
    rw [leValue_leBytes]
    exact Nat.mod_eq_of_lt hlen
  rw [length_leBytes] at hread
  refine ⟨reads', hcut, ?_⟩
  unfold recv
  rw [hread]
  dsimp only [bind, Except.bind]
  rw [hvalue]

theorem recv_small (h : Cut (frame data ++ rest) reads) (hm : ch.encode m = .ok data)
    (hlen : data.length ≤ maxLen) :
    ∃ reads', recv ch reads = .ok (m, reads') ∧ Cut rest reads' := by
  obtain ⟨reads₁, hcut₁, hrecv⟩ := recv_frame ch h (Nat.lt_of_le_of_lt hlen (by decide))
  obtain ⟨reads₂, hread, hcut₂⟩ := readExact_append hcut₁
  refine ⟨reads₂, ?_, hcut₂⟩
  rw [hrecv, if_neg (Nat.not_lt.2 hlen), hread]
  dsimp only [bind, Except.bind]
  rw [ch.decode_encode hm]
  rfl

theorem recv_large (h : Cut (frame data ++ rest) reads) (hlarge : maxLen < data.length)
    (hlen : data.length < 2 ^ 32) : recv ch reads = .error (ch.tooLarge data.length) := by
  obtain ⟨reads₁, -, hrecv⟩ := recv_frame ch h hlen
  rw [hrecv, if_pos hlarge]

/-! Sequences of frames. -/

/-- The messages of a list and their encodings. -/
abbrev Encodes (ch : Channel M) (ms : List M) (ds : List (List UInt8)) : Prop :=
  List.Forall₂ (fun m data => ch.encode m = .ok data) ms ds

variable {ds : List (List UInt8)}

theorem outcome_sendAll (h : Encodes ch ms ds) :
    outcome (sendAll ch ms) written = (.ok (), written ++ ds.flatMap frame) := by
  induction h generalizing written with
  | nil => exact congrArg (fun bytes => (Except.ok (), bytes)) (List.append_nil written).symm
  | cons hm _ ih =>
    unfold sendAll
    rw [outcome_bind_ok (outcome_send hm), ih, List.flatMap_cons, List.append_assoc]

theorem encodes_of_sendAll (h : outcome (sendAll ch ms) written = (.ok (), after)) :
    ∃ ds, Encodes ch ms ds := by
  induction ms generalizing written with
  | nil => exact ⟨[], .nil⟩
  | cons m ms ih =>
    unfold sendAll at h
    cases hout : outcome (send ch m) written with
    | mk r t =>
      cases r with
      | error e =>
        rw [outcome_bind_error hout] at h
        cases h
      | ok u =>
        rw [outcome_bind_ok hout] at h
        obtain ⟨data, hm, -⟩ := encode_of_send hout
        obtain ⟨ds, hds⟩ := ih h
        exact ⟨data :: ds, .cons hm hds⟩

/-- The run lemma of the delivery, with what follows on the stream. -/
theorem recvMany_small (h : Encodes ch ms ds) (hsmall : ∀ data ∈ ds, data.length ≤ maxLen)
    (hcut : Cut (ds.flatMap frame ++ rest) reads) :
    ∃ reads', recvMany ch ms.length reads = .ok (ms, reads') ∧ Cut rest reads' := by
  induction h generalizing reads with
  | nil => exact ⟨reads, rfl, hcut⟩
  | cons hm _ ih =>
    rw [List.forall_mem_cons] at hsmall
    rw [List.flatMap_cons, List.append_assoc] at hcut
    obtain ⟨reads₁, hfirst, hcut₁⟩ := recv_small hcut hm hsmall.1
    obtain ⟨reads₂, hlater, hcut₂⟩ := ih hsmall.2 hcut₁
    refine ⟨reads₂, ?_, hcut₂⟩
    rw [List.length_cons, recvMany, hfirst]
    dsimp only [bind, Except.bind]
    rw [hlater]
    rfl

/-- One frame that is too large ends the sequence with an error. -/
theorem recvMany_large (h : Encodes ch ms ds) (hlen : ∀ data ∈ ds, data.length < 2 ^ 32)
    (hlarge : ∃ data ∈ ds, maxLen < data.length)
    (hcut : Cut (ds.flatMap frame ++ rest) reads) :
    ∃ e, recvMany ch ms.length reads = .error e := by
  induction h generalizing reads with
  | nil =>
    obtain ⟨data, hdata, -⟩ := hlarge
    cases hdata
  | @cons m data ms ds hm _ ih =>
    rw [List.forall_mem_cons] at hlen
    rw [List.flatMap_cons, List.append_assoc] at hcut
    by_cases hfirst : maxLen < data.length
    · refine ⟨ch.tooLarge data.length, ?_⟩
      rw [List.length_cons, recvMany, recv_large hcut hfirst hlen.1]
      rfl
    · have hrest : ∃ data ∈ ds, maxLen < data.length := by
        obtain ⟨d, hd, hd'⟩ := hlarge
        rcases List.mem_cons.1 hd with rfl | hd
        · exact absurd hd' hfirst
        · exact ⟨d, hd, hd'⟩
      obtain ⟨reads₁, hrecv, hcut₁⟩ := recv_small hcut hm (Nat.not_lt.1 hfirst)
      obtain ⟨e, he⟩ := ih hlen.2 hrest hcut₁
      refine ⟨e, ?_⟩
      rw [List.length_cons, recvMany, hrecv]
      dsimp only [bind, Except.bind]
      rw [he]

theorem forall_small_iff (h : Encodes ch ms ds) :
    (∀ m ∈ ms, Small ch m) ↔ ∀ data ∈ ds, data.length ≤ maxLen := by
  induction h with
  | nil => exact iff_of_true (fun _ hm => by cases hm) fun _ hd => by cases hd
  | @cons m data ms ds hm _ ih =>
    rw [List.forall_mem_cons, List.forall_mem_cons, ih]
    refine and_congr_left fun _ => ?_
    constructor
    · exact fun hsmall => hsmall data hm
    · intro hle d hd
      rw [hm] at hd
      cases hd
      exact hle

theorem delivered_of_small (h : ∀ m ∈ ms, Small ch m) : Delivered ch ms := by
  intro written hsent reads hcut
  obtain ⟨ds, hds⟩ := encodes_of_sendAll hsent
  rw [outcome_sendAll hds] at hsent
  cases hsent
  have hcut' : Cut (ds.flatMap frame ++ []) reads := by rwa [List.append_nil]
  obtain ⟨reads', hrecv, hrest⟩ := recvMany_small hds ((forall_small_iff hds).1 h) hcut'
  rw [hrecv, cut_nil.1 hrest]

/-- Where the length field has room for every length, the limit decides. -/
theorem delivered_iff (hds : Encodes ch ms ds) (hlen : ∀ data ∈ ds, data.length < 2 ^ 32) :
    Delivered ch ms ↔ ∀ m ∈ ms, Small ch m := by
  refine ⟨fun h => ?_, delivered_of_small⟩
  rw [forall_small_iff hds]
  intro data hdata
  by_contra hlarge
  obtain ⟨reads, hcut⟩ := exists_cut (ds.flatMap frame)
  have hrecv := h _ (outcome_sendAll hds) reads hcut
  have hcut' : Cut (ds.flatMap frame ++ []) reads := by rwa [List.append_nil]
  obtain ⟨e, he⟩ := recvMany_large hds hlen ⟨data, hdata, Nat.not_le.1 hlarge⟩ hcut'
  rw [hrecv] at he
  cases he

theorem refusedEarly_iff : RefusedEarly ch m ↔ Small ch m := by
  constructor
  · intro h data hm
    by_contra hlarge
    obtain ⟨e, he⟩ := h data hm (Nat.not_le.1 hlarge) []
    rw [outcome_send hm] at he
    cases he
  · exact fun h data hm hlarge => absurd (h data hm) (Nat.not_le.2 hlarge)

/-- Sequences come back, and what is too large is refused at once, exactly if every message is
within the limit; and of sequences whose lengths fit their field no others come back. -/
theorem framing_iff (ch : Channel M) (ms : List M) :
    (Framed ch ms ↔ ∀ m ∈ ms, Small ch m) ∧
      ∀ ds, Encodes ch ms ds → (∀ data ∈ ds, data.length < 2 ^ 32) →
        (Delivered ch ms ↔ ∀ m ∈ ms, Small ch m) := by
  refine ⟨⟨fun h m hm => refusedEarly_iff.1 (h.2 m hm), fun h => ?_⟩, fun ds => delivered_iff⟩
  exact ⟨delivered_of_small h, fun m hm => refusedEarly_iff.2 (h m hm)⟩

/-- A payload one byte over the limit is written, and the receiver refuses it. -/
theorem large_frame_sent :
    ¬Delivered frames [List.replicate (maxLen + 1) 0] ∧
      ¬RefusedEarly frames (List.replicate (maxLen + 1) 0) := by
  have hlarge : ¬Small frames (List.replicate (maxLen + 1) 0) := by
    intro h
    have hle := h _ rfl
    rw [List.length_replicate] at hle
    exact absurd hle (Nat.not_succ_le_self maxLen)
  constructor
  · rw [delivered_iff (.cons rfl .nil)]
    · exact fun h => hlarge (h _ List.mem_cons_self)
    · intro data hdata
      rw [List.mem_singleton.1 hdata, List.length_replicate]
      decide
  · rw [refusedEarly_iff]
    exact hlarge

end Quantra.Framing
