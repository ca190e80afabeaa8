import Quantra.Lib.DomainName
import Quantra.Net.DnsQuery
import Mathlib.Algebra.GroupWithZero.Nat

/-! The question of a query of `resolver.rs`: which names survive the way through a DNS message. -/
namespace Quantra.Dns
open DomainName
open Bytes (toBeBytes16)

/-- The packet that `query_udp` sends, if it comes to that. -/
def sentUdp (name : String) (qtype : UInt16) (x : UdpExchange) : Option (List UInt8) :=
  if x.bound && x.sent then some (buildQuery name qtype x.id) else none

/-- The packet that `query_dot` writes to the stream, behind its length. -/
def sentDot (name : String) (qtype : UInt16) (x : DotExchange) : Option (List UInt8) :=
  if x.connected && x.written then some (buildQuery name qtype x.id) else none

/-- This packet is sent to some server, over UDP or TCP. -/
def Sent (name : String) (qtype : UInt16) (packet : List UInt8) : Prop :=
  (∃ x, sentUdp name qtype x = some packet) ∨ ∃ x, sentDot name qtype x = some packet

/-! What a question says. -/

structure Question where
  labels : List (List UInt8)
  qtype : UInt16
  qclass : UInt16
  deriving DecidableEq, Repr

/-- There is this question at `pos`, and it ends before `next`. -/
def QuestionAt (buf : List UInt8) (pos : ℕ) (q : Question) (next : ℕ) : Prop :=
  ∃ labels endsAt, NameAt buf pos labels endsAt ∧ wireLength labels ≤ 255 ∧
    labels.map Label.bytes = q.labels ∧ endsAt + 4 ≤ buf.length ∧
    u16At buf endsAt = q.qtype ∧ u16At buf (endsAt + 2) = q.qclass ∧ next = endsAt + 4

/-- The labels between the dots, empty ones left out. -/
def labelsOf (name : String) : List (List UInt8) :=
  ((Text.split '.' name).filter (· ≠ "")).map Bytes.asBytes

def questionOf (name : String) (qtype : UInt16) : Question := ⟨labelsOf name, qtype, qclassIn⟩

/-- A domain name can have these labels. -/
def Fits (labels : List (List UInt8)) : Prop :=
  (∀ l ∈ labels, l.length ≤ 63) ∧ (labels.map fun l => l.length + 1).sum + 1 ≤ 255

instance (labels : List (List UInt8)) : Decidable (Fits labels) :=
  inferInstanceAs (Decidable (_ ∧ _))

/-- A packet that is sent asks the question that was meant and nothing else, and a name that fits no
question is not asked for. -/
structure QueryLaw (name : String) (qtype : UInt16) : Prop where
  faithful : ∀ packet, Sent name qtype packet → u16At packet 4 = 1 ∧
    ∀ q next, QuestionAt packet 12 q next ↔ q = questionOf name qtype ∧ next = packet.length
  refused : ¬Fits (labelsOf name) → ∀ packet, ¬Sent name qtype packet

variable {name : String} {qtype id : UInt16} {buf rest : List UInt8} {pos : ℕ}

theorem length_wire (labels : List Label) :
    wireLength labels = ((labels.map Label.bytes).map fun l => l.length + 1).sum + 1 := by
  simp only [wireLength, wire, wireLabels, List.length_append, List.length_flatMap, List.map_map]
  rfl

/-- Whatever is in a question fits one. -/
theorem fits_of_questionAt {q : Question} {next : ℕ} (h : QuestionAt buf pos q next) :
    Fits q.labels := by
  obtain ⟨labels, endsAt, -, hlen, hlabels, -⟩ := h
  rw [length_wire, hlabels] at hlen
  refine ⟨?_, hlen⟩
  intro l hl
  rw [← hlabels] at hl
  obtain ⟨label, -, rfl⟩ := List.mem_map.1 hl
  exact label.short

theorem questionAt_unique {q q' : Question} {next next' : ℕ} (h : QuestionAt buf pos q next)
    (h' : QuestionAt buf pos q' next') : q = q' ∧ next = next' := by
  obtain ⟨labels, endsAt, hname, -, hlabels, -, htype, hclass, rfl⟩ := h
  obtain ⟨labels', endsAt', hname', -, hlabels', -, htype', hclass', rfl⟩ := h'
  obtain ⟨rfl, rfl⟩ := hname.unique hname'
  obtain ⟨ls, t, c⟩ := q
  obtain ⟨ls', t', c'⟩ := q'
  simp only at hlabels hlabels' htype htype' hclass hclass'
  subst hlabels hlabels' htype htype' hclass hclass'
  exact ⟨rfl, rfl⟩

/-- The labels between dots are not empty. -/
theorem ne_nil_of_mem_labelsOf {l : List UInt8} (h : l ∈ labelsOf name) : l ≠ [] := by
  obtain ⟨label, hmem, rfl⟩ := List.mem_map.1 h
  have hne : label ≠ "" := of_decide_eq_true (List.mem_filter.1 hmem).2
  exact Bytes.asBytes_ne_nil hne

theorem exists_labels (h : Fits (labelsOf name)) :
    ∃ labels : List Label, labels.map Label.bytes = labelsOf name := by
  have hlabel : ∀ l ∈ labelsOf name, ∃ label : Label, label.bytes = l := fun l hl =>
    ⟨⟨l, ne_nil_of_mem_labelsOf hl, h.1 l hl⟩, rfl⟩
  have hall : ∀ ls : List (List UInt8), (∀ l ∈ ls, ∃ label : Label, label.bytes = l) →
      ∃ labels : List Label, labels.map Label.bytes = ls := by
    intro ls hls
    induction ls with
    | nil => exact ⟨[], rfl⟩
    | cons l ls ih =>
      obtain ⟨label, rfl⟩ := hls l List.mem_cons_self
      obtain ⟨labels, rfl⟩ := ih fun l' hl' => hls l' (List.mem_cons_of_mem _ hl')
      exact ⟨label :: labels, rfl⟩
  exact hall _ hlabel

theorem qname_eq (name : String) :
    qname name = ((labelsOf name).flatMap fun l => UInt8.ofNat l.length :: l) ++ [0] := by
  unfold qname labelsOf
  rw [List.flatMap_map]

theorem qname_eq_wire {labels : List Label} (h : labels.map Label.bytes = labelsOf name) :
    qname name = wire labels := by
  rw [qname_eq, ← h, List.flatMap_map]
  rfl

theorem u16At_drop (buf : List UInt8) (pos : ℕ) : u16At buf pos = u16At (buf.drop pos) 0 := by
  have hbyte : ∀ k, byteAt buf (pos + k) = byteAt (buf.drop pos) k := fun k => by
    unfold byteAt
    rw [List.getD_eq_getElem?_getD, List.getD_eq_getElem?_getD, List.getElem?_drop]
  have hzero : byteAt buf pos = byteAt (buf.drop pos) 0 := hbyte 0
  unfold u16At
  rw [hzero, hbyte 1]

theorem drop_buildQuery : (buildQuery name qtype id).drop 12 = question name qtype := rfl

/-- The question of a name that fits is read back, up to the end of the packet. -/
theorem questionAt_buildQuery (h : Fits (labelsOf name)) :
    QuestionAt (buildQuery name qtype id) 12 (questionOf name qtype)
      (buildQuery name qtype id).length := by
  obtain ⟨labels, hlabels⟩ := exists_labels h
  have hdrop : (buildQuery name qtype id).drop 12 =
      wire labels ++ (toBeBytes16 qtype ++ toBeBytes16 qclassIn) := by
    rw [drop_buildQuery, question, qname_eq_wire hlabels, List.append_assoc]
  have hbehind : (buildQuery name qtype id).drop (12 + wireLength labels) =
      toBeBytes16 qtype ++ toBeBytes16 qclassIn := by
    rw [← List.drop_drop, hdrop]
    exact List.drop_left
  have hclass : (buildQuery name qtype id).drop (12 + wireLength labels + 2) =
      toBeBytes16 qclassIn ++ [] := by
    rw [← List.drop_drop, hbehind]
    rfl
  have hlen : (buildQuery name qtype id).length = 12 + wireLength labels + 4 := by
    have hcount := congrArg List.length hbehind
    rw [List.length_drop] at hcount
    simp only [toBeBytes16, List.length_append, List.length_cons, List.length_nil] at hcount
    omega
  refine ⟨labels, 12 + wireLength labels, nameAt_wire labels hdrop, ?_, hlabels, by omega, ?_, ?_,
    hlen⟩
  · rw [length_wire, hlabels]
    exact h.2
  · rw [u16At_drop, hbehind, u16At_toBeBytes16]
    rfl
  · rw [u16At_drop, hclass, u16At_toBeBytes16]
    rfl

/-- Whatever the name, its packet is sent with any ID, and no other packet. -/
theorem sent_iff {packet : List UInt8} :
    Sent name qtype packet ↔ ∃ id, packet = buildQuery name qtype id := by
  constructor
  · rintro (⟨x, hsent⟩ | ⟨x, hsent⟩)
    · unfold sentUdp at hsent
      split at hsent
      · exact ⟨x.id, (Option.some.inj hsent).symm⟩
      · cases hsent
    · unfold sentDot at hsent
      split at hsent
      · exact ⟨x.id, (Option.some.inj hsent).symm⟩
      · cases hsent
  · rintro ⟨id, rfl⟩
    exact .inl ⟨⟨id, true, true, true, fun _ => []⟩, rfl⟩

theorem queryLaw_of_fits (h : Fits (labelsOf name)) : QueryLaw name qtype where
  faithful packet hsent := by
    obtain ⟨id, rfl⟩ := sent_iff.1 hsent
    constructor
    · rw [u16At_drop]
      exact u16At_toBeBytes16 1 _
    · intro q next
      constructor
      · intro hq
        exact questionAt_unique hq (questionAt_buildQuery h)
      · rintro ⟨rfl, rfl⟩
        exact questionAt_buildQuery h
  refused hunfit := absurd h hunfit

theorem fits_of_queryLaw (h : QueryLaw name qtype) : Fits (labelsOf name) := by
  obtain ⟨-, hfaithful⟩ := h.faithful (buildQuery name qtype 0) (sent_iff.2 ⟨0, rfl⟩)
  have hquestion := (hfaithful (questionOf name qtype) _).2 ⟨rfl, rfl⟩
  exact fits_of_questionAt hquestion

/-- Exactly the names with labels of up to 63 bytes and up to 255 bytes in all are asked for as they
are. -/
theorem queryLaw_iff (name : String) (qtype : UInt16) :
    QueryLaw name qtype ↔ Fits (labelsOf name) :=
  ⟨fits_of_queryLaw, queryLaw_of_fits⟩

theorem labelsOf_replicate {n : ℕ} (hn : n ≠ 0) :
    labelsOf (String.ofList (List.replicate n 'a')) = [List.replicate n 97] := by
  have hall : ∀ c ∈ List.replicate n 'a', c = 'a' := fun c hc => List.eq_of_mem_replicate hc
  have hdots : Text.splitChars '.' (List.replicate n 'a') = [List.replicate n 'a'] :=
    Text.splitChars_of_not_mem fun hmem => absurd (hall _ hmem) (by decide)
  have hne : String.ofList (List.replicate n 'a') ≠ "" := by
    intro hempty
    have hnil := congrArg String.toList hempty
    rw [String.toList_ofList] at hnil
    exact hn ((List.replicate_eq_nil_iff _).1 hnil)
  have hbytes : Bytes.asBytes (String.ofList (List.replicate n 'a')) = List.replicate n 97 := by
    rw [Bytes.asBytes_ofList_ascii, List.map_replicate]
    · rfl
    · intro c hc
      rw [hall c hc]
      decide
  unfold labelsOf Text.split
  rw [String.toList_ofList, hdots, List.map_singleton, List.filter_cons_of_pos (by simp [hne]),
    List.filter_nil, List.map_singleton, hbytes]

/-- One label of 256 bytes; its length byte is that of the root label. -/
def longName : String := String.ofList (List.replicate 256 'a')

theorem labelsOf_longName : labelsOf longName = [List.replicate 256 97] :=
  labelsOf_replicate (by decide)

theorem drop_longName : (buildQuery longName 1 7).drop 12 =
    0 :: 97 :: 97 :: 97 :: 97 :: (List.replicate 252 97 ++ [0] ++ toBeBytes16 1 ++ toBeBytes16 qclassIn) := by
  have hlen : UInt8.ofNat (List.replicate 256 (97 : UInt8)).length = 0 := by
    rw [List.length_replicate]
    decide
  have hfour : List.replicate 256 (97 : UInt8) = [97, 97, 97, 97] ++ List.replicate 252 97 :=
    List.replicate_add 4 252 97
  rw [drop_buildQuery, question, qname_eq, labelsOf_longName, List.flatMap_singleton, hlen, hfour]
  rfl

/-- What is asked for is the root domain. -/
theorem not_queryLaw_longName : ¬QueryLaw longName 1 ∧
    QuestionAt (buildQuery longName 1 7) 12 ⟨[], 0x6161, 0x6161⟩ 17 := by
  have hlong : ¬Fits (labelsOf longName) := by
    rw [labelsOf_longName]
    intro hfits
    have hshort := hfits.1 _ List.mem_cons_self
    rw [List.length_replicate] at hshort
    omega
  have hbehind : ∀ k, (buildQuery longName 1 7).drop (12 + k) =
      (0 :: 97 :: 97 :: 97 :: 97 ::
        (List.replicate 252 97 ++ [0] ++ toBeBytes16 1 ++ toBeBytes16 qclassIn)).drop k := fun k => by
    rw [← List.drop_drop, drop_longName]
  have hlen : 17 ≤ (buildQuery longName 1 7).length := by
    have hcount := congrArg List.length drop_longName
    simp only [List.length_drop, List.length_cons] at hcount
    omega
  refine ⟨fun h => hlong (fits_of_queryLaw h), [], 13, .root drop_longName, by decide, rfl, hlen,
    ?_, ?_, rfl⟩
  · rw [u16At_drop, hbehind 1]
    rfl
  · rw [u16At_drop, hbehind 3]
    rfl

end Quantra.Dns
