import Quantra.Lib.WideTlv
import Quantra.Net.DnsQuestion

/-! `parse_response` of `resolver.rs` against well-formed responses: which owner names of the answers
it can skip. -/
namespace Quantra.Dns
open Quantra.Net DomainName
open Bytes (toBeBytes16)

theorem byteAt_get {l : List UInt8} {i : ℕ} (h : i < l.length) : byteAt l i = l.get ⟨i, h⟩ := by
  unfold byteAt
  rw [List.getD_eq_getElem?_getD, List.getElem?_eq_getElem h]
  rfl

theorem ofFn_byteAt {l : List UInt8} (h : l.length = 16) :
    (Vector.ofFn fun i => byteAt l i) = (⟨l.toArray, h⟩ : Vector UInt8 16) := by
  apply Vector.ext
  intro i hi
  rw [Vector.getElem_ofFn]
  exact byteAt_get (by omega)

/-! The parser with every index checked. `none` is an index outside of the buffer, or a loop that has
not come to its end. -/

namespace Indexed

def u32At (buf : List UInt8) (pos : ℕ) : Option UInt32 := do
  let a ← buf[pos]?
  let b ← buf[pos + 1]?
  let c ← buf[pos + 2]?
  let d ← buf[pos + 3]?
  some (Bytes.fromBeBytes a b c d)

def skipQuestion (buf : List UInt8) : ℕ → ℕ → Option ℕ
  | 0, _ => none
  | fuel + 1, pos =>
    if pos < buf.length then do
      let len ← buf[pos]?
      if len = 0 then some pos
      else if isPointer len then some (pos + 2)
      else skipQuestion buf fuel (pos + (1 + len.toNat))
    else some pos

def skipLabels (buf : List UInt8) : ℕ → ℕ → Option ℕ
  | 0, _ => none
  | fuel + 1, pos =>
    if pos < buf.length then do
      let len ← buf[pos]?
      if len = 0 then some pos else skipLabels buf fuel (pos + (1 + len.toNat))
    else some pos

/-- Behind the name of a record, which may be a pointer. -/
def skipName (buf : List UInt8) (pos : ℕ) : Option ℕ := do
  let first ← buf[pos]?
  if isPointer first then some (pos + 2)
  else (skipLabels buf (buf.length + 1) pos).map (· + 1)

/-- Behind the root label of the question. -/
def skipRoot (buf : List UInt8) (pos : ℕ) : Option ℕ :=
  if pos < buf.length then do
    let len ← buf[pos]?
    if len = 0 then some (pos + 1) else some pos
  else some pos

/-- One turn of the loop over the answers; the inner `none` is where it breaks. -/
def readRecord (buf : List UInt8) (pos : ℕ) : Option (Option Record) :=
  if pos + 10 > buf.length then some none
  else do
    let pos ← skipName buf pos
    if pos + 10 > buf.length then some none
    else do
      let rtype ← WideTlv.wordAt buf pos
      let _class ← WideTlv.wordAt buf (pos + 2)
      let ttl ← u32At buf (pos + 4)
      let rdlen ← WideTlv.wordAt buf (pos + 8)
      if pos + 10 + rdlen.toNat > buf.length then some none
      else do
        let rdata ← Bytes.slice buf (pos + 10) (pos + 10 + rdlen.toNat)
        some (some { rtype, ttl, rdata, next := pos + 10 + rdlen.toNat })

/-- The `match` on the type of a record. -/
def addresses (r : Record) : Option (List IpAddr) :=
  if r.rtype = 1 ∧ r.rdata.length = 4 then do
    let a ← r.rdata[0]?
    let b ← r.rdata[1]?
    let c ← r.rdata[2]?
    let d ← r.rdata[3]?
    some [.v4 ⟨a, b, c, d⟩]
  else if r.rtype = 28 ∧ r.rdata.length = 16 then
    if h : r.rdata.length = 16 then some [.v6 ⟨⟨r.rdata.toArray, h⟩⟩] else none
  else some []

def readAnswers (buf : List UInt8) :
    ℕ → ℕ → List IpAddr → UInt32 → Option (List IpAddr × UInt32)
  | 0, _, found, minTtl => some (found, minTtl)
  | n + 1, pos, found, minTtl => do
    match ← readRecord buf pos with
    | none => some (found, minTtl)
    | some r => do
      let more ← addresses r
      readAnswers buf n r.next (found ++ more) (if r.ttl < minTtl then r.ttl else minTtl)

def parseResponse (buf : List UInt8) : Option (Option WireResponse) :=
  if buf.length < 12 then some none
  else do
    let id ← WideTlv.wordAt buf 0
    let flags ← WideTlv.wordAt buf 2
    let ancount ← WideTlv.wordAt buf 6
    let pos ← skipQuestion buf (buf.length + 1) 12
    let pos ← skipRoot buf pos
    let answers ← readAnswers buf ancount.toNat (pos + 4) [] 0xFFFFFFFF
    some (some {
      id
      rcode := (flags &&& 0x000F).toUInt8
      addresses := answers.1
      minTtl := if answers.2 = 0xFFFFFFFF then 300 else answers.2 })

variable {buf : List UInt8} {pos : ℕ}

theorem getElem?_eq (h : pos < buf.length) : buf[pos]? = some (byteAt buf pos) := by
  unfold byteAt
  rw [List.getD_eq_getElem?_getD, List.getElem?_eq_getElem h]
  rfl

theorem wordAt_eq (h : pos + 2 ≤ buf.length) : WideTlv.wordAt buf pos = some (u16At buf pos) := by
  unfold WideTlv.wordAt
  rw [getElem?_eq (by omega), getElem?_eq (by omega)]
  rfl

theorem u32At_eq (h : pos + 4 ≤ buf.length) : u32At buf pos = some (Dns.u32At buf pos) := by
  unfold u32At
  rw [getElem?_eq (by omega), getElem?_eq (by omega), getElem?_eq (by omega),
    getElem?_eq (by omega)]
  rfl

theorem skipQuestion_eq {fuel : ℕ} (h : buf.length ≤ pos + fuel) :
    skipQuestion buf (fuel + 1) pos = some (Dns.skipQuestion buf fuel pos) := by
  induction fuel generalizing pos with
  | zero =>
    unfold skipQuestion
    rw [if_neg (by omega)]
    rfl
  | succ fuel ih =>
    unfold skipQuestion Dns.skipQuestion
    by_cases hlt : pos < buf.length
    · rw [if_pos hlt, getElem?_eq hlt]
      simp only [Option.bind_eq_bind, Option.bind_some, hlt, true_and, ne_eq]
      by_cases hzero : byteAt buf pos = 0
      · rw [if_pos hzero, if_neg (not_not.2 hzero)]
      · rw [if_neg hzero, if_pos hzero, ih (by omega)]
        split <;> rfl
    · rw [if_neg hlt, if_neg (fun hgo => hlt hgo.1)]

theorem skipLabels_eq {fuel : ℕ} (h : buf.length ≤ pos + fuel) :
    skipLabels buf (fuel + 1) pos = some (Dns.skipLabels buf fuel pos) := by
  induction fuel generalizing pos with
  | zero =>
    unfold skipLabels
    rw [if_neg (by omega)]
    rfl
  | succ fuel ih =>
    unfold skipLabels Dns.skipLabels
    by_cases hlt : pos < buf.length
    · rw [if_pos hlt, getElem?_eq hlt]
      simp only [Option.bind_eq_bind, Option.bind_some, hlt, true_and, ne_eq]
      by_cases hzero : byteAt buf pos = 0
      · rw [if_pos hzero, if_neg (not_not.2 hzero)]
      · rw [if_neg hzero, if_pos hzero, ih (by omega)]
    · rw [if_neg hlt, if_neg (fun hgo => hlt hgo.1)]

theorem skipName_eq (h : pos < buf.length) : skipName buf pos =
    some (if isPointer (byteAt buf pos) then pos + 2
      else Dns.skipLabels buf buf.length pos + 1) := by
  unfold skipName
  rw [getElem?_eq h, skipLabels_eq (by omega)]
  simp only [Option.bind_eq_bind, Option.bind_some]
  split <;> rfl

theorem skipRoot_eq (buf : List UInt8) (pos : ℕ) : skipRoot buf pos =
    some (if pos < buf.length ∧ byteAt buf pos = 0 then pos + 1 else pos) := by
  unfold skipRoot
  by_cases hlt : pos < buf.length
  · rw [if_pos hlt, getElem?_eq hlt]
    simp only [Option.bind_eq_bind, Option.bind_some, hlt, true_and]
    split <;> rfl
  · rw [if_neg hlt, if_neg (fun h => hlt h.1)]

theorem readRecord_eq (buf : List UInt8) (pos : ℕ) :
    readRecord buf pos = some (Dns.readRecord buf pos) := by
  unfold readRecord Dns.readRecord
  by_cases hshort : pos + 10 > buf.length
  · rw [if_pos hshort, if_pos hshort]
  rw [if_neg hshort, if_neg hshort, skipName_eq (by omega)]
  simp only [Option.bind_eq_bind, Option.bind_some]
  generalize (if isPointer (byteAt buf pos) then pos + 2
    else Dns.skipLabels buf buf.length pos + 1) = behind
  by_cases hfixed : behind + 10 > buf.length
  · rw [if_pos hfixed, if_pos hfixed]
  rw [if_neg hfixed, if_neg hfixed, wordAt_eq (by omega), wordAt_eq (by omega),
    u32At_eq (by omega), wordAt_eq (by omega)]
  simp only [Option.bind_some]
  by_cases hdata : behind + 10 + (u16At buf (behind + 8)).toNat > buf.length
  · rw [if_pos hdata, if_pos hdata]
  rw [if_neg hdata, if_neg hdata, Bytes.slice_eq (by omega) (by omega), Nat.add_sub_cancel_left]
  rfl

theorem addresses_eq (r : Record) : addresses r = some r.address.toList := by
  unfold addresses Record.address
  by_cases hv4 : r.rtype = 1 ∧ r.rdata.length = 4
  · rw [if_pos hv4, if_pos hv4, getElem?_eq (by omega), getElem?_eq (by omega),
      getElem?_eq (by omega), getElem?_eq (by omega)]
    rfl
  rw [if_neg hv4, if_neg hv4]
  by_cases hv6 : r.rtype = 28 ∧ r.rdata.length = 16
  · rw [if_pos hv6, if_pos hv6, dif_pos hv6.2, ofFn_byteAt hv6.2]
    rfl
  · rw [if_neg hv6, if_neg hv6]
    rfl

theorem readAnswers_eq {n : ℕ} {found : List IpAddr} {minTtl : UInt32} :
    readAnswers buf n pos found minTtl = some (Dns.readAnswers buf n pos found minTtl) := by
  induction n generalizing pos found minTtl with
  | zero => rfl
  | succ n ih =>
    unfold readAnswers Dns.readAnswers
    rw [readRecord_eq]
    simp only [Option.bind_eq_bind, Option.bind_some]
    cases Dns.readRecord buf pos with
    | none => rfl
    | some r =>
      simp only [addresses_eq, Option.bind_some]
      exact ih

/-- The low four bits of the flags are those of their second byte. -/
theorem rcode_eq (buf : List UInt8) (pos : ℕ) :
    (u16At buf pos &&& 0x000F).toUInt8 = byteAt buf (pos + 1) &&& 0x0F := by
  have hword : (u16At buf pos &&& 0x000F).toNat =
      ((byteAt buf pos).toNat * 256 + (byteAt buf (pos + 1)).toNat) % 2 ^ 16 % 16 := by
    rw [UInt16.toNat_and]
    exact Nat.and_two_pow_sub_one_eq_mod _ 4
  have hbyte : (byteAt buf (pos + 1) &&& 0x0F).toNat = (byteAt buf (pos + 1)).toNat % 16 := by
    rw [UInt8.toNat_and]
    exact Nat.and_two_pow_sub_one_eq_mod _ 4
  apply UInt8.toNat_inj.1
  rw [UInt16.toNat_toUInt8, hword, hbyte]
  omega

/-- The parser reads nothing outside of a buffer, and comes to its end. -/
theorem parseResponse_eq (buf : List UInt8) :
    parseResponse buf = some (Dns.parseResponse buf) := by
  unfold parseResponse Dns.parseResponse
  by_cases hshort : buf.length < 12
  · rw [if_pos hshort, if_pos hshort]
  rw [if_neg hshort, if_neg hshort, wordAt_eq (by omega), wordAt_eq (by omega),
    wordAt_eq (by omega), skipQuestion_eq (by omega)]
  simp only [Option.bind_eq_bind, Option.bind_some, skipRoot_eq, readAnswers_eq, rcode_eq]

end Indexed

/-! Well-formed responses. -/

/-- A record of the answer section. A TTL has 31 bits, and the addresses their lengths; nothing else
is asked of the type and the data. -/
structure ResourceRecord where
  owner : Name
  rtype : UInt16
  rclass : UInt16
  ttl : UInt32
  rdata : List UInt8
  ttl_lt : ttl.toNat < 2 ^ 31
  fits : rdata.length < 2 ^ 16
  isA : rtype = 1 → rdata.length = 4
  isAaaa : rtype = 28 → rdata.length = 16

namespace ResourceRecord

/-- Type, class, TTL, and the length of the data. -/
def fixed (r : ResourceRecord) : List UInt8 :=
  toBeBytes16 r.rtype ++ toBeBytes16 r.rclass ++ Bytes.toBeBytes r.ttl ++
    toBeBytes16 (UInt16.ofNat r.rdata.length)

def wire (r : ResourceRecord) : List UInt8 := r.owner.wire ++ (r.fixed ++ r.rdata)

/-- The address of an A or AAAA record. -/
def address (r : ResourceRecord) : Option IpAddr :=
  if hv4 : r.rtype = 1 then
    have hlen := r.isA hv4
    some (.v4 ⟨r.rdata.get ⟨0, by omega⟩, r.rdata.get ⟨1, by omega⟩, r.rdata.get ⟨2, by omega⟩,
      r.rdata.get ⟨3, by omega⟩⟩)
  else if hv6 : r.rtype = 28 then some (.v6 ⟨⟨r.rdata.toArray, r.isAaaa hv6⟩⟩)
  else none

end ResourceRecord

/-- A response to one question. The question's name is written out, since there is no name before it;
whatever follows the answers are the records of the other sections. -/
structure Response where
  id : UInt16
  flags : UInt16
  qname : List Label
  qtype : UInt16
  qclass : UInt16
  answers : List ResourceRecord
  few : answers.length < 2 ^ 16
  nscount : UInt16
  arcount : UInt16
  rest : List UInt8

namespace Response

def wire (m : Response) : List UInt8 :=
  toBeBytes16 m.id ++ (toBeBytes16 m.flags ++ (toBeBytes16 1 ++ (toBeBytes16 (UInt16.ofNat m.answers.length) ++
    (toBeBytes16 m.nscount ++ (toBeBytes16 m.arcount ++ (DomainName.wire m.qname ++ (toBeBytes16 m.qtype ++
      (toBeBytes16 m.qclass ++ (m.answers.flatMap ResourceRecord.wire ++ m.rest)))))))))

/-- The addresses of the A and AAAA records in order, and the smallest TTL. Where there is no record
the parser takes 300 seconds. -/
def meaning (m : Response) : WireResponse where
  id := m.id
  rcode := (m.flags &&& 0x000F).toUInt8
  addresses := m.answers.filterMap ResourceRecord.address
  minTtl := (m.answers.map ResourceRecord.ttl).min?.getD 300

end Response

/-- Every response whose answers have these owner names is read as what it says. -/
def Reads (owners : List Name) : Prop :=
  ∀ m : Response, m.answers.map ResourceRecord.owner = owners → parseResponse m.wire = some m.meaning

/-! Reading behind a known prefix. -/

section Reading
variable {buf rest : List UInt8} {pos n : ℕ} {found : List IpAddr} {minTtl : UInt32}

theorem byteAt_add (buf : List UInt8) (pos k : ℕ) :
    byteAt buf (pos + k) = byteAt (buf.drop pos) k := by
  unfold byteAt
  rw [List.getD_eq_getElem?_getD, List.getD_eq_getElem?_getD, List.getElem?_drop]

theorem u16At_of_drop {w : UInt16} (h : buf.drop pos = toBeBytes16 w ++ rest) : u16At buf pos = w := by
  rw [u16At_drop, h, u16At_toBeBytes16]

theorem u32At_of_drop {w : UInt32} (h : buf.drop pos = Bytes.toBeBytes w ++ rest) :
    u32At buf pos = w := by
  have hzero : byteAt buf pos = byteAt (buf.drop pos) 0 := byteAt_add buf pos 0
  unfold u32At
  rw [hzero, byteAt_add buf pos 1, byteAt_add buf pos 2, byteAt_add buf pos 3, h]
  exact Bytes.fromBeBytes_toBeBytes w

/-- What stands behind a known beginning. -/
theorem drop_add_of_drop {front : List UInt8} (h : buf.drop pos = front ++ rest) :
    buf.drop (pos + front.length) = rest := by
  rw [← List.drop_drop, h, List.drop_left]

theorem length_of_drop {front : List UInt8} (h : buf.drop pos = front ++ rest)
    (hne : front ≠ []) : buf.length = pos + front.length + rest.length := by
  have hpos : 0 < front.length := List.length_pos_iff.2 hne
  have hcount := congrArg List.length h
  rw [List.length_drop, List.length_append] at hcount
  omega

theorem isPointer_iff (b : UInt8) : isPointer b = true ↔ IsPointer b := by
  have hall : ∀ n : Fin 256, isPointer (UInt8.ofNat n) = true ↔ IsPointer (UInt8.ofNat n) := by
    decide +kernel
  have hb := hall ⟨b.toNat, b.toNat_lt⟩
  rwa [UInt8.ofNat_toNat] at hb

/-- A label is neither the root label nor a pointer, and tells where it ends. -/
theorem head_of_label {l : Label} (h : buf.drop pos = l.wire ++ rest) :
    pos < buf.length ∧ byteAt buf pos ≠ 0 ∧ ¬isPointer (byteAt buf pos) = true ∧
      pos + (1 + (byteAt buf pos).toNat) = pos + l.wire.length := by
  have hlen : buf.length = pos + l.wire.length + rest.length :=
    length_of_drop h (List.cons_ne_nil _ _)
  have hhead : byteAt buf pos = UInt8.ofNat l.bytes.length := by
    have hzero : byteAt buf pos = byteAt (buf.drop pos) 0 := byteAt_add buf pos 0
    rw [hzero, h]
    rfl
  have hcons : l.wire ++ rest = UInt8.ofNat l.bytes.length :: (l.bytes ++ rest) := rfl
  have hwire : l.wire.length = l.bytes.length + 1 := l.length_wire
  rw [hhead, isPointer_iff, l.toNat_length]
  exact ⟨by omega, (l.head_ne hcons).1, (l.head_ne hcons).2, by omega⟩

theorem wireLabels_cons (l : Label) (labels : List Label) :
    wireLabels (l :: labels) = l.wire ++ wireLabels labels := List.flatMap_cons

/-- The labels of a name are skipped one by one. -/
theorem skipLabels_append (labels : List Label) (fuel : ℕ)
    (h : buf.drop pos = wireLabels labels ++ rest) :
    skipLabels buf (fuel + labels.length) pos =
      skipLabels buf fuel (pos + (wireLabels labels).length) := by
  induction labels generalizing pos with
  | nil => rfl
  | cons l labels ih =>
    rw [wireLabels_cons, List.append_assoc] at h
    obtain ⟨hlt, hne, -, hstep⟩ := head_of_label h
    show skipLabels buf (fuel + labels.length + 1) pos = _
    rw [skipLabels, if_pos ⟨hlt, hne⟩, hstep, ih (drop_add_of_drop h), wireLabels_cons,
      List.length_append, Nat.add_assoc]

theorem skipQuestion_append (labels : List Label) (fuel : ℕ)
    (h : buf.drop pos = wireLabels labels ++ rest) :
    skipQuestion buf (fuel + labels.length) pos =
      skipQuestion buf fuel (pos + (wireLabels labels).length) := by
  induction labels generalizing pos with
  | nil => rfl
  | cons l labels ih =>
    rw [wireLabels_cons, List.append_assoc] at h
    obtain ⟨hlt, hne, hplain, hstep⟩ := head_of_label h
    show skipQuestion buf (fuel + labels.length + 1) pos = _
    rw [skipQuestion, if_pos ⟨hlt, hne⟩, if_neg hplain, hstep, ih (drop_add_of_drop h),
      wireLabels_cons, List.length_append, Nat.add_assoc]

theorem length_labels_le {labels : List Label} (h : buf.drop pos = wireLabels labels ++ rest) :
    labels.length ≤ buf.length := by
  have hcount := congrArg List.length h
  have hlabels : labels.length ≤ (wireLabels labels).length := length_le_wireLabels labels
  rw [List.length_drop, List.length_append] at hcount
  omega

theorem byteAt_of_drop {b : UInt8} (h : buf.drop pos = b :: rest) : byteAt buf pos = b := by
  have hzero : byteAt buf pos = byteAt (buf.drop pos) 0 := byteAt_add buf pos 0
  rw [hzero, h]
  rfl

/-- Behind the labels that a root label ends. -/
theorem skip_root (labels : List Label) (h : buf.drop pos = wireLabels labels ++ 0 :: rest) :
    skipLabels buf buf.length pos = pos + (wireLabels labels).length ∧
      skipQuestion buf buf.length pos = pos + (wireLabels labels).length := by
  have hzero : byteAt buf (pos + (wireLabels labels).length) = 0 :=
    byteAt_of_drop (drop_add_of_drop h)
  obtain ⟨fuel, hfuel⟩ := Nat.exists_eq_add_of_le' (length_labels_le h)
  rw [hfuel, skipLabels_append labels fuel h, skipQuestion_append labels fuel h]
  cases fuel with
  | zero => exact ⟨rfl, rfl⟩
  | succ fuel =>
    rw [skipLabels, skipQuestion, if_neg (fun hgo => hgo.2 hzero),
      if_neg (fun hgo => hgo.2 hzero)]
    exact ⟨rfl, rfl⟩

/-- A name that is only labels, or only a pointer, is skipped as a whole. -/
theorem skipName_wire {n : Name} (hskip : ¬n.Mixed) (h : buf.drop pos = n.wire ++ rest) :
    (if isPointer (byteAt buf pos) then pos + 2 else skipLabels buf buf.length pos + 1) =
      pos + n.wire.length := by
  have hhead : byteAt buf pos = byteAt (buf.drop pos) 0 := byteAt_add buf pos 0
  obtain ⟨labels, ending⟩ := n
  cases ending with
  | root =>
    have hwire : buf.drop pos = wireLabels labels ++ 0 :: rest := by
      rw [h]
      simp [Name.wire, Ending.wire]
    have hplain : ¬isPointer (byteAt buf pos) = true := by
      rw [isPointer_iff, hhead, hwire]
      cases labels with
      | nil => exact (by decide : ¬IsPointer 0)
      | cons l labels =>
        have hcons : wireLabels (l :: labels) ++ 0 :: rest =
            l.wire ++ (wireLabels labels ++ 0 :: rest) := by simp [wireLabels]
        rw [hcons]
        exact (l.head_ne (rfl : l.wire ++ rest = _)).2
    rw [if_neg hplain, (skip_root labels hwire).1]
    simp [Name.wire, Ending.wire]
    omega
  | pointer offset =>
    have hnone : labels = [] := not_not.1 fun hne =>
      hskip ⟨hne, fun hroot => by cases hroot⟩
    subst hnone
    have hpointer : isPointer (byteAt buf pos) = true := by
      rw [isPointer_iff, hhead, h]
      exact isPointer_head offset
    rw [if_pos hpointer]
    rfl

/-- The ten bytes behind the owner's name, and the data. -/
theorem read_fixed {r : ResourceRecord} (h : buf.drop pos = r.fixed ++ (r.rdata ++ rest)) :
    pos + 10 + r.rdata.length ≤ buf.length ∧ u16At buf pos = r.rtype ∧
      u32At buf (pos + 4) = r.ttl ∧ (u16At buf (pos + 8)).toNat = r.rdata.length ∧
      (buf.drop (pos + 10)).take r.rdata.length = r.rdata := by
  have htype : buf.drop pos = toBeBytes16 r.rtype ++ (toBeBytes16 r.rclass ++ (Bytes.toBeBytes r.ttl ++
      (toBeBytes16 (UInt16.ofNat r.rdata.length) ++ (r.rdata ++ rest)))) := by
    rw [h]
    simp [ResourceRecord.fixed]
  have hclass := drop_add_of_drop htype
  have httl := drop_add_of_drop hclass
  have hlen := drop_add_of_drop httl
  have hdata := drop_add_of_drop hlen
  have hcount : buf.length = pos + r.fixed.length + (r.rdata ++ rest).length :=
    length_of_drop h (List.cons_ne_nil _ _)
  have hfixed : r.fixed.length = 10 := rfl
  rw [hfixed, List.length_append] at hcount
  refine ⟨by omega, u16At_of_drop htype, u32At_of_drop httl, ?_, ?_⟩
  · have hword : u16At buf (pos + 8) = UInt16.ofNat r.rdata.length := u16At_of_drop hlen
    rw [hword]
    exact UInt16.toNat_ofNat_of_lt' r.fits
  · have hdata' : buf.drop (pos + 10) = r.rdata ++ rest := hdata
    rw [hdata', List.take_left]

theorem readRecord_wire {r : ResourceRecord} (hskip : ¬r.owner.Mixed)
    (h : buf.drop pos = r.wire ++ rest) : readRecord buf pos =
      some { rtype := r.rtype, ttl := r.ttl, rdata := r.rdata, next := pos + r.wire.length } := by
  have hname : buf.drop pos = r.owner.wire ++ (r.fixed ++ (r.rdata ++ rest)) := by
    rw [h]
    simp [ResourceRecord.wire]
  obtain ⟨hlen, htype, httl, hrdlen, hdata⟩ := read_fixed (drop_add_of_drop hname)
  have hnext : pos + r.wire.length = pos + r.owner.wire.length + 10 + r.rdata.length := by
    have hfixed : r.fixed.length = 10 := rfl
    simp only [ResourceRecord.wire, List.length_append, hfixed]
    omega
  unfold readRecord
  rw [if_neg (by omega), skipName_wire hskip hname]
  simp only [htype, httl, hrdlen, hdata, hnext]
  rw [if_neg (by omega), if_neg (by omega)]

theorem address_eq (r : ResourceRecord) (next : ℕ) :
    ({ rtype := r.rtype, ttl := r.ttl, rdata := r.rdata, next } : Record).address = r.address := by
  unfold Record.address ResourceRecord.address
  by_cases hv4 : r.rtype = 1
  · have hlen : r.rdata.length = 4 := r.isA hv4
    have hread : ∀ i (hi : i < r.rdata.length), byteAt r.rdata i = r.rdata.get ⟨i, hi⟩ :=
      fun i hi => byteAt_get hi
    rw [if_pos ⟨hv4, hlen⟩, dif_pos hv4]
    simp only [hread 0 (by omega), hread 1 (by omega), hread 2 (by omega), hread 3 (by omega)]
  · rw [if_neg (fun h => hv4 h.1), dif_neg hv4]
    by_cases hv6 : r.rtype = 28
    · rw [if_pos ⟨hv6, r.isAaaa hv6⟩, dif_pos hv6, ofFn_byteAt (r.isAaaa hv6)]
    · rw [if_neg (fun h => hv6 h.1), dif_neg hv6]

/-- The records in front that can be skipped are read as what they are. -/
theorem readAnswers_append (n : ℕ) (found : List IpAddr) (minTtl : UInt32)
    {answers : List ResourceRecord} (hskip : ∀ r ∈ answers, ¬r.owner.Mixed)
    (h : buf.drop pos = answers.flatMap ResourceRecord.wire ++ rest) :
    readAnswers buf (answers.length + n) pos found minTtl =
      readAnswers buf n (pos + (answers.flatMap ResourceRecord.wire).length)
        (found ++ answers.filterMap ResourceRecord.address)
        ((answers.map ResourceRecord.ttl).foldl min minTtl) := by
  induction answers generalizing pos found minTtl with
  | nil => simp
  | cons r answers ih =>
    have hsplit : buf.drop pos = r.wire ++ (answers.flatMap ResourceRecord.wire ++ rest) := by
      rw [h]
      simp
    have hmin : (if r.ttl < minTtl then r.ttl else minTtl) = min minTtl r.ttl := by
      show _ = if minTtl ≤ r.ttl then minTtl else r.ttl
      by_cases hlt : r.ttl < minTtl
      · rw [if_pos hlt, if_neg (UInt32.not_le.2 hlt)]
      · rw [if_neg hlt, if_pos (UInt32.not_lt.1 hlt)]
    have hcount : answers.length + 1 + n = answers.length + n + 1 := by omega
    rw [List.length_cons, hcount, readAnswers, readRecord_wire (hskip r List.mem_cons_self) hsplit]
    simp only [address_eq, hmin]
    rw [ih _ _ (fun r' hr' => hskip r' (List.mem_cons_of_mem r hr')) (drop_add_of_drop hsplit)]
    cases haddress : r.address <;> simp [haddress, Nat.add_assoc]

/-- The smallest TTL never grows. -/
theorem readAnswers_le : (readAnswers buf n pos found minTtl).2 ≤ minTtl := by
  induction n generalizing pos found minTtl with
  | zero => exact UInt32.le_refl minTtl
  | succ n ih =>
    unfold readAnswers
    cases readRecord buf pos with
    | none => exact UInt32.le_refl minTtl
    | some r =>
      have hstep : (if r.ttl < minTtl then r.ttl else minTtl) ≤ minTtl := by
        split
        · next hlt => exact UInt32.le_of_lt hlt
        · exact UInt32.le_refl minTtl
      exact UInt32.le_trans ih hstep

theorem min_eq (a b : UInt32) : min a b = if a ≤ b then a else b := rfl

theorem foldl_min_le (t : UInt32) (ttls : List UInt32) : ttls.foldl min t ≤ t := by
  induction ttls generalizing t with
  | nil => exact UInt32.le_refl t
  | cons u ttls ih =>
    have hstep : min t u ≤ t := by
      rw [min_eq]
      split
      · exact UInt32.le_refl t
      · next hlt => exact UInt32.le_of_lt (UInt32.not_le.1 hlt)
    exact UInt32.le_trans (ih (min t u)) hstep

/-- What the loop makes of the TTLs, and the default where there is none. -/
theorem foldl_min_getD {ttls : List UInt32} (h : ∀ t ∈ ttls, t.toNat < 2 ^ 31) :
    (if ttls.foldl min 0xFFFFFFFF = 0xFFFFFFFF then 300 else ttls.foldl min 0xFFFFFFFF) =
      ttls.min?.getD 300 := by
  cases ttls with
  | nil => rfl
  | cons t ttls =>
    have ht : t.toNat < 2 ^ 31 := h t List.mem_cons_self
    have hmax : (0xFFFFFFFF : UInt32).toNat = 2 ^ 32 - 1 := rfl
    have hfirst : min 0xFFFFFFFF t = t := by
      rw [min_eq, if_neg]
      rw [UInt32.le_iff_toNat_le, hmax]
      omega
    have hne : ttls.foldl min t ≠ 0xFFFFFFFF := by
      intro heq
      have hle := foldl_min_le t ttls
      rw [heq, UInt32.le_iff_toNat_le, hmax] at hle
      omega
    rw [List.foldl_cons, hfirst, if_neg hne, List.min?_cons']
    rfl

end Reading

/-! The whole message. -/

section Message
variable (m : Response)

/-- The answers as they are read from behind the question. -/
theorem exists_answers : ∃ pos, m.wire.drop pos = m.answers.flatMap ResourceRecord.wire ++ m.rest ∧
    parseResponse m.wire = some {
      id := m.id
      rcode := (m.flags &&& 0x000F).toUInt8
      addresses := (readAnswers m.wire m.answers.length pos [] 0xFFFFFFFF).1
      minTtl := if (readAnswers m.wire m.answers.length pos [] 0xFFFFFFFF).2 = 0xFFFFFFFF then 300
        else (readAnswers m.wire m.answers.length pos [] 0xFFFFFFFF).2 } := by
  have hid : m.wire.drop 0 = toBeBytes16 m.id ++ _ := rfl
  have hflags := drop_add_of_drop hid
  have hqdcount := drop_add_of_drop hflags
  have hancount := drop_add_of_drop hqdcount
  have hnscount := drop_add_of_drop hancount
  have harcount := drop_add_of_drop hnscount
  have hquestion : m.wire.drop 12 = DomainName.wire m.qname ++ (toBeBytes16 m.qtype ++
      (toBeBytes16 m.qclass ++ (m.answers.flatMap ResourceRecord.wire ++ m.rest))) :=
    drop_add_of_drop harcount
  have hanswers := drop_add_of_drop (drop_add_of_drop (drop_add_of_drop hquestion))
  have hname : (DomainName.wire m.qname).length = (wireLabels m.qname).length + 1 :=
    List.length_append
  have hqname : m.wire.drop 12 = wireLabels m.qname ++ 0 :: (toBeBytes16 m.qtype ++
      (toBeBytes16 m.qclass ++ (m.answers.flatMap ResourceRecord.wire ++ m.rest))) := by
    rw [hquestion, DomainName.wire, List.append_assoc]
    rfl
  have hlen : m.wire.length = 12 + (DomainName.wire m.qname).length + (toBeBytes16 m.qtype ++
      (toBeBytes16 m.qclass ++ (m.answers.flatMap ResourceRecord.wire ++ m.rest))).length :=
    length_of_drop hquestion (List.append_ne_nil_of_right_ne_nil _ (List.cons_ne_nil _ _))
  have hroot : byteAt m.wire (12 + (wireLabels m.qname).length) = 0 :=
    byteAt_of_drop (drop_add_of_drop hqname)
  have hcount : (u16At m.wire 6).toNat = m.answers.length := by
    have hword : u16At m.wire 6 = UInt16.ofNat m.answers.length := u16At_of_drop hancount
    rw [hword]
    exact UInt16.toNat_ofNat_of_lt' m.few
  have hrcode : byteAt m.wire 3 &&& 0x0F = (m.flags &&& 0x000F).toUInt8 := by
    have hword : u16At m.wire 2 = m.flags := u16At_of_drop hflags
    rw [← hword, Indexed.rcode_eq m.wire 2]
  have hpos : 12 + (wireLabels m.qname).length + 1 + 4 =
      12 + (DomainName.wire m.qname).length + (toBeBytes16 m.qtype).length +
        (toBeBytes16 m.qclass).length := by
    rw [hname]
    rfl
  refine ⟨_, hanswers, ?_⟩
  unfold parseResponse
  rw [if_neg (by omega), (skip_root m.qname hqname).2, ← hpos]
  simp only [hroot, hcount, hrcode, and_true]
  rw [if_pos (by omega), u16At_of_drop hid]

end Message

/-- Names that are only labels, or only a pointer, are no trouble. -/
theorem reads_of_skippable {owners : List Name} (h : ∀ n ∈ owners, ¬n.Mixed) : Reads owners := by
  intro m howners
  obtain ⟨pos, hdrop, hparse⟩ := exists_answers m
  have hskip : ∀ r ∈ m.answers, ¬r.owner.Mixed := fun r hr =>
    h r.owner (howners ▸ List.mem_map_of_mem hr)
  have hread := readAnswers_append 0 [] 0xFFFFFFFF hskip hdrop
  rw [Nat.add_zero] at hread
  have httl : ∀ t ∈ m.answers.map ResourceRecord.ttl, t.toNat < 2 ^ 31 := by
    intro t ht
    obtain ⟨r, -, rfl⟩ := List.mem_map.1 ht
    exact r.ttl_lt
  have hmin := foldl_min_getD httl
  rw [hparse, hread]
  exact congrArg (fun ttl => some { m.meaning with minTtl := ttl }) hmin

/-! A name of labels and a pointer. Of the pointer's first byte the parser makes the length of a
label. -/

/-- 300 empty strings, the data of a text record. -/
def emptyStrings : List UInt8 := List.replicate 300 0

theorem length_emptyStrings : emptyStrings.length = 300 := List.length_replicate

/-- A text record with a TTL of 7. -/
def filler (n : Name) : ResourceRecord where
  owner := n
  rtype := 16
  rclass := 1
  ttl := 7
  rdata := emptyStrings
  ttl_lt := by decide
  fits := by
    rw [length_emptyStrings]
    omega
  isA h := absurd h (by decide)
  isAaaa h := absurd h (by decide)

def filled (owners : List Name) (h : owners.length < 2 ^ 16) : Response where
  id := 0
  flags := 0x8180
  qname := []
  qtype := 1
  qclass := 1
  answers := owners.map filler
  few := by rwa [List.length_map]
  nscount := 0
  arcount := 0
  rest := []

section Mixed
variable {buf rest : List UInt8} {pos : ℕ}

theorem byteAt_emptyStrings {k : ℕ} (h : buf.drop pos = emptyStrings ++ rest) (hk : k < 300) :
    byteAt buf (pos + k) = 0 := by
  rw [byteAt_add, h, byteAt, List.getD_eq_getElem?_getD,
    List.getElem?_append_left (by rwa [length_emptyStrings]), emptyStrings,
    List.getElem?_replicate_of_lt hk]
  rfl

/-- Behind labels any byte but 0 is taken for the length of another label, and the loop stops at the
zero that it comes to then. -/
theorem skipLabels_overrun {labels : List Label} {b : UInt8}
    (h : buf.drop pos = wireLabels labels ++ b :: rest) (hb : b ≠ 0)
    (hstop : byteAt buf (pos + (wireLabels labels).length + (1 + b.toNat)) = 0) :
    skipLabels buf buf.length pos = pos + (wireLabels labels).length + (1 + b.toNat) := by
  have hbyte : byteAt buf (pos + (wireLabels labels).length) = b :=
    byteAt_of_drop (drop_add_of_drop h)
  have hlabels : labels.length ≤ (wireLabels labels).length := length_le_wireLabels labels
  have hlen : buf.length = pos + (wireLabels labels).length + (b :: rest).length := by
    have hcount := congrArg List.length h
    rw [List.length_drop, List.length_append, List.length_cons] at hcount
    rw [List.length_cons]
    omega
  rw [List.length_cons] at hlen
  obtain ⟨fuel, hfuel⟩ : ∃ fuel, buf.length = fuel + 1 + labels.length :=
    ⟨buf.length - labels.length - 1, by omega⟩
  rw [hfuel, skipLabels_append labels (fuel + 1) h]
  show skipLabels buf (fuel + 1) (pos + (wireLabels labels).length) = _
  rw [skipLabels, hbyte, if_pos ⟨by omega, hb⟩]
  cases fuel with
  | zero => rfl
  | succ fuel => rw [skipLabels, if_neg (fun hgo => hgo.2 hstop)]

/-- A name that starts with a label does not count as a pointer. -/
theorem not_isPointer_of_labels {labels : List Label} (hne : labels ≠ [])
    (h : buf.drop pos = wireLabels labels ++ rest) : ¬isPointer (byteAt buf pos) = true := by
  cases labels with
  | nil => exact absurd rfl hne
  | cons l labels =>
    rw [wireLabels_cons, List.append_assoc] at h
    exact (head_of_label h).2.2.1

/-- A position inside of the data is taken for the end of the name, and zeros for a record. -/
theorem readRecord_mixed {n : Name} (hmixed : n.Mixed)
    (h : buf.drop pos = (filler n).wire ++ rest) :
    ∃ r, readRecord buf pos = some r ∧ r.ttl = 0 := by
  obtain ⟨labels, ending⟩ := n
  obtain ⟨hne, hending⟩ := hmixed
  cases ending with
  | root => exact absurd rfl hending
  | pointer offset =>
    let p := pos + (wireLabels labels).length
    have hwire : buf.drop pos = wireLabels labels ++ (UInt8.ofNat (192 + offset.val / 256) ::
        UInt8.ofNat offset.val :: ((filler ⟨labels, .pointer offset⟩).fixed ++
          (emptyStrings ++ rest))) := by
      rw [h, ResourceRecord.wire, Name.wire, List.append_assoc, List.append_assoc,
        List.append_assoc]
      rfl
    have hbehind := drop_add_of_drop hwire
    have hzeros : buf.drop (p + 12) = emptyStrings ++ rest := by
      rw [← List.drop_drop, hbehind]
      rfl
    have hread : ∀ i, p + 12 ≤ i → i < p + 312 → byteAt buf i = 0 := fun i hle hlt => by
      have hzero := byteAt_emptyStrings (k := i - (p + 12)) hzeros (by omega)
      rwa [Nat.add_sub_cancel' hle] at hzero
    have hlen : p + 312 ≤ buf.length := by
      have hcount := congrArg List.length hzeros
      rw [List.length_drop, List.length_append, length_emptyStrings] at hcount
      omega
    have hlt : offset.val < 2 ^ 14 := offset.isLt
    have hnat : (UInt8.ofNat (192 + offset.val / 256)).toNat = 192 + offset.val / 256 := by
      rw [UInt8.toNat_ofNat']
      omega
    have hnonzero : UInt8.ofNat (192 + offset.val / 256) ≠ 0 := fun hzero => by
      have hnone : (0 : UInt8).toNat = 0 := rfl
      rw [hzero, hnone] at hnat
      omega
    have hskip : skipLabels buf buf.length pos = p + (1 + (192 + offset.val / 256)) := by
      rw [skipLabels_overrun hwire hnonzero (hread _ (by omega) (by omega)), hnat]
    have hplain := not_isPointer_of_labels hne hwire
    have hrdlen : u16At buf (p + (1 + (192 + offset.val / 256)) + 1 + 8) = 0 := by
      rw [u16At, hread _ (by omega) (by omega), hread _ (by omega) (by omega)]
      rfl
    have httl : u32At buf (p + (1 + (192 + offset.val / 256)) + 1 + 4) = 0 := by
      rw [u32At, hread _ (by omega) (by omega), hread _ (by omega) (by omega),
        hread _ (by omega) (by omega), hread _ (by omega) (by omega)]
      rfl
    unfold readRecord
    rw [if_neg (by omega), if_neg hplain, hskip]
    simp only [hrdlen, httl]
    rw [if_neg (by omega), if_neg (by simp; omega)]
    exact ⟨_, rfl, rfl⟩

end Mixed

theorem min?_of_forall_eq {t : UInt32} {ttls : List UInt32} (hne : ttls ≠ [])
    (h : ∀ u ∈ ttls, u = t) : ttls.min? = some t := by
  have hfold : ∀ us : List UInt32, (∀ u ∈ us, u = t) → us.foldl min t = t := by
    intro us hus
    induction us with
    | nil => rfl
    | cons u us ih =>
      obtain rfl := hus u List.mem_cons_self
      rw [List.foldl_cons, min_eq, if_pos (UInt32.le_refl u)]
      exact ih fun u' hu' => hus u' (List.mem_cons_of_mem u hu')
  cases ttls with
  | nil => exact absurd rfl hne
  | cons u us =>
    obtain rfl := h u List.mem_cons_self
    rw [List.min?_cons', hfold us fun u' hu' => h u' (List.mem_cons_of_mem u hu')]

/-- The first record with such a name brings the smallest TTL down to 0. -/
theorem minTtl_of_mixed {buf rest : List UInt8} {pos : ℕ} {before after : List Name} {first : Name}
    (hbefore : ∀ n ∈ before, ¬n.Mixed) (hmixed : first.Mixed)
    (h : buf.drop pos =
      ((before ++ first :: after).map filler).flatMap ResourceRecord.wire ++ rest) :
    (readAnswers buf ((before ++ first :: after).map filler).length pos [] 0xFFFFFFFF).2 = 0 := by
  have hskip : ∀ r ∈ before.map filler, ¬r.owner.Mixed := by
    intro r hr
    obtain ⟨n, hn, rfl⟩ := List.mem_map.1 hr
    exact hbefore n hn
  have hsplit : buf.drop pos = (before.map filler).flatMap ResourceRecord.wire ++
      ((filler first).wire ++ ((after.map filler).flatMap ResourceRecord.wire ++ rest)) := by
    rw [h]
    simp
  obtain ⟨r, hrecord, httl⟩ := readRecord_mixed hmixed (drop_add_of_drop hsplit)
  have hcount : ((before ++ first :: after).map filler).length =
      (before.map filler).length + (after.length + 1) := by simp
  rw [hcount, readAnswers_append _ _ _ hskip hsplit, readAnswers, hrecord]
  have hmin : ∀ m : UInt32, (if 0 < m then 0 else m) = 0 := fun m => by
    split
    · rfl
    · next hle => exact UInt32.le_antisymm (UInt32.not_lt.1 hle) UInt32.zero_le
  simp only [httl, hmin]
  exact UInt32.le_antisymm readAnswers_le UInt32.zero_le

/-- A response whose owners are not all skippable can be misread. -/
theorem skippable_of_reads {owners : List Name} (hfew : owners.length < 2 ^ 16)
    (h : Reads owners) : ∀ n ∈ owners, ¬n.Mixed := by
  classical
  intro n hn hmixed
  -- the first name that is mixed
  have hfind : (owners.find? fun n => decide n.Mixed).isSome :=
    List.find?_isSome.2 ⟨n, hn, decide_eq_true hmixed⟩
  obtain ⟨first, hfirst⟩ := Option.isSome_iff_exists.1 hfind
  obtain ⟨hmixed, before, after, rfl, hbefore⟩ := List.find?_eq_some_iff_append.1 hfirst
  have hplain : ∀ n ∈ before, ¬n.Mixed := fun n hn => by
    have hnot := hbefore n hn
    rwa [Bool.not_eq_true', decide_eq_false_iff_not] at hnot
  obtain ⟨pos, hdrop, hparse⟩ := exists_answers (filled (before ++ first :: after) hfew)
  have howners : ((before ++ first :: after).map filler).map ResourceRecord.owner =
      before ++ first :: after := by
    rw [List.map_map]
    exact List.map_id _
  have hzero : (readAnswers (filled (before ++ first :: after) hfew).wire
      (filled (before ++ first :: after) hfew).answers.length pos [] 0xFFFFFFFF).2 = 0 :=
    minTtl_of_mixed hplain (of_decide_eq_true hmixed) hdrop
  have hseven : (((before ++ first :: after).map filler).map ResourceRecord.ttl).min? =
      some 7 := by
    apply min?_of_forall_eq
    · simp
    · intro ttl httl
      obtain ⟨r, hr, rfl⟩ := List.mem_map.1 httl
      obtain ⟨n, -, rfl⟩ := List.mem_map.1 hr
      rfl
  have hsame := hparse.symm.trans (h (filled (before ++ first :: after) hfew) howners)
  rw [hzero] at hsame
  have hminTtl : 0 = (((before ++ first :: after).map filler).map ResourceRecord.ttl).min?.getD 300 :=
    congrArg (fun r : WireResponse => r.minTtl) (Option.some.inj hsame)
  rw [hseven] at hminTtl
  exact absurd hminTtl (by decide)

/-- The parser stays inside of every buffer and comes to its end. It reads whatever else a response
with these owner names may hold as what it is exactly if no owner name is one or more labels that a
pointer ends. -/
theorem reads_iff (buf : List UInt8) (owners : {owners : List Name // owners.length < 2 ^ 16}) :
    Indexed.parseResponse buf = some (parseResponse buf) ∧
    (Reads owners.1 ↔ ∀ n ∈ owners.1, ¬n.Mixed) :=
  ⟨Indexed.parseResponse_eq buf, skippable_of_reads owners.2, reads_of_skippable⟩

/-! The usual form of such a name: a label in front of a pointer to the question. -/

def wwwLabel : Label := ⟨[119, 119, 119], by decide, by decide⟩

def exampleLabel : Label := ⟨[101, 120, 97, 109, 112, 108, 101], by decide, by decide⟩

def comLabel : Label := ⟨[99, 111, 109], by decide, by decide⟩

def wwwOwner : Name := ⟨[wwwLabel], .pointer 12⟩

/-- The answer 93.184.216.34 for a minute, under `www` of the domain that was asked for. -/
def wwwRecord : ResourceRecord where
  owner := wwwOwner
  rtype := 1
  rclass := 1
  ttl := 60
  rdata := [93, 184, 216, 34]
  ttl_lt := by decide
  fits := by decide
  isA _ := rfl
  isAaaa h := absurd h (by decide)

def wwwResponse : Response where
  id := 7
  flags := 0x8180
  qname := [exampleLabel, comLabel]
  qtype := 1
  qclass := 1
  answers := [wwwRecord]
  few := by decide
  nscount := 0
  arcount := 0
  rest := []

/-- The owner is the name `www.example.com`, but neither the address nor the TTL comes out. -/
theorem wwwResponse_misread :
    NameAt wwwResponse.wire 29 [wwwLabel, exampleLabel, comLabel] 35 ∧ ¬Reads [wwwOwner] ∧
      wwwResponse.meaning = { id := 7, rcode := 0, addresses := [.v4 ⟨93, 184, 216, 34⟩],
                              minTtl := 60 } ∧
      parseResponse wwwResponse.wire = some { id := 7, rcode := 0, addresses := [], minTtl := 300 } := by
  have hmeaning : wwwResponse.meaning = { id := 7, rcode := 0,
                                          addresses := [.v4 ⟨93, 184, 216, 34⟩], minTtl := 60 } := by
    decide +kernel
  have hparse : parseResponse wwwResponse.wire =
      some { id := 7, rcode := 0, addresses := [], minTtl := 300 } := by decide +kernel
  refine ⟨?_, ?_, hmeaning, hparse⟩
  · have hroot : NameAt wwwResponse.wire 24 [] 25 := .root rfl
    have hcom : NameAt wwwResponse.wire 20 [comLabel] 25 := .label rfl hroot
    have hexample : NameAt wwwResponse.wire 12 [exampleLabel, comLabel] 25 := .label rfl hcom
    have hpointer : NameAt wwwResponse.wire 33 [exampleLabel, comLabel] 35 :=
      .pointer rfl (by decide) (by decide) hexample
    exact .label rfl hpointer
  · intro hreads
    have hread := hreads wwwResponse rfl
    rw [hparse, hmeaning] at hread
    exact absurd hread (by decide)

end Quantra.Dns
