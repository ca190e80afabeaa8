import Quantra.Lib.Bytes

/-! Domain names in DNS messages: labels of up to 63 bytes, which end in the root label or in a
pointer to a name further ahead. -/
namespace DomainName

structure Label where
  bytes : List UInt8
  notEmpty : bytes ≠ []
  short : bytes.length ≤ 63

def Label.wire (l : Label) : List UInt8 := UInt8.ofNat l.bytes.length :: l.bytes

/-- Whether a byte starts a pointer: its two high bits are set. -/
def IsPointer (hi : UInt8) : Prop := 192 ≤ hi.toNat

instance : DecidablePred IsPointer := fun hi => inferInstanceAs (Decidable (192 ≤ hi.toNat))

/-- The offset in the fourteen low bits of a pointer. -/
def target (hi lo : UInt8) : ℕ := (hi.toNat - 192) * 256 + lo.toNat

/-- There is a name with these labels at `pos`, and it ends before `next`. A pointer leads to an
earlier position. -/
inductive NameAt (buf : List UInt8) : ℕ → List Label → ℕ → Prop
  | root {pos : ℕ} {rest : List UInt8} (h : buf.drop pos = 0 :: rest) : NameAt buf pos [] (pos + 1)
  | label {pos next : ℕ} {l : Label} {labels : List Label} {rest : List UInt8}
      (h : buf.drop pos = l.wire ++ rest) (tail : NameAt buf (pos + l.wire.length) labels next) :
      NameAt buf pos (l :: labels) next
  | pointer {pos next : ℕ} {hi lo : UInt8} {labels : List Label} {rest : List UInt8}
      (h : buf.drop pos = hi :: lo :: rest) (pointer : IsPointer hi) (back : target hi lo < pos)
      (tail : NameAt buf (target hi lo) labels next) : NameAt buf pos labels (pos + 2)

/-- What a name ends in: the root label, or a pointer of fourteen bits. -/
inductive Ending
  | root
  | pointer (offset : Fin (2 ^ 14))
  deriving DecidableEq, Repr

/-- A name as it stands in a message. -/
structure Name where
  labels : List Label
  ending : Ending

def Ending.wire : Ending → List UInt8
  | .root => [0]
  | .pointer offset => [UInt8.ofNat (192 + offset.val / 256), UInt8.ofNat offset.val]

/-- The labels of a name, without what it ends in. -/
def wireLabels (labels : List Label) : List UInt8 := labels.flatMap Label.wire

def Name.wire (n : Name) : List UInt8 := wireLabels n.labels ++ n.ending.wire

/-- One or more labels that are ended by a pointer. -/
def Name.Mixed (n : Name) : Prop := n.labels ≠ [] ∧ n.ending ≠ .root

/-- The bytes of a name that is written out. -/
def wire (labels : List Label) : List UInt8 := wireLabels labels ++ [0]

/-- How many bytes a name takes when it is written out; 255 is the most there may be. -/
def wireLength (labels : List Label) : ℕ := (wire labels).length

namespace Label
variable (l : Label)

theorem length_wire : l.wire.length = l.bytes.length + 1 := rfl

theorem toNat_length : (UInt8.ofNat l.bytes.length).toNat = l.bytes.length := by
  have hshort : l.bytes.length ≤ 63 := l.short
  rw [UInt8.toNat_ofNat']
  omega

theorem length_pos : 0 < l.bytes.length := List.length_pos_iff.2 l.notEmpty

theorem eq_of_bytes {l l' : Label} (h : l.bytes = l'.bytes) : l = l' := by
  cases l
  cases l'
  cases h
  rfl

/-- A label is told from what follows it. -/
theorem wire_inj {l l' : Label} {rest rest' : List UInt8} (h : l.wire ++ rest = l'.wire ++ rest') :
    l = l' := by
  obtain ⟨hlen, hbytes⟩ := List.cons.inj h
  have hcount : l.bytes.length = l'.bytes.length := by
    rw [← toNat_length l, ← toNat_length l', hlen]
  exact eq_of_bytes (List.append_inj_left hbytes hcount)

/-- A label starts with neither the root label nor a pointer. -/
theorem head_ne {hi : UInt8} {rest rest' : List UInt8} (h : l.wire ++ rest = hi :: rest') :
    hi ≠ 0 ∧ ¬IsPointer hi := by
  obtain ⟨rfl, -⟩ := List.cons.inj h
  have hlen : (UInt8.ofNat l.bytes.length).toNat = l.bytes.length := toNat_length l
  have hpos : 0 < l.bytes.length := length_pos l
  have hshort : l.bytes.length ≤ 63 := l.short
  constructor
  · intro hzero
    have hnat := congrArg UInt8.toNat hzero
    rw [hlen] at hnat
    exact absurd hnat (Nat.ne_of_gt hpos)
  · unfold IsPointer
    omega

end Label

theorem length_le_wireLabels (labels : List Label) : labels.length ≤ (wireLabels labels).length := by
  induction labels with
  | nil => exact Nat.le_refl 0
  | cons l labels ih =>
    have hpos : 0 < l.wire.length := Nat.succ_pos _
    simp only [wireLabels, List.flatMap_cons, List.length_append, List.length_cons] at ih ⊢
    omega

/-- Only a pointer starts with its two high bits set. -/
theorem isPointer_head (offset : Fin (2 ^ 14)) : IsPointer (UInt8.ofNat (192 + offset.val / 256)) := by
  have hlt : offset.val < 2 ^ 14 := offset.isLt
  unfold IsPointer
  rw [UInt8.toNat_ofNat']
  omega

/-- At a position there is at most one name. -/
theorem NameAt.unique {buf : List UInt8} {pos next next' : ℕ} {labels labels' : List Label}
    (h : NameAt buf pos labels next) (h' : NameAt buf pos labels' next') :
    labels = labels' ∧ next = next' := by
  have hzero : ¬IsPointer 0 := by decide
  induction h generalizing labels' next' with
  | root hroot =>
    cases h' with
    | root => exact ⟨rfl, rfl⟩
    | label h _ => exact absurd rfl (Label.head_ne _ (h.symm.trans hroot)).1
    | pointer h hpointer =>
      rw [hroot] at h
      cases h
      exact absurd hpointer hzero
  | label hlabel _ ih =>
    cases h' with
    | root h => exact absurd rfl (Label.head_ne _ (hlabel.symm.trans h)).1
    | label h htail =>
      obtain rfl := Label.wire_inj (hlabel.symm.trans h)
      obtain ⟨rfl, rfl⟩ := ih htail
      exact ⟨rfl, rfl⟩
    | pointer h hpointer => exact absurd hpointer (Label.head_ne _ (hlabel.symm.trans h)).2
  | pointer hp hpointer _ _ ih =>
    cases h' with
    | root h =>
      rw [hp] at h
      cases h
      exact absurd hpointer hzero
    | label h _ => exact absurd hpointer (Label.head_ne _ (h.symm.trans hp)).2
    | pointer h _ _ htail =>
      rw [hp] at h
      cases h
      exact ⟨(ih htail).1, rfl⟩

/-- A name that is written out is found where it stands. -/
theorem nameAt_wire {buf rest : List UInt8} {pos : ℕ} (labels : List Label)
    (h : buf.drop pos = wire labels ++ rest) : NameAt buf pos labels (pos + wireLength labels) := by
  induction labels generalizing pos with
  | nil => exact .root h
  | cons l labels ih =>
    have hsplit : buf.drop pos = l.wire ++ (wire labels ++ rest) := by
      rw [h]
      simp [wire, wireLabels]
    have hdrop : buf.drop (pos + l.wire.length) = wire labels ++ rest := by
      rw [← List.drop_drop, hsplit, List.drop_left]
    have hlen : pos + l.wire.length + wireLength labels = pos + wireLength (l :: labels) := by
      simp only [wireLength, wire, wireLabels, List.flatMap_cons, List.length_append]
      omega
    exact .label hsplit (hlen ▸ ih hdrop)

end DomainName
