import Mathlib.Data.Nat.Notation

/-! A stream of bytes that arrives in pieces. -/
namespace Pieces

/-- What the reads that follow return at most, if each asks for enough. -/
abbrev Reads := List (List UInt8)

/-- The bytes in pieces, none of them empty: an empty one would be the end of the stream. -/
def Cut (bytes : List UInt8) (reads : Reads) : Prop := reads.flatten = bytes ∧ [] ∉ reads

/-- `Read::read_exact`: reads until so many bytes have come. A read returns what it asks for at
most, and leaves the rest of its piece. -/
def readExact : ℕ → Reads → Except String (List UInt8 × Reads)
  | 0, reads => .ok ([], reads)
  | _ + 1, [] => .error "failed to fill whole buffer"
  | n + 1, piece :: reads =>
    if piece = [] then .error "failed to fill whole buffer"
    else if n + 1 < piece.length then .ok (piece.take (n + 1), piece.drop (n + 1) :: reads)
    else (readExact (n + 1 - piece.length) reads).map fun r => (piece ++ r.1, r.2)

variable {bytes front rest : List UInt8} {reads : Reads}

theorem readExact_zero : readExact 0 reads = .ok ([], reads) := by
  cases reads <;> rfl

theorem cut_nil : Cut [] reads ↔ reads = [] := by
  constructor
  · rintro ⟨hflat, hne⟩
    cases reads with
    | nil => rfl
    | cons piece reads =>
      have hpiece : piece = [] := (List.append_eq_nil_iff.1 hflat).1
      exact absurd (hpiece ▸ List.mem_cons_self) hne
  · rintro rfl
    exact ⟨rfl, List.not_mem_nil⟩

theorem cut_singleton (h : bytes ≠ []) : Cut bytes [bytes] :=
  ⟨List.append_nil bytes, fun hmem => h (List.mem_singleton.1 hmem).symm⟩

/-- Bytes can always be cut. -/
theorem exists_cut (bytes : List UInt8) : ∃ reads, Cut bytes reads := by
  by_cases h : bytes = []
  · exact ⟨[], h ▸ cut_nil.2 rfl⟩
  · exact ⟨[bytes], cut_singleton h⟩

/-- However the bytes are cut, the first of them are read and the others are left. -/
theorem readExact_append (h : Cut (front ++ rest) reads) :
    ∃ reads', readExact front.length reads = .ok (front, reads') ∧ Cut rest reads' := by
  induction reads generalizing front with
  | nil =>
    have hnil := List.append_eq_nil_iff.1 h.1.symm
    rw [hnil.1, hnil.2]
    exact ⟨[], rfl, rfl, List.not_mem_nil⟩
  | cons piece reads ih =>
    obtain ⟨hflat, hne⟩ := h
    rw [List.mem_cons, not_or] at hne
    cases front with
    | nil => exact ⟨piece :: reads, rfl, hflat, by simpa using hne⟩
    | cons b front =>
      rw [List.length_cons, readExact, if_neg (Ne.symm hne.1)]
      rw [List.flatten_cons] at hflat
      rcases List.append_eq_append_iff.1 hflat with ⟨tail, hfront, hreads⟩ | ⟨tail, hpiece, hrest⟩
      · -- The piece is used up, and the reads go on.
        have hlen : front.length + 1 = piece.length + tail.length := by
          rw [← List.length_append, ← hfront, List.length_cons]
        obtain ⟨reads', hread, hcut⟩ := ih ⟨hreads, hne.2⟩
        refine ⟨reads', ?_, hcut⟩
        rw [if_neg (by omega), hlen, Nat.add_sub_cancel_left, hread, hfront]
        rfl
      · have hlen : piece.length = front.length + 1 + tail.length := by
          rw [hpiece, List.length_append, List.length_cons]
        by_cases htail : tail = []
        · rw [htail, List.append_nil] at hpiece
          rw [htail, List.nil_append] at hrest
          rw [htail, List.length_nil, Nat.add_zero] at hlen
          refine ⟨reads, ?_, hrest.symm, hne.2⟩
          rw [if_neg (by omega), hlen, Nat.sub_self, hpiece, readExact_zero]
          exact congrArg (fun l => Except.ok (l, reads)) (List.append_nil _)
        · -- The read asks for less than the piece holds.
          have hpos := List.length_pos_iff.2 htail
          have htake : piece.take (front.length + 1) = b :: front := by
            rw [hpiece]
            exact List.take_left' rfl
          have hdrop : piece.drop (front.length + 1) = tail := by
            rw [hpiece]
            exact List.drop_left' rfl
          refine ⟨tail :: reads, ?_, hrest.symm, ?_⟩
          · rw [if_pos (by omega), htake, hdrop]
          · rw [List.mem_cons, not_or]
            exact ⟨Ne.symm htail, hne.2⟩

/-- The bytes that arrive before the stream ends. -/
def bytesBeforeEnd (reads : Reads) : List UInt8 := (reads.takeWhile (· ≠ [])).flatten

theorem bytesBeforeEnd_cons {piece : List UInt8} (h : piece ≠ []) (reads : Reads) :
    bytesBeforeEnd (piece :: reads) = piece ++ bytesBeforeEnd reads := by
  simp [bytesBeforeEnd, h]

/-- What is read is the front of what arrives, and the rest is left. -/
theorem readExact_bytes {n : ℕ} {reads' : Reads} (h : readExact n reads = .ok (front, reads')) :
    front.length = n ∧ bytesBeforeEnd reads = front ++ bytesBeforeEnd reads' := by
  induction reads generalizing n front with
  | nil =>
    cases n with
    | zero =>
      cases h
      exact ⟨rfl, rfl⟩
    | succ n => cases h
  | cons piece reads ih =>
    cases n with
    | zero =>
      cases h
      exact ⟨rfl, rfl⟩
    | succ n =>
      rw [readExact] at h
      split at h
      · cases h
      · rename_i hpiece
        rw [bytesBeforeEnd_cons hpiece]
        split at h
        · rename_i hlt
          cases h
          have hdrop : piece.drop (n + 1) ≠ [] := by
            rw [Ne, List.drop_eq_nil_iff]
            omega
          rw [bytesBeforeEnd_cons hdrop, ← List.append_assoc, List.take_append_drop]
          exact ⟨by rw [List.length_take]; omega, rfl⟩
        · rename_i hle
          cases hread : readExact (n + 1 - piece.length) reads with
          | error e =>
            rw [hread] at h
            cases h
          | ok r =>
            rw [hread] at h
            cases h
            obtain ⟨hlen, hbytes⟩ := ih hread
            rw [hbytes, List.append_assoc, List.length_append, hlen]
            exact ⟨by omega, rfl⟩

/-- As many bytes as arrive can be read. -/
theorem exists_readExact {n : ℕ} (h : n ≤ (bytesBeforeEnd reads).length) :
    ∃ front reads', readExact n reads = .ok (front, reads') := by
  induction reads generalizing n with
  | nil =>
    have hn : n = 0 := Nat.le_zero.1 h
    rw [hn]
    exact ⟨[], [], rfl⟩
  | cons piece reads ih =>
    cases n with
    | zero => exact ⟨[], piece :: reads, rfl⟩
    | succ n =>
      by_cases hpiece : piece = []
      · rw [hpiece] at h
        simp [bytesBeforeEnd] at h
      · rw [bytesBeforeEnd_cons hpiece, List.length_append] at h
        rw [readExact, if_neg hpiece]
        split
        · exact ⟨_, _, rfl⟩
        · have hrest : n + 1 - piece.length ≤ (bytesBeforeEnd reads).length := by omega
          obtain ⟨front, reads', hread⟩ := ih hrest
          rw [hread]
          exact ⟨_, _, rfl⟩

/-- Reading a number of bytes takes exactly those that arrive first. -/
theorem exists_readExact_iff :
    (∃ reads', readExact front.length reads = .ok (front, reads') ∧ bytesBeforeEnd reads' = rest) ↔
      bytesBeforeEnd reads = front ++ rest := by
  constructor
  · rintro ⟨reads', hread, rfl⟩
    exact (readExact_bytes hread).2
  · intro hbytes
    have hle : front.length ≤ (bytesBeforeEnd reads).length := by
      rw [hbytes, List.length_append]
      exact Nat.le_add_right ..
    obtain ⟨front', reads', hread⟩ := exists_readExact hle
    obtain ⟨hlen, hbytes'⟩ := readExact_bytes hread
    rw [hbytes] at hbytes'
    obtain ⟨rfl, rfl⟩ := List.append_inj hbytes' hlen.symm
    exact ⟨reads', hread, rfl⟩

end Pieces
