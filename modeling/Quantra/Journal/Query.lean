import Quantra.Journal.Entry
import Mathlib.Data.List.Infix
import Mathlib.Data.List.Basic
import Mathlib.Data.List.Forall2

/-! `JournalWriter::write` and `query`: the lines of the journal file, and those of a unit. -/
namespace Quantra.Journal
open Json (decimal Plain)

/-- The journal file, if there is one, and the files it was renamed to, by their second. -/
structure Files where
  current : Option String
  rotated : List (ℕ × String)

def maxJournalBytes : ℕ := 50 * 1024 * 1024

/-- A file that was renamed in the same second is replaced. -/
def Files.rotate (f : Files) (now : ℕ) : Files :=
  match f.current with
  | some content => ⟨none, (now, content) :: f.rotated.filter (·.1 ≠ now)⟩
  | none => f

def Files.write (f : Files) (now : ℕ) (e : JournalEntry) : Files :=
  let f := match f.current with
    | some content => if maxJournalBytes < content.utf8ByteSize then f.rotate now else f
    | none => f
  { f with current := some (f.current.getD "" ++ toJsonLine e) }

/-- Entries, each with the second at which it is written. -/
def Files.writeAll (f : Files) (entries : List (ℕ × JournalEntry)) : Files :=
  entries.foldl (fun f p => f.write p.1 p.2) f

/-- An empty journal file, or none yet. -/
def emptyJournal (created : Bool) (rotated : List (ℕ × String)) : Files :=
  ⟨if created then some "" else none, rotated⟩

/-- `str::contains`. -/
def contains (text pattern : String) : Bool := pattern.toList <:+: text.toList

/-- The last `n` items. -/
def lastOf {α : Type} (n : ℕ) (as : List α) : List α := (as.reverse.take n).reverse

def query (f : Files) (unit : String) (maxLines : ℕ) : List String :=
  match f.current with
  | none => []
  | some content => lastOf maxLines ((Text.lines content).filter fun line =>
      contains line ("\"unit\":\"" ++ unit ++ "\""))

/-! What is to be in the file, and what a query is to give. -/

def journalText (entries : List JournalEntry) : String :=
  String.ofList (entries.flatMap fun e => (toJsonLine e).toList)

/-- The entries that the file has: with a file over the limit, the next entry begins a new one. -/
def sinceRotation (entries : List JournalEntry) : List JournalEntry :=
  entries.foldl (fun kept e =>
    if maxJournalBytes < (journalText kept).utf8ByteSize then [e] else kept ++ [e]) []

def decodedUnit (line : String) : Option String :=
  (Json.parseFlat line).bind fun j => j.field "unit" Json.asStr

/-- The lines are those of the entries, and the query gives the last ones with the unit. -/
structure Faithful (f : Files) (entries : List JournalEntry) (unit : String) (maxLines : ℕ) :
    Prop where
  lines : List.Forall₂ Decodes (Text.lines (f.current.getD "")) entries
  query : query f unit maxLines = lastOf maxLines
    ((Text.lines (f.current.getD "")).filter fun line => decodedUnit line = some unit)

/-- The unit, with a quote behind it, is how the text goes on behind the opening quote of the unit
of an entry. -/
def GoesOn (unit : String) (e : JournalEntry) : Prop :=
  unit.toList ++ ['"'] <+: fromUnit e

/-! The file. -/

section File
variable {f : Files} {now : ℕ} {e : JournalEntry} {kept entries : List JournalEntry}

theorem journalText_concat :
    journalText (entries ++ [e]) = journalText entries ++ toJsonLine e := by
  rw [← String.toList_inj]
  simp [journalText]

theorem content_write (h : f.current.getD "" = journalText kept) :
    (f.write now e).current.getD "" = journalText
      (if maxJournalBytes < (journalText kept).utf8ByteSize then [e] else kept ++ [e]) := by
  unfold Files.write
  cases hcurrent : f.current with
  | none =>
    rw [hcurrent, Option.getD_none] at h
    rw [← h, if_neg (by decide), journalText_concat, ← h]
    simp [hcurrent]
  | some content =>
    rw [hcurrent, Option.getD_some] at h
    dsimp only
    rw [h]
    split_ifs with hlarge
    · rw [Files.rotate, hcurrent, ← List.nil_append [e], journalText_concat]
      rfl
    · rw [hcurrent, journalText_concat, ← h]
      rfl

theorem content_writeAll {events : List (ℕ × JournalEntry)}
    (h : f.current.getD "" = journalText kept) :
    (f.writeAll events).current.getD "" = journalText ((events.map Prod.snd).foldl (fun kept e =>
      if maxJournalBytes < (journalText kept).utf8ByteSize then [e] else kept ++ [e]) kept) := by
  induction events generalizing f kept with
  | nil => exact h
  | cons p events ih => exact ih (content_write h)

theorem content_emptyJournal (created : Bool) (rotated : List (ℕ × String))
    (events : List (ℕ × JournalEntry)) :
    ((emptyJournal created rotated).writeAll events).current.getD "" =
      journalText (sinceRotation (events.map Prod.snd)) := by
  refine content_writeAll ?_
  cases created <;> rfl

theorem sinceRotation_concat : sinceRotation (entries ++ [e]) =
    if maxJournalBytes < (journalText (sinceRotation entries)).utf8ByteSize then [e]
      else sinceRotation entries ++ [e] := by
  unfold sinceRotation
  rw [List.foldl_append]
  rfl

/-- The file has the end of what was written. -/
theorem sinceRotation_suffix (entries : List JournalEntry) : sinceRotation entries <:+ entries := by
  induction entries using List.reverseRecOn with
  | nil => exact List.suffix_refl []
  | append_singleton entries e ih =>
    rw [sinceRotation_concat]
    split_ifs
    · exact List.suffix_append entries [e]
    · obtain ⟨front, hfront⟩ := ih
      exact ⟨front, by rw [← List.append_assoc, hfront]⟩

/-- The file has all of what was written while that is no more than the limit. -/
theorem sinceRotation_of_le (h : (journalText entries).utf8ByteSize ≤ maxJournalBytes) :
    sinceRotation entries = entries := by
  induction entries using List.reverseRecOn with
  | nil => rfl
  | append_singleton entries e ih =>
    rw [journalText_concat, String.utf8ByteSize_append] at h
    have hall : sinceRotation entries = entries := ih (Nat.le_trans (Nat.le_add_right _ _) h)
    rw [sinceRotation_concat, hall, if_neg]
    omega

end File

/-! The lines of the file. -/

section Lines
variable {e : JournalEntry} {entries : List JournalEntry}

/-- The line of an entry as `lines` gives it. -/
def lineOf (e : JournalEntry) : String := String.ofList (beforeUnit e ++ fromUnit e)

theorem toList_journalText_cons : (journalText (e :: entries)).toList =
    beforeUnit e ++ fromUnit e ++ '\n' :: (journalText entries).toList := by
  unfold journalText
  rw [String.toList_ofList, String.toList_ofList, List.flatMap_cons, toList_toJsonLine,
    List.append_assoc _ ['\n'], List.singleton_append]

theorem not_mem_decimal (i : ℤ) {c : Char} (hdigit : c.isDigit = false) (hminus : c ≠ '-') :
    c ∉ decimal i := by
  have hdigits : ∀ n, c ∉ Nat.toDigits 10 n := by
    intro n hmem
    rw [Nat.isDigit_of_mem_toDigits (by decide) (by decide) hmem] at hdigit
    cases hdigit
  cases i with
  | ofNat n => exact hdigits n
  | negSucc n =>
    intro hmem
    obtain heq | hmem := List.mem_cons.1 hmem
    · exact hminus heq
    · exact hdigits (n + 1) hmem

theorem not_mem_escapeMessage (message : String) : '\n' ∉ escapeMessage message := by
  rw [escapeMessage_eq]
  intro hmem
  obtain ⟨c, -, hc⟩ := List.mem_flatMap.1 hmem
  unfold escapeChar at hc
  split_ifs at hc with hslash hquote hfeed hreturn
  · exact absurd hc (by decide)
  · exact absurd hc (by decide)
  · exact absurd hc (by decide)
  · exact absurd hc (by decide)
  · exact hfeed (List.mem_singleton.1 hc).symm

theorem not_mem_asStr (p : Priority) : '\n' ∉ p.asStr.toList := by
  cases p <;> decide

theorem not_mem_fromPid : '\n' ∉ fromPid e := by
  have hpid := not_mem_decimal e.pid (c := '\n') (by decide) (by decide)
  have hpriority := not_mem_decimal e.priority.number (c := '\n') (by decide) (by decide)
  have hlevel := not_mem_asStr e.priority
  have hmessage := not_mem_escapeMessage e.message
  simp [fromPid, fromLevel, fromMessage, hpid, hpriority, hlevel, hmessage]

theorem not_mem_beforeUnit : '\n' ∉ beforeUnit e := by
  have hts := not_mem_decimal (e.timestampUs / 1000000 : ℕ) (c := '\n') (by decide) (by decide)
  simp only [beforeUnit, List.mem_cons, List.mem_append, hts]
  decide

theorem not_mem_line (h : '\n' ∉ e.unit.toList) : '\n' ∉ beforeUnit e ++ fromUnit e := by
  have hbefore := not_mem_beforeUnit (e := e)
  have hpid := not_mem_fromPid (e := e)
  simp [fromUnit, hbefore, hpid, h]

theorem dropCarriageReturn_line :
    Text.dropCarriageReturn (beforeUnit e ++ fromUnit e) = beforeUnit e ++ fromUnit e := by
  have hlast : (beforeUnit e ++ fromUnit e).getLast? = some '\x7d' := by
    simp [fromUnit, fromPid, fromLevel, fromMessage, List.getLast?_append, List.getLast?_cons]
  rw [Text.dropCarriageReturn, hlast, if_neg (by decide)]

theorem lines_journalText_cons (h : '\n' ∉ e.unit.toList) :
    Text.lines (journalText (e :: entries)) = lineOf e :: Text.lines (journalText entries) := by
  rw [← String.ofList_toList (s := journalText (e :: entries)), toList_journalText_cons,
    Text.lines_cons (not_mem_line h), dropCarriageReturn_line, String.ofList_toList]
  rfl

theorem not_mem_unit (h : Writable e) : '\n' ∉ e.unit.toList := by
  intro hmem
  exact absurd (h.unit '\n' hmem).2.2 (by decide)

theorem lines_of_writable (h : ∀ e ∈ entries, Writable e) :
    Text.lines (journalText entries) = entries.map lineOf := by
  induction entries with
  | nil => rfl
  | cons e entries ih =>
    obtain ⟨he, hrest⟩ := List.forall_mem_cons.1 h
    rw [lines_journalText_cons (not_mem_unit he), ih hrest, List.map_cons]

/-- A unit with a line feed cuts its line short. -/
theorem not_mem_of_decodes {es : List JournalEntry}
    (h : List.Forall₂ Decodes (Text.lines (journalText (e :: entries))) (e :: es)) :
    '\n' ∉ e.unit.toList := by
  intro hmem
  obtain ⟨front, back, hunit, hfront⟩ := List.eq_append_cons_of_mem hmem
  have hcut : (journalText (e :: entries)).toList = (beforeUnit e ++ front) ++ '\n' ::
      (back ++ '"' :: ',' :: fromPid e ++ '\n' :: (journalText entries).toList) := by
    rw [toList_journalText_cons, fromUnit, hunit]
    simp
  have hno : '\n' ∉ beforeUnit e ++ front := by
    rw [List.mem_append, not_or]
    exact ⟨not_mem_beforeUnit, hfront⟩
  rw [← String.ofList_toList (s := journalText (e :: entries)), hcut, Text.lines_cons hno] at h
  have hfirst := (List.forall₂_cons.1 h).1
  have hshort : ∃ cs, Text.dropCarriageReturn (beforeUnit e ++ front) = beforeUnit e ++ cs ∧
      cs.length ≤ front.length := by
    unfold Text.dropCarriageReturn
    split_ifs with hreturn
    · refine ⟨front.dropLast, ?_, by simp⟩
      have hne : front ≠ [] := by
        intro hnil
        rw [hnil] at hreturn
        simp [beforeUnit, List.getLast?_append, List.getLast?_cons] at hreturn
      rw [List.dropLast_append_of_ne_nil hne]
    · exact ⟨front, rfl, Nat.le_refl _⟩
  obtain ⟨cs, hcs, hlen⟩ := hshort
  rw [hcs] at hfirst
  have hlt := length_lt_of_decodes hfirst
  rw [hunit, List.length_append, List.length_cons] at hlt
  omega

theorem writable_of_forall₂
    (h : List.Forall₂ Decodes (Text.lines (journalText entries)) entries) :
    ∀ e ∈ entries, Writable e := by
  induction entries with
  | nil => exact fun e he => absurd he List.not_mem_nil
  | cons e entries ih =>
    have hfeed := not_mem_of_decodes h
    rw [lines_journalText_cons hfeed] at h
    obtain ⟨hline, hrest⟩ := List.forall₂_cons.1 h
    exact List.forall_mem_cons.2 ⟨writable_of_decodes hline, ih hrest⟩

theorem forall₂_decodes_iff :
    List.Forall₂ Decodes (Text.lines (journalText entries)) entries ↔
      ∀ e ∈ entries, Writable e := by
  refine ⟨writable_of_forall₂, fun h => ?_⟩
  rw [lines_of_writable h, List.forall₂_map_left_iff, List.forall₂_same]
  exact fun e he => decodes_of_writable (h e he)

end Lines

/-! Where a line has the name of the unit. -/

/-- `"unit":"`. -/
def unitKey : List Char := '"' :: ("unit".toList ++ ['"', ':', '"'])

/-- The text goes on with `t` behind the name. -/
def Behind (s t : List Char) : Prop := ∃ front, s = front ++ unitKey ++ t

section Behind
variable {c : Char} {s t piece : List Char}

theorem behind_cons : Behind (c :: s) t ↔ c :: s = unitKey ++ t ∨ Behind s t := by
  constructor
  · intro h
    obtain ⟨front, hfront⟩ := h
    cases front with
    | nil => exact .inl hfront
    | cons d front => exact .inr ⟨front, (List.cons.inj hfront).2⟩
  · intro h
    obtain heq | ⟨front, hfront⟩ := h
    · exact ⟨[], heq⟩
    · exact ⟨c :: front, by rw [hfront]; rfl⟩

theorem not_behind_nil : ¬ Behind [] t := by
  intro h
  obtain ⟨front, hfront⟩ := h
  simp [unitKey] at hfront

theorem behind_cons_ne (h : c ≠ '"') : Behind (c :: s) t ↔ Behind s t := by
  rw [behind_cons, or_iff_right]
  intro heq
  exact h (List.cons.inj heq).1

theorem behind_append (h : '"' ∉ piece) : Behind (piece ++ s) t ↔ Behind s t := by
  induction piece with
  | nil => exact Iff.rfl
  | cons c piece ih =>
    rw [List.mem_cons, not_or] at h
    rw [List.cons_append, behind_cons_ne (Ne.symm h.1), ih h.2]

theorem quote_append_inj {p q s t : List Char} (hp : '"' ∉ p) (hq : '"' ∉ q)
    (h : p ++ '"' :: s = q ++ '"' :: t) : p = q ∧ s = t := by
  have hpieces := congrArg (Text.splitChars '"') h
  rw [Text.splitChars_append hp, Text.splitChars_append hq, List.cons.injEq] at hpieces
  rw [hpieces.1] at h
  exact ⟨hpieces.1, (List.cons.inj (List.append_cancel_left h)).2⟩

/-- What stands between a quote and the next one is the name or not. -/
theorem behind_quote (h : '"' ∉ piece) : Behind ('"' :: (piece ++ '"' :: s)) t ↔
    (piece = "unit".toList ∧ s = ':' :: '"' :: t) ∨ Behind ('"' :: s) t := by
  rw [behind_cons, behind_append h]
  refine or_congr_left ?_
  have hname : '"' ∉ "unit".toList := by decide
  have hkey : unitKey ++ t = '"' :: ("unit".toList ++ '"' :: ':' :: '"' :: t) := by
    simp [unitKey]
  rw [hkey, List.cons.injEq, and_iff_right rfl]
  constructor
  · exact quote_append_inj h hname
  · intro heq
    rw [heq.1, heq.2]

theorem behind_quote_ne (h : '"' ∉ piece) (hne : piece ≠ "unit".toList) :
    Behind ('"' :: (piece ++ '"' :: s)) t ↔ Behind ('"' :: s) t := by
  rw [behind_quote h, or_iff_right fun hunit => hne hunit.1]

/-- The same between two pieces of which the second does not follow the name. -/
theorem behind_quote_comma (h : '"' ∉ piece) :
    Behind ('"' :: (piece ++ '"' :: ',' :: s)) t ↔ Behind ('"' :: ',' :: s) t := by
  rw [behind_quote h, or_iff_right]
  intro hunit
  exact absurd (List.cons.inj hunit.2).1 (by decide)

theorem behind_char (hc : c ≠ '"') :
    Behind ('"' :: c :: '"' :: s) t ↔ Behind ('"' :: s) t := by
  have hquote : '"' ∉ [c] := fun hmem => hc (List.mem_singleton.1 hmem).symm
  have hne : [c] ≠ "unit".toList := by
    intro heq
    have hlen := congrArg List.length heq
    have hfour : "unit".toList.length = 4 := by decide
    rw [hfour] at hlen
    cases hlen
  exact behind_quote_ne hquote hne

theorem behind_decimal (i : ℤ) :
    Behind ('"' :: ':' :: (decimal i ++ ',' :: '"' :: s)) t ↔ Behind ('"' :: s) t := by
  have hno : '"' ∉ decimal i := not_mem_decimal i (by decide) (by decide)
  have hquote : '"' ∉ ':' :: (decimal i ++ [',']) := by simp [hno]
  have hne : ':' :: (decimal i ++ [',']) ≠ "unit".toList := by
    intro heq
    exact absurd (List.cons.inj heq).1 (by decide)
  have hshape : '"' :: ':' :: (decimal i ++ ',' :: '"' :: s) =
      '"' :: ((':' :: (decimal i ++ [','])) ++ '"' :: s) := by simp
  rw [hshape, behind_quote_ne hquote hne]

end Behind

/-! The escaped message does not have the name: each quote in it stands behind a backslash. -/

section Message
variable {c : Char} {cs t : List Char}

theorem escapeChar_head (c : Char) : ∃ d ds, escapeChar c = d :: ds ∧ d ≠ '"' ∧
    (d ≠ '\\' → d = c ∧ ds = []) := by
  unfold escapeChar
  split_ifs with hslash hquote hfeed hreturn
  · exact ⟨_, _, rfl, by decide, fun h => absurd rfl h⟩
  · exact ⟨_, _, rfl, by decide, fun h => absurd rfl h⟩
  · exact ⟨_, _, rfl, by decide, fun h => absurd rfl h⟩
  · exact ⟨_, _, rfl, by decide, fun h => absurd rfl h⟩
  · exact ⟨c, [], rfl, hquote, fun _ => ⟨rfl, rfl⟩⟩

theorem escape_cons_inv (hquote : c ≠ '"') (hslash : c ≠ '\\')
    (h : cs.flatMap escapeChar ++ ['"', '\x7d'] = c :: t) :
    ∃ cs', cs = c :: cs' ∧ cs'.flatMap escapeChar ++ ['"', '\x7d'] = t := by
  cases cs with
  | nil => exact absurd (List.cons.inj h).1.symm hquote
  | cons d cs =>
    obtain ⟨d', ds, hd, -, hplain⟩ := escapeChar_head d
    rw [List.flatMap_cons, hd, List.cons_append, List.cons_append] at h
    obtain ⟨hc, ht⟩ := List.cons.inj h
    obtain ⟨hdc, hds⟩ := hplain (hc ▸ hslash)
    rw [hds, List.nil_append] at ht
    exact ⟨cs, by rw [← hdc, hc], ht⟩

theorem escape_ne_name :
    cs.flatMap escapeChar ++ ['"', '\x7d'] ≠ "unit".toList ++ '"' :: ':' :: '"' :: t := by
  intro h
  obtain ⟨cs₁, -, h⟩ := escape_cons_inv (by decide) (by decide) h
  obtain ⟨cs₂, -, h⟩ := escape_cons_inv (by decide) (by decide) h
  obtain ⟨cs₃, -, h⟩ := escape_cons_inv (by decide) (by decide) h
  obtain ⟨cs₄, -, h⟩ := escape_cons_inv (by decide) (by decide) h
  cases cs₄ with
  | nil => exact absurd (List.cons.inj (List.cons.inj h).2).1 (by decide)
  | cons d cs =>
    obtain ⟨d', ds, hd, hquote, -⟩ := escapeChar_head d
    rw [List.flatMap_cons, hd] at h
    exact hquote (List.cons.inj h).1

theorem behind_quote_escape : Behind ('"' :: (cs.flatMap escapeChar ++ ['"', '\x7d'])) t ↔
    Behind (cs.flatMap escapeChar ++ ['"', '\x7d']) t := by
  rw [behind_cons, or_iff_right]
  intro heq
  have hkey : unitKey ++ t = '"' :: ("unit".toList ++ '"' :: ':' :: '"' :: t) := by
    simp [unitKey]
  rw [hkey] at heq
  exact escape_ne_name (List.cons.inj heq).2

theorem not_behind_escape : ¬ Behind (cs.flatMap escapeChar ++ ['"', '\x7d']) t := by
  induction cs with
  | nil =>
    rw [List.flatMap_nil, List.nil_append, behind_cons, behind_cons_ne (by decide)]
    intro h
    obtain heq | hnil := h
    · exact absurd (List.cons.inj (List.cons.inj heq).2).1 (by decide)
    · exact not_behind_nil hnil
  | cons c cs ih =>
    have hcase : escapeChar c = ['\\', '"'] ∨ '"' ∉ escapeChar c := by
      unfold escapeChar
      split_ifs with hslash hquote
      · exact .inr (by decide)
      · exact .inl rfl
      · exact .inr (by decide)
      · exact .inr (by decide)
      · exact .inr fun hmem => hquote (List.mem_singleton.1 hmem).symm
    rw [List.flatMap_cons, List.append_assoc]
    obtain hescaped | hno := hcase
    · rwa [hescaped, List.cons_append, behind_cons_ne (by decide), List.singleton_append,
        behind_quote_escape]
    · rwa [behind_append hno]

end Message

section Line
variable {e : JournalEntry} {t : List Char}

theorem not_behind_fromMessage : ¬ Behind ('"' :: fromMessage e) t := by
  rw [fromMessage, escapeMessage_eq, behind_quote_escape]
  exact not_behind_escape

theorem not_behind_fromPid : ¬ Behind (fromPid e) t := by
  have hlevel : '"' ∉ e.priority.asStr.toList := by
    cases e.priority <;> decide
  rw [fromPid, behind_quote_ne (by decide) (by decide), fromLevel, behind_decimal,
    behind_quote_ne (by decide) (by decide), behind_decimal,
    behind_quote_ne (by decide) (by decide), behind_char (by decide), behind_quote_comma hlevel,
    behind_char (by decide), behind_quote_ne (by decide) (by decide), behind_char (by decide)]
  exact not_behind_fromMessage

/-- The name stands in a line once, before the unit. -/
theorem behind_line (h : '"' ∉ e.unit.toList) :
    Behind (beforeUnit e ++ fromUnit e) t ↔ t = fromUnit e := by
  have hshape : beforeUnit e ++ fromUnit e = '\x7b' :: '"' :: ("ts".toList ++ '"' :: ':' ::
      (decimal (e.timestampUs / 1000000 : ℕ) ++ ',' ::
        '"' :: ("unit".toList ++ '"' :: ':' :: '"' :: fromUnit e))) := by
    simp only [beforeUnit, List.append_assoc, List.cons_append, List.nil_append]
  have hrest : ¬ Behind ('"' :: fromUnit e) t := by
    have hpid : ∃ tail, fromPid e = '"' :: tail := ⟨_, rfl⟩
    obtain ⟨tail, htail⟩ := hpid
    rw [fromUnit, behind_quote_comma h, htail, behind_char (by decide), ← htail]
    exact not_behind_fromPid
  rw [hshape, behind_cons_ne (by decide), behind_quote_ne (by decide) (by decide),
    behind_decimal, behind_quote (by decide), behind_char (by decide), or_iff_left hrest,
    and_iff_right rfl, List.cons.injEq, List.cons.injEq, and_iff_right rfl, and_iff_right rfl]
  exact eq_comm

theorem contains_iff (h : '"' ∉ e.unit.toList) (unit : String) :
    contains (lineOf e) ("\"unit\":\"" ++ unit ++ "\"") ↔ GoesOn unit e := by
  have hpattern : ("\"unit\":\"" ++ unit ++ "\"").toList =
      unitKey ++ (unit.toList ++ ['"']) := by
    have hname : "\"unit\":\"".toList = unitKey := by decide
    rw [String.toList_append, String.toList_append, hname, List.append_assoc]
    rfl
  rw [contains, lineOf, String.toList_ofList, hpattern, decide_eq_true_eq, GoesOn]
  constructor
  · intro hinfix
    obtain ⟨front, back, hline⟩ := hinfix
    refine ⟨back, (behind_line h).1 ⟨front, ?_⟩⟩
    rw [← hline]
    simp
  · intro hgoes
    obtain ⟨back, hback⟩ := hgoes
    obtain ⟨front, hfront⟩ := (behind_line h).2 rfl
    exact ⟨front, back, by rw [hfront, ← hback]; simp⟩

theorem goesOn_self : GoesOn e.unit e :=
  ⟨',' :: fromPid e, by rw [fromUnit, List.append_assoc, List.singleton_append]⟩

theorem eq_of_goesOn {unit : String} (he : '"' ∉ e.unit.toList) (hunit : '"' ∉ unit.toList)
    (h : GoesOn unit e) : e.unit = unit := by
  obtain ⟨back, hback⟩ := h
  rw [fromUnit, List.append_assoc, List.singleton_append] at hback
  exact (String.toList_inj.1 (quote_append_inj hunit he hback).1).symm

theorem decodedUnit_lineOf (h : Writable e) : decodedUnit (lineOf e) = some e.unit := by
  have hdecodes := decodes_of_writable h
  rw [Decodes] at hdecodes
  rw [decodedUnit, lineOf, hdecodes, Option.bind_some, Json.field_obj_ne (by decide),
    Json.field_obj_self]
  rfl

end Line

/-! The query. -/

section Query
variable {f : Files} {entries : List JournalEntry} {unit : String} {maxLines : ℕ}

theorem query_eq (f : Files) : query f unit maxLines =
    lastOf maxLines ((Text.lines (f.current.getD "")).filter fun line =>
      contains line ("\"unit\":\"" ++ unit ++ "\"")) := by
  unfold query
  cases f.current with
  | none => simp [lastOf, Text.lines, Text.splitChars]
  | some content => rfl

theorem lastOf_eq_nil_iff {α : Type} {n : ℕ} {as : List α} :
    lastOf n as = [] ↔ n = 0 ∨ as = [] := by
  rw [lastOf, List.reverse_eq_nil_iff, List.take_eq_nil_iff, List.reverse_eq_nil_iff]

/-- A unit without quotes finds its own lines only. One with a quote is the unit of no line, so that
any line that it finds is wrong. -/
theorem lastOf_filter_eq_iff (h : ∀ e ∈ entries, Writable e) :
    lastOf maxLines ((entries.map lineOf).filter fun line =>
        contains line ("\"unit\":\"" ++ unit ++ "\"")) =
      lastOf maxLines ((entries.map lineOf).filter fun line => decodedUnit line = some unit) ↔
    maxLines = 0 ∨ ∀ e ∈ entries, GoesOn unit e → e.unit = unit := by
  have hquote : ∀ e ∈ entries, '"' ∉ e.unit.toList :=
    fun e he hmem => (((h e he).unit) '"' hmem).1 rfl
  have hfound : ∀ e ∈ entries, (contains (lineOf e) ("\"unit\":\"" ++ unit ++ "\"") = true ↔
      GoesOn unit e) := fun e he => contains_iff (hquote e he) unit
  have hunit : ∀ e ∈ entries, (decodedUnit (lineOf e) = some unit ↔ e.unit = unit) := by
    intro e he
    rw [decodedUnit_lineOf (h e he), Option.some.injEq]
  constructor
  · intro heq
    by_contra hno
    rw [not_or, not_forall] at hno
    obtain ⟨hpos, e, hforged⟩ := hno
    rw [Classical.not_imp, Classical.not_imp] at hforged
    obtain ⟨he, hgoes, hne⟩ := hforged
    have hu : '"' ∈ unit.toList := by
      by_contra hu
      exact hne (eq_of_goesOn (hquote e he) hu hgoes)
    have hnone : (entries.map lineOf).filter (fun line => decodedUnit line = some unit) = [] := by
      rw [List.filter_eq_nil_iff, List.forall_mem_map]
      intro e' he'
      rw [decide_eq_true_eq, hunit e' he']
      intro heq'
      exact hquote e' he' (heq' ▸ hu)
    rw [hnone, lastOf_eq_nil_iff.2 (.inr rfl), lastOf_eq_nil_iff, or_iff_right hpos,
      List.filter_eq_nil_iff, List.forall_mem_map] at heq
    exact heq e he ((hfound e he).2 hgoes)
  · intro hall
    obtain hzero | hall := hall
    · rw [lastOf_eq_nil_iff.2 (.inl hzero), lastOf_eq_nil_iff.2 (.inl hzero)]
    · congr 1
      rw [List.filter_map, List.filter_map]
      congr 1
      refine List.filter_congr fun e he => ?_
      rw [Function.comp_apply, Function.comp_apply, Bool.eq_iff_iff, hfound e he,
        decide_eq_true_eq, hunit e he]
      constructor
      · exact hall e he
      · intro heq
        rw [← heq]
        exact goesOn_self

end Query

section Faithful
variable {created : Bool} {rotated : List (ℕ × String)} {events : List (ℕ × JournalEntry)}
  {unit : String} {maxLines : ℕ}

theorem writable_of_faithful (h : Faithful ((emptyJournal created rotated).writeAll events)
    (sinceRotation (events.map Prod.snd)) unit maxLines) :
    ∀ e ∈ sinceRotation (events.map Prod.snd), Writable e := by
  have hlines := h.lines
  rw [content_emptyJournal] at hlines
  exact writable_of_forall₂ hlines

theorem own_of_faithful (h : Faithful ((emptyJournal created rotated).writeAll events)
    (sinceRotation (events.map Prod.snd)) unit maxLines) :
    maxLines = 0 ∨ ∀ e ∈ sinceRotation (events.map Prod.snd), GoesOn unit e → e.unit = unit := by
  have hwritable := writable_of_faithful h
  have hquery := h.query
  rw [query_eq, content_emptyJournal, lines_of_writable hwritable] at hquery
  exact (lastOf_filter_eq_iff hwritable).1 hquery

theorem faithful_of_writable (hwritable : ∀ e ∈ sinceRotation (events.map Prod.snd), Writable e)
    (hown : maxLines = 0 ∨
      ∀ e ∈ sinceRotation (events.map Prod.snd), GoesOn unit e → e.unit = unit) :
    Faithful ((emptyJournal created rotated).writeAll events)
      (sinceRotation (events.map Prod.snd)) unit maxLines := by
  constructor
  · rw [content_emptyJournal]
    exact forall₂_decodes_iff.2 hwritable
  · rw [query_eq, content_emptyJournal, lines_of_writable hwritable]
    exact (lastOf_filter_eq_iff hwritable).2 hown

end Faithful

/-- The file of a journal that was empty is faithful, and so is a query, exactly if the entries
since the last rotation are writable and none has another unit that the query takes for its own. -/
theorem journal_faithful_iff (created : Bool) (rotated : List (ℕ × String))
    (events : List (ℕ × JournalEntry)) (unit : String) (maxLines : ℕ) :
    Faithful ((emptyJournal created rotated).writeAll events)
        (sinceRotation (events.map Prod.snd)) unit maxLines ↔
      (∀ e ∈ sinceRotation (events.map Prod.snd), Writable e) ∧
        (maxLines = 0 ∨ ∀ e ∈ sinceRotation (events.map Prod.snd),
          GoesOn unit e → e.unit = unit) :=
  ⟨fun h => ⟨writable_of_faithful h, own_of_faithful h⟩,
    fun h => faithful_of_writable h.1 h.2⟩

/-- What an empty journal has after one entry. -/
def journalOf (e : JournalEntry) : Files := (emptyJournal true []).writeAll [(0, e)]

/-- An entry with a tab in its message, one with a quote in its unit, and a query for a unit with a
quote that finds the entry of another one. -/
theorem journal_unfaithful :
    ¬ Faithful (journalOf ⟨0, "web", 0, .info, "a\tb"⟩) [⟨0, "web", 0, .info, "a\tb"⟩] "web" 100 ∧
    ¬ Faithful (journalOf ⟨0, "a\"b", 0, .info, "up"⟩) [⟨0, "a\"b", 0, .info, "up"⟩] "web" 100 ∧
    ¬ Faithful (journalOf ⟨0, "web", 0, .info, "up"⟩) [⟨0, "web", 0, .info, "up"⟩]
      "web\",\"pid\":0,\"priority\":6,\"level\":\"INFO" 100 := by
  have hmem : ∀ e : JournalEntry, e ∈ sinceRotation [e] := fun e => List.mem_singleton_self e
  refine ⟨fun h => ?_, fun h => ?_, fun h => ?_⟩
  · have hwritable := @writable_of_faithful true [] [(0, _)] _ _ h _ (hmem _)
    exact absurd (hwritable.message '\t' (by decide)) (by decide)
  · have hwritable := @writable_of_faithful true [] [(0, _)] _ _ h _ (hmem _)
    exact (hwritable.unit '"' (by decide)).1 rfl
  · have hown := @own_of_faithful true [] [(0, _)] _ _ h
    have hgoes : GoesOn "web\",\"pid\":0,\"priority\":6,\"level\":\"INFO"
        ⟨0, "web", 0, .info, "up"⟩ := by
      unfold GoesOn
      decide
    obtain hzero | hall := hown
    · cases hzero
    · exact absurd (hall _ (hmem _) hgoes) (by decide)

end Quantra.Journal
