import Quantra.Journal.Entry
import Quantra.Lib.Bytes
import Mathlib.Data.List.Basic

/-! `handle_journal_client`: the entries that a client of the socket sends. -/
namespace Quantra.Journal

def decodeLine (bytes : List UInt8) : Option String := String.fromUTF8? ⟨bytes.toArray⟩

def dropReturnByte (bytes : List UInt8) : List UInt8 :=
  if bytes.getLast? = some 13 then bytes.dropLast else bytes

/-- `BufRead::lines`: each line up to a line feed, and what is left at the end of the stream; none
for a line that is no text. -/
def clientLines (stream : List UInt8) : List (Option String) :=
  let pieces := stream.splitOn 10
  let rest := pieces.getLast?.getD []
  pieces.dropLast.map (fun bytes => decodeLine (dropReturnByte bytes)) ++
    if rest = [] then [] else [decodeLine rest]

/-- What the loop keeps from line to line. -/
structure Client where
  unit : String
  priority : Priority
  message : String

def Client.start : Client := ⟨"unknown", .info, ""⟩

def Client.read (c : Client) (line : String) : Client :=
  match Text.splitOnce '=' line with
  | none => c
  | some (key, val) =>
    if key = "SYSLOG_IDENTIFIER" ∨ key = "_SYSTEMD_UNIT" then { c with unit := val }
    else if key = "PRIORITY" then
      match Text.parseUnsigned (2 ^ 8) val with
      | some n => { c with priority := .fromU8 n }
      | none => c
    else if key = "MESSAGE" then { c with message := val }
    else c

/-- The entries given to the writer; `now` is the clock at each line. -/
def clientEntries (now : ℕ → ℕ) (c : Client) : List (Option String) → List JournalEntry
  | [] => []
  | none :: _ => []
  | some line :: lines =>
    if line = "" then
      if c.message = "" then clientEntries (fun n => now (n + 1)) c lines
      else ⟨now 0, c.unit, 0, c.priority, c.message⟩ ::
        clientEntries (fun n => now (n + 1)) { c with message := "" } lines
    else clientEntries (fun n => now (n + 1)) (c.read line) lines

def handleJournalClient (now : ℕ → ℕ) (stream : List UInt8) : List JournalEntry :=
  clientEntries now .start (clientLines stream)

/-! What the records of a stream say. -/

/-- A block of lines. -/
abbrev Block := List (Option String)

/-- The blocks between the blank lines; the last one is ended by the end of the stream. -/
def blocks (lines : List (Option String)) : List Block := lines.splitOn (some "")

/-- The value of a line with one of the keys. -/
def valueOf (keys : List String) (line : Option String) : Option String :=
  (line.bind (Text.splitOnce '=')).bind fun (key, val) => if key ∈ keys then some val else none

def unitLine (line : Option String) : Option String :=
  valueOf ["SYSLOG_IDENTIFIER", "_SYSTEMD_UNIT"] line

def priorityLine (line : Option String) : Option Priority :=
  ((valueOf ["PRIORITY"] line).bind (Text.parseUnsigned (2 ^ 8))).map .fromU8

def messageLine (line : Option String) : Option String := valueOf ["MESSAGE"] line

/-- The last value that a block gives. -/
def given {α : Type} (f : Option String → Option α) (b : Block) : Option α :=
  (b.filterMap f).getLast?

def HasMessage (b : Block) : Prop := (given messageLine b).isSome

instance (b : Block) : Decidable (HasMessage b) :=
  inferInstanceAs (Decidable (_ = true))

/-- What an entry says. -/
structure Saying where
  unit : String
  priority : Priority
  message : String
  deriving DecidableEq, Repr

def JournalEntry.saying (e : JournalEntry) : Saying := ⟨e.unit, e.priority, e.message⟩

/-- What a record says, with the defaults for what it does not give. -/
def recordSaying (b : Block) : Saying :=
  ⟨(given unitLine b).getD "unknown", (given priorityLine b).getD .info,
    (given messageLine b).getD ""⟩

/-- What the records with a message say. -/
def expected (bs : List Block) : List Saying :=
  (bs.filter fun b => HasMessage b).map recordSaying

/-- One entry for each record with a message, in order, with what the record says. -/
def Ingested (entries : List JournalEntry) (lines : List (Option String)) : Prop :=
  entries.map JournalEntry.saying = expected (blocks lines)

/-- A record is taken in for what it is: a blank line ends it, no line up to there is unreadable,
its message is not empty, and it does not take up another unit or priority. -/
structure Separate (c : Client) (front : List Block) (b : Block) (back : List Block) : Prop where
  ended : back ≠ []
  readable : ∀ b' ∈ front ++ [b], none ∉ b'
  message : given messageLine b ≠ some ""
  unit : given unitLine b = none → (given unitLine front.flatten).getD c.unit = "unknown"
  priority : given priorityLine b = none →
    (given priorityLine front.flatten).getD c.priority = .info

/-! A line. -/

section Line
variable {c : Client} {line : String}

theorem unit_read : (c.read line).unit = (unitLine (some line)).getD c.unit := by
  unfold Client.read unitLine valueOf
  rw [Option.bind_some]
  cases Text.splitOnce '=' line with
  | none => rfl
  | some pair =>
    obtain ⟨key, val⟩ := pair
    simp only [Option.bind_some, List.mem_cons, List.not_mem_nil, or_false]
    split_ifs
    · rfl
    · cases Text.parseUnsigned (2 ^ 8) val with
      | none => rfl
      | some n => rfl
    · rfl
    · rfl

theorem priority_read : (c.read line).priority = (priorityLine (some line)).getD c.priority := by
  unfold Client.read priorityLine valueOf
  rw [Option.bind_some]
  cases Text.splitOnce '=' line with
  | none => rfl
  | some pair =>
    obtain ⟨key, val⟩ := pair
    simp only [Option.bind_some, List.mem_singleton]
    by_cases hunit : key = "SYSLOG_IDENTIFIER" ∨ key = "_SYSTEMD_UNIT"
    · have hno : key ≠ "PRIORITY" := by
        obtain rfl | rfl := hunit
        · decide
        · decide
      rw [if_pos hunit, if_neg hno]
      rfl
    · rw [if_neg hunit]
      split_ifs
      · rw [Option.bind_some]
        cases Text.parseUnsigned (2 ^ 8) val with
        | none => rfl
        | some n => rfl
      · rfl
      · rfl

theorem message_read : (c.read line).message = (messageLine (some line)).getD c.message := by
  unfold Client.read messageLine valueOf
  rw [Option.bind_some]
  cases Text.splitOnce '=' line with
  | none => rfl
  | some pair =>
    obtain ⟨key, val⟩ := pair
    simp only [Option.bind_some, List.mem_singleton]
    by_cases hmessage : key = "MESSAGE"
    · have hunit : ¬ (key = "SYSLOG_IDENTIFIER" ∨ key = "_SYSTEMD_UNIT") := by
        rw [hmessage]
        decide
      have hpriority : key ≠ "PRIORITY" := by
        rw [hmessage]
        decide
      rw [if_neg hunit, if_neg hpriority, if_pos hmessage, if_pos hmessage]
      rfl
    · rw [if_neg hmessage, if_neg hmessage]
      split_ifs
      · rfl
      · cases Text.parseUnsigned (2 ^ 8) val with
        | none => rfl
        | some n => rfl
      · rfl

end Line

/-! A block. -/

section Block
variable {α : Type} {f : Option String → Option α} {c : Client} {b : Block}

theorem given_append (a b : Block) : given f (a ++ b) = (given f b).or (given f a) := by
  rw [given, List.filterMap_append, List.getLast?_append]
  rfl

theorem given_cons (line : Option String) (b : Block) :
    given f (line :: b) = (given f b).or (f line) := by
  rw [← List.singleton_append, given_append]
  cases hline : f line with
  | none => simp [given, hline]
  | some a => simp [given, hline]

/-- The state after the lines of a block. -/
def Client.readBlock (c : Client) (b : Block) : Client :=
  b.foldl (fun c line => match line with
    | some line => c.read line
    | none => c) c

theorem readBlock_cons (line : String) : c.readBlock (some line :: b) = (c.read line).readBlock b :=
  rfl

theorem getD_or {x y : Option α} {a : α} : (x.or y).getD a = x.getD (y.getD a) := by
  cases x with
  | none => rfl
  | some _ => rfl

/-- Of each kind the last value stays, and what was there before if there is none. -/
theorem readBlock_eq (h : none ∉ b) : c.readBlock b =
    ⟨(given unitLine b).getD c.unit, (given priorityLine b).getD c.priority,
      (given messageLine b).getD c.message⟩ := by
  induction b generalizing c with
  | nil => rfl
  | cons line b ih =>
    rw [List.mem_cons, not_or] at h
    cases line with
    | none => exact absurd rfl h.1
    | some line =>
      rw [readBlock_cons, ih h.2, given_cons, given_cons, given_cons, getD_or, getD_or, getD_or,
        unit_read, priority_read, message_read]

end Block

/-! The loop, block by block. -/

section Blocks
variable {now : ℕ → ℕ} {c : Client} {b : Block} {bs : List Block} {lines : List (Option String)}

/-- What the entries say that the blocks give: none behind a line that cannot be read, and none from
the last block. -/
def sayings (c : Client) : List Block → List Saying
  | [] => []
  | [_] => []
  | b :: b' :: bs =>
    if none ∈ b then []
    else if (c.readBlock b).message = "" then sayings (c.readBlock b) (b' :: bs)
    else ⟨(c.readBlock b).unit, (c.readBlock b).priority, (c.readBlock b).message⟩ ::
      sayings { c.readBlock b with message := "" } (b' :: bs)

theorem sayings_cons_line {line : String} :
    sayings c ((some line :: b) :: bs) = sayings (c.read line) (b :: bs) := by
  have hmem : none ∈ some line :: b ↔ none ∈ b := by simp
  cases bs with
  | nil => rfl
  | cons b' bs =>
    rw [sayings, sayings, readBlock_cons]
    by_cases hnone : none ∈ b
    · rw [if_pos (hmem.2 hnone), if_pos hnone]
    · rw [if_neg fun h => hnone (hmem.1 h), if_neg hnone]

theorem sayings_cons_none : sayings c ((none :: b) :: bs) = [] := by
  cases bs with
  | nil => rfl
  | cons b' bs =>
    unfold sayings
    rw [if_pos List.mem_cons_self]

theorem blocks_cons_ne {line : Option String} (h : line ≠ some "") :
    ∃ b bs, blocks lines = b :: bs ∧ blocks (line :: lines) = (line :: b) :: bs := by
  obtain ⟨b, bs, hb⟩ := List.exists_cons_of_ne_nil (List.splitOn_ne_nil (some "") lines)
  refine ⟨b, bs, hb, ?_⟩
  rw [blocks, List.splitOn_cons_eq_if_modifyHead, if_neg (by simpa using h), hb]
  rfl

theorem map_saying_clientEntries :
    (clientEntries now c lines).map JournalEntry.saying = sayings c (blocks lines) := by
  induction lines generalizing now c with
  | nil => rfl
  | cons line lines ih =>
    cases line with
    | none =>
      obtain ⟨b, bs, -, hblocks⟩ := @blocks_cons_ne lines none (by simp)
      rw [hblocks, sayings_cons_none]
      rfl
    | some line =>
      by_cases hblank : line = ""
      · have hblocks : blocks (some line :: lines) = [] :: blocks lines := by
          rw [hblank]
          exact List.splitOn_append_cons_self [] lines
        have hstay : c.readBlock [] = c := rfl
        obtain ⟨b, bs, hb⟩ := List.exists_cons_of_ne_nil (List.splitOn_ne_nil (some "") lines)
        rw [hblocks, clientEntries, if_pos hblank, blocks, hb, sayings, if_neg List.not_mem_nil,
          hstay]
        by_cases hempty : c.message = ""
        · rw [if_pos hempty, if_pos hempty, ih, blocks, hb]
        · rw [if_neg hempty, if_neg hempty, List.map_cons, ih, blocks, hb]
          rfl
      · have hne : some line ≠ some "" := fun heq => hblank (Option.some.inj heq)
        obtain ⟨b, bs, hb, hblocks⟩ := @blocks_cons_ne lines _ hne
        rw [hblocks, sayings_cons_line, clientEntries, if_neg hblank, ih, hb]

theorem message_readBlock (h : none ∉ b) (hc : c.message = "") :
    (c.readBlock b).message = (given messageLine b).getD "" := by
  rw [readBlock_eq h, hc]

theorem hasMessage_of_readBlock (h : none ∉ b) (hc : c.message = "")
    (hb : (c.readBlock b).message ≠ "") : HasMessage b := by
  rw [message_readBlock h hc] at hb
  cases hgiven : given messageLine b with
  | none => exact absurd (by rw [hgiven]; rfl) hb
  | some m => rw [HasMessage, hgiven, Option.isSome_some]

theorem expected_cons_of_hasMessage (h : HasMessage b) :
    expected (b :: bs) = recordSaying b :: expected bs := by
  have hpos : decide (HasMessage b) = true := decide_eq_true h
  rw [expected, List.filter_cons, if_pos hpos, List.map_cons, expected]

theorem expected_cons_of_not_hasMessage (h : ¬ HasMessage b) :
    expected (b :: bs) = expected bs := by
  have hneg : ¬ decide (HasMessage b) = true := by rwa [decide_eq_true_eq]
  rw [expected, List.filter_cons, if_neg hneg, expected]

theorem length_expected_le : (expected bs).length ≤ (expected (b :: bs)).length := by
  by_cases hb : HasMessage b
  · rw [expected_cons_of_hasMessage hb, List.length_cons]
    omega
  · exact Nat.le_of_eq (by rw [expected_cons_of_not_hasMessage hb])

/-- The loop makes no entry of its own. -/
theorem length_sayings_le (hc : c.message = "") :
    (sayings c bs).length ≤ (expected bs).length := by
  induction bs generalizing c with
  | nil => exact Nat.zero_le _
  | cons b bs ih =>
    cases bs with
    | nil => exact Nat.zero_le _
    | cons b' bs =>
      rw [sayings]
      by_cases hnone : none ∈ b
      · rw [if_pos hnone]
        exact Nat.zero_le _
      · rw [if_neg hnone]
        by_cases hempty : (c.readBlock b).message = ""
        · rw [if_pos hempty]
          exact Nat.le_trans (ih hempty) length_expected_le
        · have hrest := ih (c := { c.readBlock b with message := "" }) rfl
          rw [if_neg hempty, expected_cons_of_hasMessage (hasMessage_of_readBlock hnone hc hempty),
            List.length_cons, List.length_cons]
          omega

theorem forall_append_cons_iff {P : List Block → Block → List Block → Prop} :
    (∀ front r back, b :: bs = front ++ r :: back → P front r back) ↔
      P [] b bs ∧ ∀ front r back, bs = front ++ r :: back → P (b :: front) r back := by
  constructor
  · intro h
    exact ⟨h [] b bs rfl, fun front r back heq => h (b :: front) r back (by rw [heq]; rfl)⟩
  · intro h front r back heq
    cases front with
    | nil =>
      obtain ⟨hb, hbs⟩ := List.cons.inj heq
      rw [← hb, ← hbs]
      exact h.1
    | cons a front =>
      obtain ⟨ha, hfront⟩ := List.cons.inj heq
      rw [← ha]
      exact h.2 front r back hfront

/-- The records after a block are separate from it if they are so from the state it leaves. -/
theorem separate_cons {front back : List Block} {r : Block} (h : none ∉ b) (message : String) :
    Separate c (b :: front) r back ↔
      Separate ⟨(c.readBlock b).unit, (c.readBlock b).priority, message⟩ front r back := by
  rw [readBlock_eq h]
  have hunit : (given unitLine (b :: front).flatten).getD c.unit =
      (given unitLine front.flatten).getD ((given unitLine b).getD c.unit) := by
    rw [List.flatten_cons, given_append, getD_or]
  have hpriority : (given priorityLine (b :: front).flatten).getD c.priority =
      (given priorityLine front.flatten).getD ((given priorityLine b).getD c.priority) := by
    rw [List.flatten_cons, given_append, getD_or]
  constructor
  · intro hs
    refine ⟨hs.ended, fun b' hb' => hs.readable b' (List.mem_cons_of_mem b hb'), hs.message, ?_, ?_⟩
    · intro hnone
      rw [← hs.unit hnone, hunit]
    · intro hnone
      rw [← hs.priority hnone, hpriority]
  · intro hs
    refine ⟨hs.ended, List.forall_mem_cons.2 ⟨h, hs.readable⟩, hs.message, ?_, ?_⟩
    · intro hnone
      rw [hunit]
      exact hs.unit hnone
    · intro hnone
      rw [hpriority]
      exact hs.priority hnone

theorem expected_eq_nil_iff :
    [] = expected bs ↔ ∀ front r back, bs = front ++ r :: back → ¬ HasMessage r := by
  rw [eq_comm, expected, List.map_eq_nil_iff, List.filter_eq_nil_iff]
  constructor
  · intro h front r back heq hr
    have hmem : r ∈ bs := by
      rw [heq]
      exact List.mem_append_right front List.mem_cons_self
    exact h r hmem (decide_eq_true hr)
  · intro h r hmem hr
    obtain ⟨front, back, heq⟩ := List.append_of_mem hmem
    exact h front r back heq (of_decide_eq_true hr)

/-- If no record is separate, none may have a message. -/
theorem forall_separate_iff
    (h : ∀ front r back, bs = front ++ r :: back → ¬ Separate c front r back) :
    [] = expected bs ↔
      ∀ front r back, bs = front ++ r :: back → HasMessage r → Separate c front r back := by
  rw [expected_eq_nil_iff]
  constructor
  · intro hno front r back heq hr
    exact absurd hr (hno front r back heq)
  · intro hall front r back heq hr
    exact h front r back heq (hall front r back heq hr)

theorem separate_nil_iff (hne : bs ≠ []) (hb : none ∉ b) (hm : given messageLine b ≠ some "") :
    Separate c [] b bs ↔ (c.readBlock b).unit = (given unitLine b).getD "unknown" ∧
      (c.readBlock b).priority = (given priorityLine b).getD .info := by
  rw [readBlock_eq hb]
  constructor
  · intro hs
    constructor
    · cases hunit : given unitLine b with
      | none => exact hs.unit hunit
      | some u => rfl
    · cases hpriority : given priorityLine b with
      | none => exact hs.priority hpriority
      | some p => rfl
  · intro h
    obtain ⟨hunit, hpriority⟩ := h
    refine ⟨hne, fun b' hb' => ?_, hm, fun hnone => ?_, fun hnone => ?_⟩
    · rw [List.mem_singleton.1 hb']
      exact hb
    · rw [hnone] at hunit
      exact hunit
    · rw [hnone] at hpriority
      exact hpriority

/-- What the loop makes of the blocks is what the records say, exactly if each record with a message
is separate. -/
theorem sayings_eq_iff (hc : c.message = "") : sayings c bs = expected bs ↔
    ∀ front r back, bs = front ++ r :: back → HasMessage r → Separate c front r back := by
  induction bs generalizing c with
  | nil =>
    refine iff_of_true rfl fun front r back heq => ?_
    exact absurd heq (by simp)
  | cons b bs ih =>
    cases bs with
    | nil =>
      refine forall_separate_iff fun front r back heq hs => ?_
      have hlen := congrArg List.length heq
      have hback := List.length_pos_iff.2 hs.ended
      rw [List.length_append, List.length_cons, List.length_cons, List.length_nil] at hlen
      omega
    | cons b' bs =>
      rw [sayings]
      by_cases hnone : none ∈ b
      · rw [if_pos hnone]
        refine forall_separate_iff fun front r back heq hs => ?_
        have hfirst : b ∈ front ++ [r] := by
          cases front with
          | nil => exact List.mem_singleton.2 (List.cons.inj heq).1
          | cons a front => exact List.mem_cons.2 (.inl (List.cons.inj heq).1)
        exact hs.readable b hfirst hnone
      · rw [if_neg hnone, forall_append_cons_iff]
        by_cases hempty : (c.readBlock b).message = ""
        · have hstate : c.readBlock b = ⟨(c.readBlock b).unit, (c.readBlock b).priority, ""⟩ := by
            rw [← hempty]
          rw [if_pos hempty]
          simp only [separate_cons hnone ""]
          rw [← hstate, ← ih hempty]
          by_cases hb : HasMessage b
          · -- an empty message: the code makes no entry
            have hlen : (sayings (c.readBlock b) (b' :: bs)).length ≤
                (expected (b' :: bs)).length := length_sayings_le hempty
            rw [expected_cons_of_hasMessage hb]
            constructor
            · intro heq
              rw [heq, List.length_cons] at hlen
              omega
            · intro h
              have hm := (h.1 hb).message
              rw [message_readBlock hnone hc] at hempty
              rw [HasMessage, Option.isSome_iff_exists] at hb
              obtain ⟨m, hb⟩ := hb
              rw [hb, Option.getD_some] at hempty
              exact absurd (by rw [hb, hempty]) hm
          · rw [expected_cons_of_not_hasMessage hb, and_iff_right fun h => absurd h hb]
        · have hb := hasMessage_of_readBlock hnone hc hempty
          have hm : given messageLine b ≠ some "" := by
            intro heq
            rw [message_readBlock hnone hc, heq] at hempty
            exact hempty rfl
          rw [if_neg hempty, expected_cons_of_hasMessage hb, List.cons.injEq]
          simp only [separate_cons hnone ""]
          rw [ih rfl, separate_nil_iff (List.cons_ne_nil b' bs) hnone hm, recordSaying,
            Saying.mk.injEq, message_readBlock hnone hc]
          constructor
          · intro h
            exact ⟨fun _ => ⟨h.1.1, h.1.2.1⟩, h.2⟩
          · intro h
            exact ⟨⟨(h.1 hb).1, (h.1 hb).2, rfl⟩, h.2⟩

end Blocks

/-- A client's stream is taken in record by record exactly if each record with a message is separate
from those before it. -/
theorem client_ingested_iff (now : ℕ → ℕ) (stream : List UInt8) :
    Ingested (handleJournalClient now stream) (clientLines stream) ↔
      ∀ front b back, blocks (clientLines stream) = front ++ b :: back → HasMessage b →
        Separate .start front b back := by
  rw [Ingested, handleJournalClient, map_saying_clientEntries]
  exact sayings_eq_iff rfl

/-- The second record of a client has the unit of the first, and the last one is lost if no blank
line ends it. -/
theorem client_mixed :
    ¬ Ingested (handleJournalClient (fun _ => 0)
        (Bytes.asBytes "SYSLOG_IDENTIFIER=web\nMESSAGE=up\n\nMESSAGE=down\n\n"))
      (clientLines (Bytes.asBytes "SYSLOG_IDENTIFIER=web\nMESSAGE=up\n\nMESSAGE=down\n\n")) ∧
    ¬ Ingested (handleJournalClient (fun _ => 0) (Bytes.asBytes "MESSAGE=up\n"))
      (clientLines (Bytes.asBytes "MESSAGE=up\n")) := by
  have hmixed : clientLines
      (Bytes.asBytes "SYSLOG_IDENTIFIER=web\nMESSAGE=up\n\nMESSAGE=down\n\n") =
      [some "SYSLOG_IDENTIFIER=web", some "MESSAGE=up", some "", some "MESSAGE=down", some ""] := by
    decide
  have hlost : clientLines (Bytes.asBytes "MESSAGE=up\n") = [some "MESSAGE=up"] := by decide
  rw [handleJournalClient, handleJournalClient, hmixed, hlost]
  unfold Ingested
  decide

end Quantra.Journal
