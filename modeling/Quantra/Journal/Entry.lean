import Quantra.Lib.JsonText

/-! `JournalEntry::to_json_line`: the line of an entry, and when it can be read back. -/
namespace Quantra.Journal
open Json (decimal Plain)

inductive Priority
  | emergency | alert | critical | error | warning | notice | info | debug
  deriving DecidableEq, Repr

def Priority.number : Priority → ℕ
  | .emergency => 0 | .alert => 1 | .critical => 2 | .error => 3
  | .warning => 4 | .notice => 5 | .info => 6 | .debug => 7

def Priority.asStr : Priority → String
  | .emergency => "EMERG" | .alert => "ALERT" | .critical => "CRIT" | .error => "ERR"
  | .warning => "WARN" | .notice => "NOTICE" | .info => "INFO" | .debug => "DEBUG"

def Priority.fromU8 : ℕ → Priority
  | 0 => .emergency | 1 => .alert | 2 => .critical | 3 => .error
  | 4 => .warning | 5 => .notice | 6 => .info | _ => .debug

structure JournalEntry where
  timestampUs : ℕ
  unit : String
  pid : ℤ
  priority : Priority
  message : String
  deriving DecidableEq, Repr

/-- `str::replace` of a character. -/
def replaceChar (c : Char) (new cs : List Char) : List Char :=
  cs.flatMap fun d => if d = c then new else [d]

/-- The four replacements, one after the other. -/
def escapeMessage (message : String) : List Char :=
  replaceChar '\r' ['\\', 'r'] <| replaceChar '\n' ['\\', 'n'] <|
    replaceChar '"' ['\\', '"'] <| replaceChar '\\' ['\\', '\\'] message.toList

def toJsonLine (e : JournalEntry) : String :=
  String.ofList ("\x7b\"ts\":".toList ++ decimal (e.timestampUs / 1000000 : ℕ) ++
    ",\"unit\":\"".toList ++ e.unit.toList ++ "\",\"pid\":".toList ++ decimal e.pid ++
    ",\"priority\":".toList ++ decimal e.priority.number ++ ",\"level\":\"".toList ++
    e.priority.asStr.toList ++ "\",\"msg\":\"".toList ++ escapeMessage e.message ++
    "\"\x7d\n".toList)

/-- The line is the JSON object of the entry, in seconds. -/
def Decodes (line : String) (e : JournalEntry) : Prop :=
  Json.parseFlat line = some (.obj [("ts", .uint (e.timestampUs / 1000000)), ("unit", .str e.unit),
    ("pid", .ofInt e.pid), ("priority", .uint e.priority.number),
    ("level", .str e.priority.asStr), ("msg", .str e.message)])

/-- No control character but a line break. -/
def Readable (c : Char) : Prop := 0x20 ≤ c.toNat ∨ c = '\n' ∨ c = '\r'

instance (c : Char) : Decidable (Readable c) := inferInstanceAs (Decidable (_ ∨ _))

/-- What the line can hold: a unit without quotes, backslashes and control characters, and a message
whose control characters are line breaks. -/
structure Writable (e : JournalEntry) : Prop where
  unit : Plain e.unit.toList
  message : ∀ c ∈ e.message.toList, Readable c

/-! The parts of a line. -/

/-- What stands in the line behind the message, behind the level and so on. -/
def fromMessage (e : JournalEntry) : List Char := escapeMessage e.message ++ ['"', '\x7d']

def fromLevel (e : JournalEntry) : List Char :=
  '"' :: ("level".toList ++ '"' :: ':' :: '"' :: (e.priority.asStr.toList ++ '"' :: ',' ::
    '"' :: ("msg".toList ++ '"' :: ':' :: '"' :: fromMessage e)))

def fromPid (e : JournalEntry) : List Char :=
  '"' :: ("pid".toList ++ '"' :: ':' :: (decimal e.pid ++ ',' ::
    '"' :: ("priority".toList ++ '"' :: ':' :: (decimal e.priority.number ++ ',' :: fromLevel e))))

/-- What stands between the opening quote of the unit and the end of the line. -/
def fromUnit (e : JournalEntry) : List Char := e.unit.toList ++ '"' :: ',' :: fromPid e

def beforeUnit (e : JournalEntry) : List Char :=
  '\x7b' :: '"' :: ("ts".toList ++ '"' :: ':' :: (decimal (e.timestampUs / 1000000 : ℕ) ++ ',' ::
    '"' :: ("unit".toList ++ '"' :: ':' :: ['"'])))

theorem toList_toJsonLine (e : JournalEntry) :
    (toJsonLine e).toList = beforeUnit e ++ fromUnit e ++ ['\n'] := by
  have hts : "\x7b\"ts\":".toList = '\x7b' :: '"' :: ("ts".toList ++ ['"', ':']) := by decide
  have hunit : ",\"unit\":\"".toList = ',' :: '"' :: ("unit".toList ++ ['"', ':', '"']) := by decide
  have hpid : "\",\"pid\":".toList = '"' :: ',' :: '"' :: ("pid".toList ++ ['"', ':']) := by decide
  have hpriority : ",\"priority\":".toList = ',' :: '"' :: ("priority".toList ++ ['"', ':']) := by
    decide
  have hlevel : ",\"level\":\"".toList = ',' :: '"' :: ("level".toList ++ ['"', ':', '"']) := by
    decide
  have hmsg : "\",\"msg\":\"".toList = '"' :: ',' :: '"' :: ("msg".toList ++ ['"', ':', '"']) := by
    decide
  have hend : "\"\x7d\n".toList = ['"', '\x7d', '\n'] := by decide
  unfold toJsonLine beforeUnit fromUnit fromPid fromLevel fromMessage
  rw [String.toList_ofList, hts, hunit, hpid, hpriority, hlevel, hmsg, hend]
  simp only [List.append_assoc, List.cons_append, List.nil_append]

/-! The message. -/

/-- What becomes of a character. -/
def escapeChar (c : Char) : List Char :=
  if c = '\\' then ['\\', '\\'] else if c = '"' then ['\\', '"']
  else if c = '\n' then ['\\', 'n'] else if c = '\r' then ['\\', 'r'] else [c]

/-- No replacement finds anything in what an earlier one has put there. -/
theorem escapeMessage_eq (message : String) :
    escapeMessage message = message.toList.flatMap escapeChar := by
  unfold escapeMessage replaceChar
  rw [List.flatMap_assoc, List.flatMap_assoc, List.flatMap_assoc]
  refine List.flatMap_congr fun c _ => ?_
  unfold escapeChar
  split_ifs with hslash hquote hfeed hreturn
  · rfl
  · rw [hquote]
    rfl
  · rw [hfeed]
    rfl
  · rw [hreturn]
    rfl
  · simp [hquote, hfeed, hreturn]

theorem escapeChar_of_plain {c : Char} (h : c ≠ '\\' ∧ c ≠ '"' ∧ c ≠ '\n' ∧ c ≠ '\r') :
    escapeChar c = [c] := by
  rw [escapeChar, if_neg h.1, if_neg h.2.1, if_neg h.2.2.1, if_neg h.2.2.2]

/-- One character of a message. -/
theorem string_escapeChar (n : ℕ) (c : Char) (cs : List Char) :
    Json.string (n + 1) (escapeChar c ++ cs) = if Readable c then
      (Json.string n cs).map fun q => (c :: q.1, q.2) else none := by
  by_cases hplain : c ≠ '\\' ∧ c ≠ '"' ∧ c ≠ '\n' ∧ c ≠ '\r'
  · rw [escapeChar_of_plain hplain, List.singleton_append]
    obtain ⟨hslash, hquote, hfeed, hreturn⟩ := hplain
    split_ifs with hread
    · obtain hlow | hbreak := hread
      · exact Json.string_plain_cons hquote hslash hlow
      · exact absurd hbreak (not_or.2 ⟨hfeed, hreturn⟩)
    · exact Json.string_control hquote hslash (Nat.lt_of_not_le (not_or.1 hread).1)
  · have hspecial : c = '\\' ∨ c = '"' ∨ c = '\n' ∨ c = '\r' := by
      by_contra hno
      simp only [not_or] at hno
      exact hplain hno
    obtain rfl | rfl | rfl | rfl := hspecial
    · rw [if_pos (by decide)]
      exact Json.string_escape_cons (by decide) (by decide)
    · rw [if_pos (by decide)]
      exact Json.string_escape_cons (by decide) (by decide)
    · rw [if_pos (by decide)]
      exact Json.string_escape_cons (by decide) (by decide)
    · rw [if_pos (by decide)]
      exact Json.string_escape_cons (by decide) (by decide)

def allReadable (cs : List Char) : Bool := cs.all fun c => Readable c

theorem allReadable_iff {cs : List Char} : allReadable cs = true ↔ ∀ c ∈ cs, Readable c := by
  unfold allReadable
  simp only [List.all_eq_true, decide_eq_true_eq]

theorem string_escapeMessage {n : ℕ} {cs rest : List Char} (hn : cs.length < n) :
    Json.string n (cs.flatMap escapeChar ++ '"' :: rest) =
      if allReadable cs then some (cs, rest) else none := by
  induction cs generalizing n with
  | nil =>
    obtain ⟨m, rfl⟩ := Nat.exists_eq_succ_of_ne_zero (Nat.ne_of_gt hn)
    exact Json.string_quote
  | cons c cs ih =>
    obtain ⟨m, rfl⟩ := Nat.exists_eq_succ_of_ne_zero (Nat.ne_of_gt (Nat.zero_lt_of_lt hn))
    rw [List.flatMap_cons, List.append_assoc, string_escapeChar,
      ih (Nat.lt_of_succ_lt_succ hn)]
    have hcons : allReadable (c :: cs) = (decide (Readable c) && allReadable cs) := rfl
    rw [hcons]
    by_cases hc : Readable c
    · rw [if_pos hc, decide_eq_true hc, Bool.true_and]
      split_ifs
      · rfl
      · rfl
    · rw [if_neg hc, decide_eq_false hc, Bool.false_and, if_neg Bool.false_ne_true]

theorem length_le_escape (cs : List Char) : cs.length ≤ (cs.flatMap escapeChar).length := by
  induction cs with
  | nil => exact Nat.le_refl 0
  | cons c cs ih =>
    have hone : 1 ≤ (escapeChar c).length := by
      unfold escapeChar
      split_ifs <;> simp
    rw [List.flatMap_cons, List.length_append, List.length_cons]
    omega

/-! Reading a line back. -/

section Line
variable {e : JournalEntry} {cs : List Char}

theorem value_message : Json.value ('"' :: fromMessage e) =
    if allReadable e.message.toList then some (.str e.message, ['\x7d']) else none := by
  have hlen : e.message.toList.length < (fromMessage e).length := by
    have hle := length_le_escape e.message.toList
    rw [fromMessage, escapeMessage_eq, List.length_append]
    simp only [List.length_cons]
    omega
  have hstring : Json.string (fromMessage e).length (fromMessage e) =
      if allReadable e.message.toList then some (e.message.toList, ['\x7d']) else none := by
    have hread := @string_escapeMessage _ e.message.toList ['\x7d'] hlen
    rw [← escapeMessage_eq] at hread
    exact hread
  rw [Json.value_string, hstring]
  split_ifs
  · rw [Option.map_some, String.ofList_toList]
  · rfl

/-- The members of an object whose text goes on with another one. -/
theorem member_string {name v rest : List Char} (hname : Plain name) (hv : Plain v) :
    Json.member ('"' :: (name ++ '"' :: ':' :: '"' :: (v ++ '"' :: rest))) =
      some ((String.ofList name, .str (String.ofList v)), rest) := by
  have hlen : v.length < (v ++ '"' :: rest).length := by
    rw [List.length_append, List.length_cons]
    omega
  rw [Json.member_eq hname, Json.value_string, Json.string_plain hv hlen]
  rfl

theorem member_decimal {name rest : List Char} (hname : Plain name) (i : ℤ) :
    Json.member ('"' :: (name ++ '"' :: ':' :: (decimal i ++ ',' :: rest))) =
      some ((String.ofList name, .ofInt i), ',' :: rest) := by
  have hstop : ∀ c ∈ (',' :: rest).head?, c.isDigit = false := by
    intro c hc
    rw [← Option.some.inj hc]
    rfl
  rw [Json.member_eq hname, Json.value_decimal i hstop]
  rfl

theorem plain_asStr (p : Priority) : Plain p.asStr.toList := by
  cases p <;> exact Text.forall_mem_of_all (by decide)

theorem members_fromLevel (n : ℕ) : Json.members (n + 2) (fromLevel e) =
    if allReadable e.message.toList then
      some ([("level", .str e.priority.asStr), ("msg", .str e.message)], []) else none := by
  have hlevel : Plain "level".toList := Text.forall_mem_of_all (by decide)
  have hmsg : Plain "msg".toList := Text.forall_mem_of_all (by decide)
  unfold fromLevel
  rw [Json.members_comma (member_string hlevel (plain_asStr e.priority))]
  have hlast : Json.member ('"' :: ("msg".toList ++ '"' :: ':' :: '"' :: fromMessage e)) = _ :=
    Json.member_eq hmsg
  rw [value_message] at hlast
  split_ifs at hlast ⊢ with hread
  · rw [Json.members_close hlast, Option.map_some]
    simp only [String.ofList_toList]
  · rw [Json.members, hlast]
    rfl

theorem members_fromPid (n : ℕ) : Json.members (n + 4) (fromPid e) =
    if allReadable e.message.toList then
      some ([("pid", .ofInt e.pid), ("priority", .uint e.priority.number),
        ("level", .str e.priority.asStr), ("msg", .str e.message)], []) else none := by
  have hpid : Plain "pid".toList := Text.forall_mem_of_all (by decide)
  have hpriority : Plain "priority".toList := Text.forall_mem_of_all (by decide)
  unfold fromPid
  rw [Json.members_comma (member_decimal hpid e.pid),
    Json.members_comma (member_decimal hpriority e.priority.number), members_fromLevel]
  split_ifs
  · rfl
  · rfl

/-- The member of the unit, before what follows its opening quote. -/
def unitMember (cs : List Char) : List Char := '"' :: ("unit".toList ++ '"' :: ':' :: '"' :: cs)

theorem member_unitMember : Json.member (unitMember cs) =
    (Json.string cs.length cs).map fun p => (("unit", .str (String.ofList p.1)), p.2) := by
  have hunit : Plain "unit".toList := Text.forall_mem_of_all (by decide)
  rw [unitMember, Json.member_eq hunit, Json.value_string, Option.map_map]
  rfl

/-- A text that starts as the line does is read up to the member of the unit. -/
theorem parseFlat_beforeUnit (e : JournalEntry) (cs : List Char) :
    ∃ n, Json.parseFlat (String.ofList (beforeUnit e ++ cs)) =
      (Json.members (n + 5) (unitMember cs)).bind fun q =>
        if q.2.all Json.isSpace then
          some (.obj (("ts", .uint (e.timestampUs / 1000000)) :: q.1)) else none := by
  have hts : Plain "ts".toList := Text.forall_mem_of_all (by decide)
  have hmember := @member_decimal _ (unitMember cs) hts (e.timestampUs / 1000000 : ℕ)
  have hline : beforeUnit e ++ cs = '\x7b' :: '"' :: ("ts".toList ++ '"' :: ':' ::
      (decimal (e.timestampUs / 1000000 : ℕ) ++ ',' :: unitMember cs)) := by
    unfold beforeUnit unitMember
    simp only [List.append_assoc, List.cons_append, List.nil_append]
  obtain ⟨n, hn⟩ : ∃ n, ('"' :: ("ts".toList ++ '"' :: ':' ::
      (decimal (e.timestampUs / 1000000 : ℕ) ++ ',' :: unitMember cs))).length = n + 5 + 1 := by
    refine ⟨("ts".toList ++ '"' :: ':' ::
      (decimal (e.timestampUs / 1000000 : ℕ) ++ ',' :: unitMember cs)).length - 5, ?_⟩
    simp only [List.length_cons, List.length_append, unitMember]
    omega
  refine ⟨n, ?_⟩
  rw [Json.parseFlat, String.toList_ofList, hline, Json.object, Json.token_self (by decide),
    Option.bind_some, Json.token_ne (by decide) (by decide)]
  dsimp only
  rw [hn, Json.members_comma hmember]
  cases Json.members (n + 5) (unitMember cs) <;> rfl

theorem members_fromUnit (n : ℕ) (h : Plain e.unit.toList) :
    Json.members (n + 5) (unitMember (fromUnit e)) =
      if allReadable e.message.toList then
        some ([("unit", .str e.unit), ("pid", .ofInt e.pid), ("priority", .uint e.priority.number),
          ("level", .str e.priority.asStr), ("msg", .str e.message)], []) else none := by
  have hunit : Plain "unit".toList := Text.forall_mem_of_all (by decide)
  have hmember : Json.member (unitMember (fromUnit e)) =
      some (("unit", .str e.unit), ',' :: fromPid e) := by
    rw [unitMember, fromUnit, member_string hunit h, String.ofList_toList, String.ofList_toList]
  rw [Json.members_comma hmember, members_fromPid]
  split_ifs
  · rfl
  · rfl

theorem decodes_of_writable (h : Writable e) :
    Decodes (String.ofList (beforeUnit e ++ fromUnit e)) e := by
  obtain ⟨n, hparse⟩ := parseFlat_beforeUnit e (fromUnit e)
  rw [Decodes, hparse, members_fromUnit n h.unit, if_pos (allReadable_iff.2 h.message)]
  rfl

/-- The string behind the opening quote of the unit. -/
theorem string_of_decodes (h : Decodes (String.ofList (beforeUnit e ++ cs)) e) :
    ∃ rest r, Json.string cs.length cs = some (e.unit.toList, rest) ∧
      (Json.token ',' rest = some r ∨ Json.token '\x7d' rest = some r) := by
  obtain ⟨n, hparse⟩ := parseFlat_beforeUnit e cs
  rw [Decodes, hparse] at h
  obtain ⟨⟨ms, behind⟩, hmembers, h⟩ := Option.bind_eq_some_iff.1 h
  split_ifs at h
  rw [Option.some.injEq, Json.obj.injEq, List.cons.injEq] at h
  obtain ⟨-, hms⟩ := h
  obtain ⟨m, rest, r, hm, hhead, hnext⟩ := Json.members_inv hmembers
  dsimp only at hms
  rw [hms, List.head?_cons, Option.some.injEq] at hhead
  rw [member_unitMember, ← hhead] at hm
  obtain ⟨⟨v, rest'⟩, hstring, heq⟩ := Option.map_eq_some_iff.1 hm
  rw [Prod.mk.injEq, Prod.mk.injEq, Json.str.injEq] at heq
  obtain ⟨⟨-, hv⟩, hrest⟩ := heq
  refine ⟨rest, r, ?_, hnext⟩
  rw [hstring, ← hv, String.toList_ofList, ← hrest]

/-- A line that is cut within the unit does not have it. -/
theorem length_lt_of_decodes (h : Decodes (String.ofList (beforeUnit e ++ cs)) e) :
    e.unit.toList.length < cs.length := by
  obtain ⟨rest, r, hstring, -⟩ := string_of_decodes h
  exact Json.length_lt_of_string hstring

theorem writable_of_decodes (h : Decodes (String.ofList (beforeUnit e ++ fromUnit e)) e) :
    Writable e := by
  have hunit : Plain e.unit.toList := by
    obtain ⟨rest, r, hstring, hnext⟩ := string_of_decodes h
    have hfrom : ∃ tail, fromPid e = '"' :: 'p' :: tail := ⟨_, rfl⟩
    obtain ⟨tail, htail⟩ := hfrom
    rw [fromUnit, htail] at hstring
    exact Json.plain_of_string hstring hnext (by decide) (by decide)
  refine ⟨hunit, ?_⟩
  obtain ⟨n, hparse⟩ := parseFlat_beforeUnit e (fromUnit e)
  rw [Decodes, hparse, members_fromUnit n hunit] at h
  by_contra hread
  rw [if_neg fun hall => hread (allReadable_iff.1 hall)] at h
  cases h

end Line

end Quantra.Journal
