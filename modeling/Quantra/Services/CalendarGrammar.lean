import Quantra.Services.Calendar
import Mathlib.Data.List.Basic

/-! The grammar of calendar texts, and which texts `parse` reads beyond it. -/
namespace Quantra.Services.CalendarSpec

def twoDigits (n : ℕ) : String := String.ofList [Nat.digitChar (n / 10), Nat.digitChar (n % 10)]

/-- `HH:MM` or `HH:MM:SS`. -/
def clockText (h m : ℕ) (sec : Option ℕ) : String :=
  (String.singleton ':').intercalate ((h :: m :: sec.toList).map twoDigits)

/-- What may stand before a time: nothing, or a weekday and a blank. -/
def datePrefixes : List (String × Option ℕ) :=
  ("", none) :: weekdayPrefixes.map fun p => (p.1, some p.2)

/-- The calendar texts and the schedules they stand for. -/
inductive Written : String → CalendarSpec → Prop
  | minutely : Written "minutely"
      { hour := none, minute := 0, second := 0, minutely := true, weekday := none }
  | hourly : Written "hourly"
      { hour := none, minute := 0, second := 0, minutely := false, weekday := none }
  | daily : Written "daily"
      { hour := some 0, minute := 0, second := 0, minutely := false, weekday := none }
  | weekly : Written "weekly"
      { hour := some 0, minute := 0, second := 0, minutely := false, weekday := some 0 }
  | time {pre : String} {wd : Option ℕ} {h m : ℕ} {sec : Option ℕ} :
      (pre, wd) ∈ datePrefixes → h ≤ 23 → m ≤ 59 → (∀ s ∈ sec, s ≤ 59) →
      Written (pre ++ clockText h m sec)
        { hour := some h, minute := m, second := sec.getD 0, minutely := false, weekday := wd }

theorem twoDigits_checks : ∀ n < 60, Text.parseUnsigned 256 (twoDigits n) = some n ∧
    (twoDigits n).toList.all Char.isDigit := by
  decide

/-- Where hour, minute and second are in range, each is a number of two digits. -/
theorem lt_of_mem_clock {h m n : ℕ} {sec : Option ℕ} (hh : h ≤ 23) (hm : m ≤ 59)
    (hs : ∀ s ∈ sec, s ≤ 59) (hn : n ∈ h :: m :: sec.toList) : n < 60 := by
  rw [List.mem_cons, List.mem_cons, Option.mem_toList] at hn
  obtain rfl | rfl | hsec := hn
  · omega
  · omega
  · exact Nat.lt_succ_of_le (hs n hsec)

/-- The prefixes are of one length, so that only the one that was written is found. -/
theorem findSome_of_mem {pre : String} {wd : ℕ} (h : (pre, wd) ∈ weekdayPrefixes) (s : String) :
    (weekdayPrefixes.findSome? fun (p, n) =>
      (Text.dropLead p (pre ++ s)).map fun rest => (n, rest)) = some (wd, s) := by
  simp only [weekdayPrefixes, List.mem_cons, Prod.mk.injEq, List.not_mem_nil, or_false] at h
  rcases h with ⟨rfl, rfl⟩ | ⟨rfl, rfl⟩ | ⟨rfl, rfl⟩ | ⟨rfl, rfl⟩ | ⟨rfl, rfl⟩ | ⟨rfl, rfl⟩ |
    ⟨rfl, rfl⟩ <;> simp [weekdayPrefixes, Text.dropLead, List.isPrefixOf?]

theorem findSome_of_isDigit {s : String} {c : Char} {cs : List Char} (hs : s.toList = c :: cs)
    (hc : c.isDigit) :
    (weekdayPrefixes.findSome? fun (p, n) => (Text.dropLead p s).map fun rest => (n, rest)) =
      none := by
  have hletters : ∀ p ∈ weekdayPrefixes, p.1.toList.head?.all (fun l => !l.isDigit) ∧
      p.1.toList ≠ [] := by decide
  rw [List.findSome?_eq_none_iff]
  intro p hp
  obtain ⟨hletter, hne⟩ := hletters p hp
  obtain ⟨l, ls, hl⟩ := List.exists_cons_of_ne_nil hne
  have hlc : l ≠ c := by
    rintro rfl
    simp [hl, hc] at hletter
  simp [Text.dropLead, hs, hl, List.isPrefixOf?, hlc]

theorem Fields.unique {parts : List String} {h m s h' m' s' : ℕ} (hfields : Fields parts h m s)
    (hfields' : Fields parts h' m' s') : h = h' ∧ m = m' ∧ s = s' := by
  cases hfields with
  | full hh hm hs =>
    cases hfields' with
    | full hh' hm' hs' =>
      exact ⟨Option.some.inj (hh.symm.trans hh'), Option.some.inj (hm.symm.trans hm'),
        Option.some.inj (hs.symm.trans hs')⟩
  | short hh hm =>
    cases hfields' with
    | short hh' hm' =>
      exact ⟨Option.some.inj (hh.symm.trans hh'), Option.some.inj (hm.symm.trans hm'), rfl⟩

theorem clockText_head {h : ℕ} (hh : h ≤ 23) (m : ℕ) (sec : Option ℕ) :
    ∃ c cs, (clockText h m sec).toList = c :: cs ∧ c.isDigit := by
  have hdigits := (twoDigits_checks h (by omega)).2
  have hchars : (clockText h m sec).toList = Nat.digitChar (h / 10) :: [':'].intercalate
      ([Nat.digitChar (h % 10)] :: ((m :: sec.toList).map twoDigits).map String.toList) := by
    rw [clockText, String.toList_intercalate, String.toList_singleton, List.map_cons, List.map_cons,
      twoDigits, String.toList_ofList, List.intercalate_cons_cons_left]
  exact ⟨_, _, hchars, List.all_eq_true.1 hdigits _ (by simp [twoDigits])⟩

section
variable {h m : ℕ} {sec : Option ℕ} (hh : h ≤ 23) (hm : m ≤ 59) (hs : ∀ s ∈ sec, s ≤ 59)
include hh hm hs

theorem splitn_clockText :
    Text.splitn 3 ':' (clockText h m sec) = (h :: m :: sec.toList).map twoDigits := by
  refine Text.splitn_intercalate (List.cons_ne_nil _ _) ?_ ?_
  · cases sec with
    | none => simp
    | some s => simp
  · intro p hp hcolon
    obtain ⟨n, hn, rfl⟩ := List.mem_map.1 hp
    have hdigits := (twoDigits_checks n (lt_of_mem_clock hh hm hs hn)).2
    exact absurd (List.all_eq_true.1 hdigits ':' hcolon) (by decide)

theorem fields_clockText :
    Fields (Text.splitn 3 ':' (clockText h m sec)) h m (sec.getD 0) := by
  have hread : ∀ n ∈ h :: m :: sec.toList, Text.parseUnsigned 256 (twoDigits n) = some n :=
    fun n hn => (twoDigits_checks n (lt_of_mem_clock hh hm hs hn)).1
  rw [splitn_clockText hh hm hs]
  cases sec with
  | none => exact .short (hread h (by simp)) (hread m (by simp))
  | some s => exact .full (hread h (by simp)) (hread m (by simp)) (hread s (by simp))

theorem clockText_chars {c : Char} (hc : c ∈ (clockText h m sec).toList) :
    c = ':' ∨ c.isDigit := by
  rw [clockText, String.toList_intercalate, String.toList_singleton] at hc
  obtain hcolon | ⟨cs, hcs, hmem⟩ := Text.mem_intercalate hc
  · exact .inl hcolon
  · obtain ⟨p, hp, rfl⟩ := List.mem_map.1 hcs
    obtain ⟨n, hn, rfl⟩ := List.mem_map.1 hp
    have hdigits := (twoDigits_checks n (lt_of_mem_clock hh hm hs hn)).2
    exact .inr (List.all_eq_true.1 hdigits c hmem)

theorem trim_clockText : Text.trim (clockText h m sec) = clockText h m sec := by
  refine Text.trim_of_forall fun c hc => ?_
  obtain rfl | hdigit := clockText_chars hh hm hs hc
  · decide
  · exact Text.isWhitespace_of_isDigit hdigit

theorem parseWeekdayPrefix_clockText {pre : String} {wd : Option ℕ}
    (hpre : (pre, wd) ∈ datePrefixes) :
    parseWeekdayPrefix (pre ++ clockText h m sec) = (wd, clockText h m sec) := by
  obtain heq | hmem := List.mem_cons.1 hpre
  · cases heq
    obtain ⟨c, cs, hclock, hdigit⟩ := clockText_head hh m sec
    rw [String.empty_append]
    unfold parseWeekdayPrefix
    rw [findSome_of_isDigit hclock hdigit]
  · obtain ⟨⟨pre', wd'⟩, htable, heq⟩ := List.mem_map.1 hmem
    cases heq
    unfold parseWeekdayPrefix
    rw [findSome_of_mem htable]
    dsimp only
    rw [trim_clockText hh hm hs]

end

/-- What is left of a text for its time: without a weekday and a blank before it, and then without
the white space around the rest, or as a whole where no weekday stands there. -/
def TimePart (s time : String) : Prop :=
  (∃ p ∈ weekdayPrefixes, ∃ rest, s = p.1 ++ rest ∧ time = Text.trim rest) ∨
    ((∀ p ∈ weekdayPrefixes, ∀ rest, s ≠ p.1 ++ rest) ∧ time = s)

/-- The text has two or three numbers of type `u8` between colons, each of which may have a sign and
any number of digits. -/
def ReadAsTime (s : String) : Prop :=
  ∃ fields : List String, (fields.length = 2 ∨ fields.length = 3) ∧
    TimePart s ((String.singleton ':').intercalate fields) ∧
      ∀ field ∈ fields, (Text.parseUnsigned 256 field).isSome

/-- The fields are of two digits and in range, and nothing but a weekday and the one blank stands
around them. -/
def InForm (s : String) : Prop :=
  ∃ p ∈ datePrefixes, ∃ h m sec, s = p.1 ++ clockText h m sec ∧ h ≤ 23 ∧ m ≤ 59 ∧ ∀ n ∈ sec, n ≤ 59

theorem timePart_iff {s time : String} : TimePart s time ↔ (parseWeekdayPrefix s).2 = time := by
  constructor
  · rintro (⟨p, hp, rest, rfl, rfl⟩ | ⟨hnone, rfl⟩)
    · unfold parseWeekdayPrefix
      rw [findSome_of_mem hp]
    · have hfind : (weekdayPrefixes.findSome? fun (pre, wd) =>
          (Text.dropLead pre time).map fun rest => (wd, rest)) = none := by
        refine List.findSome?_eq_none_iff.2 fun p hp => ?_
        refine Option.map_eq_none_iff.2 (Option.eq_none_iff_forall_ne_some.2 fun rest hrest => ?_)
        refine hnone p hp rest (String.toList_inj.1 ?_)
        rw [String.toList_append, Text.toList_of_dropLead hrest]
      unfold parseWeekdayPrefix
      rw [hfind]
  · rintro rfl
    unfold parseWeekdayPrefix
    split
    · rename_i wd rest hfind
      obtain ⟨⟨pre, n⟩, hp, hdrop⟩ := List.exists_of_findSome?_eq_some hfind
      obtain ⟨rest', hrest, heq⟩ := Option.map_eq_some_iff.1 hdrop
      cases heq
      refine .inl ⟨_, hp, _, String.toList_inj.1 ?_, rfl⟩
      rw [String.toList_append, Text.toList_of_dropLead hrest]
    · rename_i hfind
      refine .inr ⟨fun p hp rest heq => ?_, rfl⟩
      subst heq
      rw [findSome_of_mem hp] at hfind
      cases hfind

theorem Fields.isSome {parts : List String} {h m s : ℕ} (hfields : Fields parts h m s) :
    (parts.length = 2 ∨ parts.length = 3) ∧
      ∀ part ∈ parts, (Text.parseUnsigned 256 part).isSome := by
  cases hfields with
  | full hh hm hs => simp [hh, hm, hs]
  | short hh hm => simp [hh, hm]

theorem exists_fields {parts : List String} (hlen : parts.length = 2 ∨ parts.length = 3)
    (hread : ∀ part ∈ parts, (Text.parseUnsigned 256 part).isSome) : ∃ h m s, Fields parts h m s := by
  match parts, hlen with
  | [hh, mm], _ =>
    obtain ⟨h, hh⟩ := Option.isSome_iff_exists.1 (hread hh (by simp))
    obtain ⟨m, hm⟩ := Option.isSome_iff_exists.1 (hread mm (by simp))
    exact ⟨h, m, 0, .short hh hm⟩
  | [hh, mm, ss], _ =>
    obtain ⟨h, hh⟩ := Option.isSome_iff_exists.1 (hread hh (by simp))
    obtain ⟨m, hm⟩ := Option.isSome_iff_exists.1 (hread mm (by simp))
    obtain ⟨s, hs⟩ := Option.isSome_iff_exists.1 (hread ss (by simp))
    exact ⟨h, m, s, .full hh hm hs⟩

/-- The text is read as a time exactly if the loop over its parts finds the numbers. -/
theorem readAsTime_iff {s : String} :
    ReadAsTime s ↔ ∃ h m sec, Fields (Text.splitn 3 ':' (parseWeekdayPrefix s).2) h m sec := by
  constructor
  · rintro ⟨fields, hlen, htime, hread⟩
    have hcolon : ∀ field ∈ fields, ':' ∉ field.toList := by
      intro field hfield hmem
      obtain hplus | hdigit := Text.chars_of_parseUnsigned (hread field hfield) ':' hmem
      · exact absurd hplus (by decide)
      · exact absurd hdigit (by decide)
    rw [timePart_iff.1 htime, Text.splitn_intercalate (by rintro rfl; simp at hlen) (by omega) hcolon]
    exact exists_fields hlen hread
  · rintro ⟨h, m, sec, hfields⟩
    obtain ⟨hlen, hread⟩ := hfields.isSome
    refine ⟨_, hlen, timePart_iff.2 ?_, hread⟩
    rw [Text.intercalate_splitn (by omega)]

theorem written_of_mem_keywords {s : String} {spec : CalendarSpec} (h : (s, spec) ∈ keywords) :
    Written s spec := by
  simp only [keywords, List.mem_cons, Prod.mk.injEq, List.not_mem_nil, or_false] at h
  obtain ⟨rfl, rfl⟩ | ⟨rfl, rfl⟩ | ⟨rfl, rfl⟩ | ⟨rfl, rfl⟩ := h
  · exact .minutely
  · exact .hourly
  · exact .daily
  · exact .weekly

/-- A time is none of the words: it has a colon. -/
theorem lookup_time {pre : String} {h m : ℕ} {sec : Option ℕ} :
    keywords.lookup (pre ++ clockText h m sec) = none := by
  have hcolon : ':' ∈ (pre ++ clockText h m sec).toList := by
    rw [clockText, String.toList_append, String.toList_intercalate, String.toList_singleton]
    simp [List.intercalate_cons_cons]
  have hwords : ∀ p ∈ keywords, ':' ∉ p.1.toList := by decide
  cases hlookup : keywords.lookup (pre ++ clockText h m sec) with
  | none => rfl
  | some spec => exact absurd hcolon (hwords _ (mem_of_lookup hlookup))

theorem parse_of_written {s : String} {spec : CalendarSpec} (h : Written s spec) :
    parse s = .ok spec := by
  cases h with
  | minutely => rfl
  | hourly => rfl
  | daily => rfl
  | weekly => rfl
  | @time pre wd h m sec hpre hh hm hs =>
    refine parse_eq_ok.2 (.inr ⟨lookup_time, h, m, sec.getD 0, ?_, ?_⟩)
    · rw [parseWeekdayPrefix_clockText hh hm hs hpre]
      exact fields_clockText hh hm hs
    · rw [parseWeekdayPrefix_clockText hh hm hs hpre]

theorem inForm_of_written {s : String} {spec : CalendarSpec} (h : Written s spec)
    (hword : keywords.lookup s = none) : InForm s := by
  cases h with
  | minutely => cases hword
  | hourly => cases hword
  | daily => cases hword
  | weekly => cases hword
  | @time pre wd h m sec hpre hh hm hs => exact ⟨(pre, wd), hpre, h, m, sec, rfl, hh, hm, hs⟩

/-- In form, the fields that are read are the ones that were written. -/
theorem written_of_inForm {s : String} (hform : InForm s) {h m sec : ℕ}
    (hfields : Fields (Text.splitn 3 ':' (parseWeekdayPrefix s).2) h m sec) :
    Written s { hour := some h, minute := m, second := sec, minutely := false,
                weekday := (parseWeekdayPrefix s).1 } := by
  obtain ⟨⟨pre, wd⟩, hpre, h', m', sec', rfl, hh, hm, hsec⟩ := hform
  have hsplit := parseWeekdayPrefix_clockText hh hm hsec hpre
  rw [hsplit] at hfields
  obtain ⟨rfl, rfl, rfl⟩ := hfields.unique (fields_clockText hh hm hsec)
  rw [hsplit]
  exact .time hpre hh hm hsec

/-- The words have no colon. -/
theorem splitn_of_mem_keywords {s : String} {spec : CalendarSpec} (h : (s, spec) ∈ keywords) :
    Text.splitn 3 ':' (parseWeekdayPrefix s).2 = [s] := by
  simp only [keywords, List.mem_cons, Prod.mk.injEq, List.not_mem_nil, or_false] at h
  obtain ⟨rfl, rfl⟩ | ⟨rfl, rfl⟩ | ⟨rfl, rfl⟩ | ⟨rfl, rfl⟩ := h <;> decide +kernel

theorem lookup_eq_none_of_readAsTime {s : String} (h : ReadAsTime s) :
    keywords.lookup s = none := by
  cases hlookup : keywords.lookup s with
  | none => rfl
  | some spec =>
    obtain ⟨_, _, _, hfields⟩ := readAsTime_iff.1 h
    rw [splitn_of_mem_keywords (mem_of_lookup hlookup)] at hfields
    cases hfields

theorem parse_eq_ok_iff_written (s : String) :
    (∀ spec, parse s = .ok spec ↔ Written s spec) ↔ (ReadAsTime s → InForm s) := by
  constructor
  · intro hlaw hread
    have hword := lookup_eq_none_of_readAsTime hread
    obtain ⟨h, m, sec, hfields⟩ := readAsTime_iff.1 hread
    have hparse := parse_eq_ok.2 (.inr ⟨hword, h, m, sec, hfields, rfl⟩)
    exact inForm_of_written ((hlaw _).1 hparse) hword
  · intro hform spec
    constructor
    · intro hparse
      obtain hword | ⟨hword, h, m, sec, hfields, rfl⟩ := parse_eq_ok.1 hparse
      · exact written_of_mem_keywords (mem_of_lookup hword)
      · exact written_of_inForm (hform (readAsTime_iff.2 ⟨h, m, sec, hfields⟩)) hfields
    · exact parse_of_written

theorem inRange_of_written {s : String} {spec : CalendarSpec} (h : Written s spec) :
    spec.InRange := by
  unfold InRange
  cases h with
  | minutely => decide
  | hourly => decide
  | daily => decide
  | weekly => decide
  | @time pre wd h m sec hpre hh hm hs =>
    refine ⟨by simpa using hh, hm, ?_⟩
    cases sec with
    | none => exact Nat.zero_le 59
    | some n => exact hs n rfl

/-- `24:00` is read as a time of day that does not exist. -/
theorem parse_hour24 :
    ∃ spec, parse "24:00" = .ok spec ∧ ¬Written "24:00" spec := by
  refine ⟨{ hour := some 24, minute := 0, second := 0, minutely := false, weekday := none }, rfl, ?_⟩
  intro h
  exact absurd ((inRange_of_written h).1 24 rfl) (by decide)

example : ((parse "Mon \t2:+030 ").toOption.map fun spec => (spec.hour, spec.minute)) =
    some (some 2, 30) := by decide

end Quantra.Services.CalendarSpec
