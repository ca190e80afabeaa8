import Quantra.Lib.Checked
import Quantra.Lib.Periodic
import Quantra.Lib.Text
import Mathlib.Tactic.ByContra
import Mathlib.Tactic.SplitIfs

/-! Calendar schedules of timer units: their text, and the time until they fire next. -/
namespace Quantra.Services

open Periodic

/-- Parsed calendar schedule for a timer unit. The numbers are of type `u8`. -/
structure CalendarSpec where
  /-- Target hour, `none` = every hour -/
  hour : Option ℕ
  minute : ℕ
  second : ℕ
  /-- If true, fire every 60 seconds (overrides hour/minute logic) -/
  minutely : Bool
  /-- Target day of week (0=Monday .. 6=Sunday), `none` = every day -/
  weekday : Option ℕ
  deriving DecidableEq, Repr

/-- The branches of `parse_weekday_prefix`, in their order. -/
def weekdayPrefixes : List (String × ℕ) :=
  [("Mon ", 0), ("Tue ", 1), ("Wed ", 2), ("Thu ", 3), ("Fri ", 4), ("Sat ", 5), ("Sun ", 6)]

/-- The weekday and the remaining time part, or no weekday and the text as it was. -/
def parseWeekdayPrefix (s : String) : Option ℕ × String :=
  match weekdayPrefixes.findSome? fun (pre, wd) => (Text.dropLead pre s).map fun rest => (wd, rest)
  with
  | some (wd, rest) => (some wd, Text.trim rest)
  | none => (none, s)

namespace CalendarSpec

def parseField (what : String) (s : String) : Except String ℕ :=
  match Text.parseUnsigned 256 s with
  | some n => .ok n
  | none => .error ("Invalid " ++ what)

/-- `match parts.as_slice()` in `parse`. -/
def ofParts (other : String) (weekday : Option ℕ) : List String → Except String CalendarSpec
  | [hh, mm, ss] => do
    let h ← parseField "hour" hh
    let m ← parseField "minute" mm
    let s ← parseField "second" ss
    return { hour := some h, minute := m, second := s, minutely := false, weekday }
  | [hh, mm] => do
    let h ← parseField "hour" hh
    let m ← parseField "minute" mm
    return { hour := some h, minute := m, second := 0, minutely := false, weekday }
  | _ => .error ("Unrecognized CalendarSpec: '" ++ other ++ "'")

/-- The words that stand for a schedule of their own. -/
def keywords : List (String × CalendarSpec) :=
  [("minutely", { hour := none, minute := 0, second := 0, minutely := true, weekday := none }),
    ("hourly", { hour := none, minute := 0, second := 0, minutely := false, weekday := none }),
    ("daily", { hour := some 0, minute := 0, second := 0, minutely := false, weekday := none }),
    ("weekly", { hour := some 0, minute := 0, second := 0, minutely := false, weekday := some 0 })]

def parse (s : String) : Except String CalendarSpec :=
  match keywords.lookup s with
  | some spec => .ok spec
  | none =>
    let (weekday, timePart) := parseWeekdayPrefix s
    ofParts s weekday (Text.splitn 3 ':' timePart)

/-- `(target_hour as u64) * 3600 + self.minute as u64 * 60 + self.second as u64`. -/
def targetInDay (spec : CalendarSpec) (secsInDay : ℕ) : Option ℕ := do
  let currentHour := secsInDay / 3600 % 256
  let hours ← Checked.mul (2 ^ 64) (spec.hour.getD currentHour) 3600
  let minutes ← Checked.mul (2 ^ 64) spec.minute 60
  let target ← Checked.add (2 ^ 64) hours minutes
  Checked.add (2 ^ 64) target spec.second

/-- Days until the target weekday, of which today is one only while its time is ahead. -/
def daysUntil (days secsInDay targetInDay : ℕ) : ℕ :=
  if days % 7 = 0 ∧ targetInDay ≤ secsInDay then 7 else days % 7

/-- The weekly branch of `time_until_next`. -/
def untilWeekday (nowSecs targetInDay targetWd : ℕ) : Option ℕ := do
  let secsInDay := nowSecs % 86400
  let daysSinceEpoch := nowSecs / 86400
  -- 1970-01-01 was a Thursday
  let shifted ← Checked.add (2 ^ 64) daysSinceEpoch 3
  let currentWd := shifted % 7
  let week ← Checked.add (2 ^ 64) 7 targetWd
  let ahead ← Checked.sub week currentWd
  let whole ← Checked.mul (2 ^ 64) (daysUntil ahead secsInDay targetInDay) 86400
  let rest ← Checked.sub whole secsInDay
  Checked.add (2 ^ 64) rest targetInDay

/-- The branches of `time_until_next` without a weekday. -/
def untilTime (spec : CalendarSpec) (secsInDay targetInDay : ℕ) : Option ℕ :=
  if targetInDay > secsInDay then Checked.sub targetInDay secsInDay
  else if spec.hour.isNone then do
    let rest ← Checked.sub 3600 (secsInDay % 3600)
    let minutes ← Checked.mul (2 ^ 64) spec.minute 60
    let atMinute ← Checked.add (2 ^ 64) rest minutes
    Checked.add (2 ^ 64) atMinute spec.second
  else do
    let rest ← Checked.sub 86400 secsInDay
    Checked.add (2 ^ 64) rest targetInDay

/-- The seconds from the clock value `nowSecs` to the next trigger time; `none` where arithmetic on
`u64` leaves the type, which panics. -/
def timeUntilNext (spec : CalendarSpec) (nowSecs : ℕ) : Option ℕ :=
  if spec.minutely then some 60
  else do
    let targetInDay ← spec.targetInDay (nowSecs % 86400)
    match spec.weekday with
    | some wd => untilWeekday nowSecs targetInDay wd
    | none => spec.untilTime (nowSecs % 86400) targetInDay

/-- The instants (seconds since the epoch, UTC) that a schedule names. -/
def Matches (spec : CalendarSpec) (t : ℕ) : Prop :=
  if spec.minutely then t % 60 = 0
  else (∀ h ∈ spec.hour, t % 86400 / 3600 = h) ∧ t % 3600 / 60 = spec.minute ∧
    t % 60 = spec.second ∧ ∀ wd ∈ spec.weekday, (t / 86400 + 3) % 7 = wd

/-- The ranges that the field comments of the source give. -/
def InRange (spec : CalendarSpec) : Prop :=
  (∀ h ∈ spec.hour, h ≤ 23) ∧ spec.minute ≤ 59 ∧ spec.second ≤ 59

instance (spec : CalendarSpec) : Decidable spec.InRange := inferInstanceAs (Decidable (_ ∧ _))

/-- What `parse` gives its schedules. -/
structure Parsed (spec : CalendarSpec) : Prop where
  hour_lt : ∀ h ∈ spec.hour, h < 256
  minute_lt : spec.minute < 256
  second_lt : spec.second < 256
  weekday_lt : ∀ wd ∈ spec.weekday, wd < 7
  hour_of_weekday : spec.hour = none → spec.weekday = none

theorem parseWeekdayPrefix_lt {s : String} {wd : ℕ} (h : (parseWeekdayPrefix s).1 = some wd) :
    wd < 7 := by
  unfold parseWeekdayPrefix at h
  split at h
  · rename_i wd' rest hfind
    cases h
    obtain ⟨⟨pre, n⟩, hmem, hpre⟩ := List.exists_of_findSome?_eq_some hfind
    obtain ⟨rest', -, heq⟩ := Option.map_eq_some_iff.1 hpre
    cases heq
    have hall : ∀ p ∈ weekdayPrefixes, p.2 < 7 := by decide
    exact hall _ hmem
  · cases h

/-- A time of day as its two or three fields, each read as a `u8`. -/
inductive Fields : List String → ℕ → ℕ → ℕ → Prop
  | full {hh mm ss : String} {h m s : ℕ} : Text.parseUnsigned 256 hh = some h →
      Text.parseUnsigned 256 mm = some m → Text.parseUnsigned 256 ss = some s →
      Fields [hh, mm, ss] h m s
  | short {hh mm : String} {h m : ℕ} : Text.parseUnsigned 256 hh = some h →
      Text.parseUnsigned 256 mm = some m → Fields [hh, mm] h m 0

theorem parseField_bind {α : Type} {what s : String} {f : ℕ → Except String α} {a : α} :
    (parseField what s >>= f) = .ok a ↔
      ∃ n, Text.parseUnsigned 256 s = some n ∧ f n = .ok a := by
  unfold parseField
  cases Text.parseUnsigned 256 s with
  | none => simp [bind, Except.bind]
  | some m => simp [bind, Except.bind]

theorem ofParts_eq_ok {other : String} {wd : Option ℕ} {parts : List String}
    {spec : CalendarSpec} :
    ofParts other wd parts = .ok spec ↔ ∃ h m s, Fields parts h m s ∧
      spec = { hour := some h, minute := m, second := s, minutely := false, weekday := wd } := by
  constructor
  · intro hok
    unfold ofParts at hok
    split at hok
    · obtain ⟨h, hh, hok⟩ := parseField_bind.1 hok
      obtain ⟨m, hm, hok⟩ := parseField_bind.1 hok
      obtain ⟨s, hs, hok⟩ := parseField_bind.1 hok
      cases hok
      exact ⟨h, m, s, .full hh hm hs, rfl⟩
    · obtain ⟨h, hh, hok⟩ := parseField_bind.1 hok
      obtain ⟨m, hm, hok⟩ := parseField_bind.1 hok
      cases hok
      exact ⟨h, m, 0, .short hh hm, rfl⟩
    · cases hok
  · rintro ⟨h, m, s, hfields, rfl⟩
    cases hfields with
    | full hh hm hs =>
      exact parseField_bind.2 ⟨h, hh, parseField_bind.2 ⟨m, hm, parseField_bind.2 ⟨s, hs, rfl⟩⟩⟩
    | short hh hm => exact parseField_bind.2 ⟨h, hh, parseField_bind.2 ⟨m, hm, rfl⟩⟩

theorem mem_of_lookup {s : String} {spec : CalendarSpec} (h : keywords.lookup s = some spec) :
    (s, spec) ∈ keywords := by
  obtain ⟨before, after, hsplit, -⟩ := List.lookup_eq_some_iff.1 h
  rw [hsplit]
  exact List.mem_append_right before List.mem_cons_self

/-- A text is one of the words, or a time of day with an optional weekday before it. -/
theorem parse_eq_ok {s : String} {spec : CalendarSpec} :
    parse s = .ok spec ↔ keywords.lookup s = some spec ∨ keywords.lookup s = none ∧
      ∃ h m sec, Fields (Text.splitn 3 ':' (parseWeekdayPrefix s).2) h m sec ∧
        spec = { hour := some h, minute := m, second := sec, minutely := false,
                 weekday := (parseWeekdayPrefix s).1 } := by
  unfold parse
  cases keywords.lookup s with
  | some word => simp
  | none => simp [ofParts_eq_ok]

theorem Fields.lt {parts : List String} {h m s : ℕ} (hfields : Fields parts h m s) :
    h < 256 ∧ m < 256 ∧ s < 256 := by
  have hlt : ∀ {text : String} {n : ℕ}, Text.parseUnsigned 256 text = some n → n < 256 := by
    intro text n hparse
    exact of_decide_eq_true (Option.filter_eq_some_iff.1 hparse).2
  cases hfields with
  | full hh hm hs => exact ⟨hlt hh, hlt hm, hlt hs⟩
  | short hh hm => exact ⟨hlt hh, hlt hm, by omega⟩

theorem parsed_of_parse {s : String} {spec : CalendarSpec} (h : parse s = .ok spec) :
    spec.Parsed := by
  obtain hword | ⟨-, hour, minute, second, hfields, rfl⟩ := parse_eq_ok.1 h
  · have hwords : ∀ p ∈ keywords, (∀ hour ∈ p.2.hour, hour < 256) ∧ p.2.minute < 256 ∧
        p.2.second < 256 ∧ (∀ wd ∈ p.2.weekday, wd < 7) ∧
        (p.2.hour = none → p.2.weekday = none) := by decide
    obtain ⟨hh, hm, hs, hwd, hnone⟩ := hwords _ (mem_of_lookup hword)
    exact ⟨hh, hm, hs, hwd, hnone⟩
  · obtain ⟨hh, hm, hs⟩ := hfields.lt
    constructor
    · intro n hn
      cases hn
      exact hh
    · exact hm
    · exact hs
    · intro wd hwd
      exact parseWeekdayPrefix_lt hwd
    · intro hnone
      cases hnone

/-! Schedules as instants with a period and a phase. -/

/-- The target as a number, where every operation on it stays in its type. -/
def target (spec : CalendarSpec) (hour : ℕ) : ℕ :=
  spec.hour.getD hour * 3600 + spec.minute * 60 + spec.second

def period (spec : CalendarSpec) : ℕ :=
  if spec.minutely then 60
  else if spec.weekday.isSome then 604800
  else if spec.hour.isSome then 86400
  else 3600

def phase (spec : CalendarSpec) : ℕ :=
  if spec.minutely then 0
  else (spec.weekday.elim 0 fun wd => (wd + 4) % 7 * 86400) + spec.target 0

theorem time_of_day {t h m s : ℕ} (hm : m ≤ 59) (hs : s ≤ 59) :
    t % 86400 / 3600 = h ∧ t % 3600 / 60 = m ∧ t % 60 = s ↔
      t % 86400 = h * 3600 + m * 60 + s := by
  omega

theorem time_of_hour {t m s : ℕ} (hs : s ≤ 59) :
    t % 3600 / 60 = m ∧ t % 60 = s ↔ t % 3600 = m * 60 + s := by
  omega

theorem time_of_week {t wd r : ℕ} (hwd : wd < 7) (hr : r < 86400) :
    t % 86400 = r ∧ (t / 86400 + 3) % 7 = wd ↔ t % 604800 = (wd + 4) % 7 * 86400 + r := by
  omega

theorem target_lt {spec : CalendarSpec} (hrange : spec.InRange) {hour : ℕ} (hhour : hour ≤ 23) :
    spec.target hour < 86400 := by
  obtain ⟨hh, hm, hs⟩ := hrange
  have hle : spec.hour.getD hour ≤ 23 := by
    cases hspec : spec.hour with
    | none => exact hhour
    | some h => exact hh h hspec
  unfold target
  omega

theorem phase_lt_period {spec : CalendarSpec} (hrange : spec.InRange) :
    spec.phase < spec.period := by
  have htarget : spec.target 0 < 86400 := target_lt hrange (by omega)
  unfold phase period
  split
  · omega
  · cases hwd : spec.weekday with
    | some wd =>
      rw [Option.elim_some, if_pos Option.isSome_some]
      omega
    | none =>
      rw [Option.elim_none, if_neg (ne_true_of_eq_false Option.isSome_none)]
      cases hh : spec.hour with
      | some h =>
        rw [if_pos Option.isSome_some]
        omega
      | none =>
        have hm := hrange.2.1
        have hs := hrange.2.2
        rw [if_neg (ne_true_of_eq_false Option.isSome_none), target, hh, Option.getD_none]
        omega

/-- The instants of a schedule in range are those with its period and phase. -/
theorem matches_iff_occurs {spec : CalendarSpec} (hparsed : spec.Parsed) (hrange : spec.InRange)
    (t : ℕ) : spec.Matches t ↔ Occurs spec.period spec.phase t := by
  have htarget : spec.target 0 < 86400 := target_lt hrange (by omega)
  obtain ⟨hh, hm, hs⟩ := hrange
  unfold Matches period phase Occurs
  cases spec.minutely with
  | true => rfl
  | false =>
    cases hhour : spec.hour with
    | none =>
      have htarget0 : spec.target 0 = spec.minute * 60 + spec.second := by
        unfold target
        rw [hhour, Option.getD_none]
        omega
      rw [hparsed.hour_of_weekday hhour, htarget0]
      simpa using time_of_hour hs
    | some h =>
      have htarget0 : spec.target 0 = h * 3600 + spec.minute * 60 + spec.second := by
        unfold target
        rw [hhour, Option.getD_some]
      have hday := time_of_day (t := t) (h := h) hm hs
      rw [← htarget0] at hday
      cases hwd : spec.weekday with
      | none => simpa using hday
      | some wd =>
        have hweek := time_of_week (t := t) (hparsed.weekday_lt wd hwd) htarget
        rw [← hday] at hweek
        simpa [and_assoc] using hweek

/-- No instant has a time of day that is out of range. -/
theorem not_matches_of_not_inRange {spec : CalendarSpec} (hmin : spec.minutely = false)
    (hrange : ¬spec.InRange) (t : ℕ) : ¬spec.Matches t := by
  unfold Matches
  rw [hmin, if_neg Bool.false_ne_true]
  rintro ⟨hh, hm, hs, -⟩
  refine hrange ⟨fun h hmem => ?_, by omega, by omega⟩
  have := hh h hmem
  omega

/-- The words are in range, so what is not names a time of day. -/
theorem hour_of_not_inRange {s : String} {spec : CalendarSpec} (hparse : parse s = .ok spec)
    (hrange : ¬spec.InRange) : spec.minutely = false ∧ ∃ h, spec.hour = some h := by
  obtain hword | ⟨-, hour, minute, second, -, rfl⟩ := parse_eq_ok.1 hparse
  · have hwords : ∀ p ∈ keywords, (∀ h ∈ p.2.hour, h ≤ 23) ∧ p.2.minute ≤ 59 ∧ p.2.second ≤ 59 := by
      decide
    exact absurd (hwords _ (mem_of_lookup hword)) hrange
  · exact ⟨rfl, hour, rfl⟩

def weekdayOf (t : ℕ) : ℕ := (t / 86400 + 3) % 7

/-- The subtraction `days_ahead * 86400 - secs_in_day` goes below zero. -/
def Underflows (spec : CalendarSpec) (now : ℕ) : Prop :=
  spec.weekday = some (weekdayOf now) ∧ now % 86400 < spec.target 0 ∧ 0 < now % 86400

instance (spec : CalendarSpec) (now : ℕ) : Decidable (spec.Underflows now) :=
  inferInstanceAs (Decidable (_ ∧ _))

theorem targetInDay_eq {spec : CalendarSpec} (hparsed : spec.Parsed) {secs : ℕ}
    (hsecs : secs < 86400) : spec.targetInDay secs = some (spec.target (secs / 3600)) := by
  have hm := hparsed.minute_lt
  have hs := hparsed.second_lt
  have hbyte : secs / 3600 % 256 = secs / 3600 := Nat.mod_eq_of_lt (by omega)
  have hhour : spec.hour.getD (secs / 3600) < 256 := by
    cases hh : spec.hour with
    | none =>
      show secs / 3600 < 256
      omega
    | some h => exact hparsed.hour_lt h hh
  unfold targetInDay target
  simp only [hbyte, Option.bind_eq_bind]
  rw [Checked.mul_of_lt (by omega), Option.bind_some, Checked.mul_of_lt (by omega),
    Option.bind_some, Checked.add_of_lt (by omega), Option.bind_some,
    Checked.add_of_lt (by omega)]

theorem daysUntil_le (days secs target : ℕ) : daysUntil days secs target ≤ 7 := by
  unfold daysUntil
  split
  · omega
  · omega

/-- Only one of the operations of the weekly branch can leave the type. -/
theorem untilWeekday_eq {now target wd : ℕ} (hnow : now < 2 ^ 64) (htarget : target < 2 ^ 63)
    (hwd : wd < 7) :
    untilWeekday now target wd =
      (Checked.sub (daysUntil (7 + wd - weekdayOf now) (now % 86400) target * 86400)
        (now % 86400)).map (· + target) := by
  have hdays := daysUntil_le (7 + wd - weekdayOf now) (now % 86400) target
  unfold weekdayOf at hdays ⊢
  unfold untilWeekday
  simp only [Option.bind_eq_bind]
  rw [Checked.add_of_lt (by omega), Option.bind_some, Checked.add_of_lt (by omega),
    Option.bind_some, Checked.sub_of_le (by omega), Option.bind_some,
    Checked.mul_of_lt (by omega), Option.bind_some]
  unfold Checked.sub
  split
  · rw [Option.bind_some, Checked.add_of_lt (by omega)]
    rfl
  · rfl

theorem untilWeekday_of_inRange {now target wd : ℕ} (hnow : now < 2 ^ 64)
    (htarget : target < 86400) (hwd : wd < 7) :
    untilWeekday now target wd =
      if weekdayOf now = wd ∧ now % 86400 < target ∧ 0 < now % 86400 then none
      else some (untilNext 604800 ((wd + 4) % 7 * 86400 + target) now) := by
  have hweek : untilNext 604800 ((wd + 4) % 7 * 86400 + target) now =
      604800 - (now + (604800 - ((wd + 4) % 7 * 86400 + target))) % 604800 := rfl
  have hday : weekdayOf now = (now / 86400 + 3) % 7 := rfl
  have htoday : (7 + wd - weekdayOf now) % 7 = 0 ↔ weekdayOf now = wd := by omega
  rw [untilWeekday_eq hnow (by omega) hwd, hweek]
  by_cases hstuck : weekdayOf now = wd ∧ now % 86400 < target ∧ 0 < now % 86400
  · have hdays : daysUntil (7 + wd - weekdayOf now) (now % 86400) target = 0 := by
      unfold daysUntil
      rw [if_neg (by omega)]
      exact htoday.2 hstuck.1
    have hlt : 0 * 86400 < now % 86400 := by
      rw [Nat.zero_mul]
      exact hstuck.2.2
    rw [if_pos hstuck, hdays, Checked.sub_of_lt hlt, Option.map_none]
  · have hle : now % 86400 ≤
        daysUntil (7 + wd - weekdayOf now) (now % 86400) target * 86400 := by
      unfold daysUntil
      split
      · omega
      · omega
    rw [if_neg hstuck, Checked.sub_of_le hle, Option.map_some]
    refine congrArg some ?_
    clear hnow hweek
    have hsplit : now = now / 86400 * 86400 + now % 86400 := by omega
    have hsecs : now % 86400 < 86400 := by omega
    generalize now / 86400 = days at *
    generalize now % 86400 = secs at *
    unfold daysUntil at hle ⊢
    subst hsplit
    split
    · omega
    · omega

theorem target_of_hour {spec : CalendarSpec} {h : ℕ} (hh : spec.hour = some h) (hour : ℕ) :
    spec.target hour = spec.target 0 := by
  unfold target
  rw [hh, Option.getD_some, Option.getD_some]

theorem timeUntilNext_of_weekday {spec : CalendarSpec} (hparsed : spec.Parsed)
    (hrange : spec.InRange) (hmin : spec.minutely = false) {wd now : ℕ}
    (hwd : spec.weekday = some wd) (hnow : now < 2 ^ 64) :
    spec.timeUntilNext now =
      if spec.Underflows now then none else some (untilNext spec.period spec.phase now) := by
  have hsecs : now % 86400 < 86400 := Nat.mod_lt now (by omega)
  have htarget : spec.target 0 < 86400 := target_lt hrange (by omega)
  have hperiod : spec.period = 604800 := by simp [period, hmin, hwd]
  have hphase : spec.phase = (wd + 4) % 7 * 86400 + spec.target 0 := by simp [phase, hmin, hwd]
  have hstuck : spec.Underflows now ↔
      weekdayOf now = wd ∧ now % 86400 < spec.target 0 ∧ 0 < now % 86400 := by
    unfold Underflows
    rw [hwd, Option.some.injEq, eq_comm]
  cases hh : spec.hour with
  | none =>
    rw [hparsed.hour_of_weekday hh] at hwd
    cases hwd
  | some h =>
    rw [timeUntilNext, hmin, if_neg Bool.false_ne_true, targetInDay_eq hparsed hsecs,
      Option.bind_eq_bind, Option.bind_some, target_of_hour hh, hwd]
    show untilWeekday now (spec.target 0) wd = _
    rw [untilWeekday_of_inRange hnow htarget (hparsed.weekday_lt wd hwd)]
    by_cases hunder : spec.Underflows now
    · rw [if_pos hunder, if_pos (hstuck.1 hunder)]
    · rw [if_neg hunder, if_neg fun h => hunder (hstuck.2 h), hperiod, hphase]

theorem untilTime_of_hour {spec : CalendarSpec} {h secs target : ℕ} (hh : spec.hour = some h)
    (hsecs : secs < 86400) (htarget : target < 86400) :
    spec.untilTime secs target = some (untilNext 86400 target secs) := by
  unfold untilTime untilNext sinceLast
  rw [hh]
  by_cases hahead : target > secs
  · rw [if_pos hahead, Checked.sub_of_le (Nat.le_of_lt hahead)]
    refine congrArg some ?_
    omega
  · rw [if_neg hahead, Checked.sub_of_le (Nat.le_of_lt hsecs), Option.isNone_some,
      if_neg Bool.false_ne_true, Option.bind_eq_bind, Option.bind_some,
      Checked.add_of_lt (by omega)]
    refine congrArg some ?_
    omega

theorem untilTime_of_hourly {spec : CalendarSpec} {hour secs target : ℕ}
    (hh : spec.hour = none) (hrange : spec.InRange) (hhour : hour = secs / 3600)
    (htarget : target = spec.minute * 60 + spec.second) :
    spec.untilTime secs (hour * 3600 + target) = some (untilNext 3600 target secs) := by
  obtain ⟨-, hm, hs⟩ := hrange
  have hsplit : secs = hour * 3600 + secs % 3600 := by omega
  unfold untilTime untilNext sinceLast
  rw [hh]
  by_cases hahead : hour * 3600 + target > secs
  · rw [if_pos hahead, Checked.sub_of_le (Nat.le_of_lt hahead)]
    refine congrArg some ?_
    omega
  · rw [if_neg hahead, Option.isNone_none, if_pos rfl, Checked.sub_of_le (by omega),
      Option.bind_eq_bind, Option.bind_some, Checked.mul_of_lt (by omega), Option.bind_some,
      Checked.add_of_lt (by omega), Option.bind_some, Checked.add_of_lt (by omega)]
    refine congrArg some ?_
    omega

theorem timeUntilNext_of_daily {spec : CalendarSpec} (hparsed : spec.Parsed)
    (hrange : spec.InRange) (hmin : spec.minutely = false) (hwd : spec.weekday = none) (now : ℕ) :
    spec.timeUntilNext now = some (untilNext spec.period spec.phase now) := by
  have hsecs : now % 86400 < 86400 := Nat.mod_lt now (by omega)
  have hphase : spec.phase = spec.target 0 := by simp [phase, hmin, hwd]
  rw [timeUntilNext, hmin, if_neg Bool.false_ne_true, targetInDay_eq hparsed hsecs,
    Option.bind_eq_bind, Option.bind_some, hwd, hphase]
  cases hh : spec.hour with
  | some h =>
    have hperiod : spec.period = 86400 := by simp [period, hmin, hwd, hh]
    show spec.untilTime (now % 86400) (spec.target (now % 86400 / 3600)) = _
    rw [target_of_hour hh, untilTime_of_hour hh hsecs (target_lt hrange (by omega)), hperiod,
      untilNext_mod (Nat.dvd_refl 86400)]
  | none =>
    have hperiod : spec.period = 3600 := by simp [period, hmin, hwd, hh]
    have htarget : ∀ hour, spec.target hour = hour * 3600 + (spec.minute * 60 + spec.second) := by
      intro hour
      rw [target, hh, Option.getD_none, Nat.add_assoc]
    show spec.untilTime (now % 86400) (spec.target (now % 86400 / 3600)) = _
    rw [htarget, untilTime_of_hourly hh hrange rfl rfl, hperiod, untilNext_mod ⟨24, rfl⟩,
      htarget 0, Nat.zero_mul, Nat.zero_add]

/-- In range the wait is the way to the next instant, except where the weekly branch underflows. -/
theorem timeUntilNext_of_inRange {spec : CalendarSpec} (hparsed : spec.Parsed)
    (hrange : spec.InRange) (hmin : spec.minutely = false) {now : ℕ} (hnow : now < 2 ^ 64) :
    spec.timeUntilNext now =
      if spec.Underflows now then none else some (untilNext spec.period spec.phase now) := by
  cases hwd : spec.weekday with
  | some wd => exact timeUntilNext_of_weekday hparsed hrange hmin hwd hnow
  | none =>
    have hnot : ¬spec.Underflows now := by
      intro h
      rw [Underflows, hwd] at h
      cases h.1
    rw [if_neg hnot]
    exact timeUntilNext_of_daily hparsed hrange hmin hwd now

/-- The first day from today on, on one of the schedule's weekdays, whose midnight and the time of
the schedule after it, however long, lead beyond now. -/
structure NextDay (spec : CalendarSpec) (now day : ℕ) : Prop where
  today : now / 86400 ≤ day
  ahead : now < day * 86400 + spec.target 0
  weekday : ∀ wd ∈ spec.weekday, (day + 3) % 7 = wd
  first : ∀ day', now / 86400 ≤ day' → now < day' * 86400 + spec.target 0 →
    (∀ wd ∈ spec.weekday, (day' + 3) % 7 = wd) → day ≤ day'

theorem NextDay.unique {spec : CalendarSpec} {now day day' : ℕ} (h : spec.NextDay now day)
    (h' : spec.NextDay now day') : day = day' :=
  Nat.le_antisymm (h.first day' h'.today h'.ahead h'.weekday)
    (h'.first day h.today h.ahead h.weekday)

theorem target_lt_of_hour {spec : CalendarSpec} (hparsed : spec.Parsed) {h : ℕ}
    (hh : spec.hour = some h) : spec.target 0 < 2 ^ 63 := by
  have hlt := hparsed.hour_lt h hh
  have hm := hparsed.minute_lt
  have hs := hparsed.second_lt
  unfold target
  rw [hh, Option.getD_some]
  omega

/-- Where an hour is named, in range or not, the wait is for its next day. -/
theorem timeUntilNext_of_hour {spec : CalendarSpec} (hparsed : spec.Parsed)
    (hmin : spec.minutely = false) {h : ℕ} (hh : spec.hour = some h) {now : ℕ}
    (hnow : now < 2 ^ 64) (hunder : ¬spec.Underflows now) :
    ∃ day, spec.NextDay now day ∧
      spec.timeUntilNext now = some (day * 86400 + spec.target 0 - now) := by
  have hsecs : now % 86400 < 86400 := Nat.mod_lt now (by omega)
  have htarget := target_lt_of_hour hparsed hh
  rw [timeUntilNext, hmin, if_neg Bool.false_ne_true, targetInDay_eq hparsed hsecs,
    Option.bind_eq_bind, Option.bind_some, target_of_hour hh]
  cases hwd : spec.weekday with
  | none =>
    have hany : ∀ day : ℕ, ∀ wd ∈ spec.weekday, (day + 3) % 7 = wd := by simp [hwd]
    dsimp only
    unfold untilTime
    by_cases hahead : spec.target 0 > now % 86400
    · refine ⟨now / 86400, ⟨Nat.le_refl _, by omega, hany _, fun _ htoday _ _ => htoday⟩, ?_⟩
      rw [if_pos hahead, Checked.sub_of_le (Nat.le_of_lt hahead)]
      exact congrArg some (by omega)
    · refine ⟨now / 86400 + 1, ⟨by omega, by omega, hany _, fun _ _ _ _ => by omega⟩, ?_⟩
      rw [if_neg hahead, hh, Option.isNone_some, if_neg Bool.false_ne_true,
        Checked.sub_of_le (by omega), Option.bind_eq_bind, Option.bind_some,
        Checked.add_of_lt (by omega)]
      exact congrArg some (by omega)
  | some wd =>
    have hlt := hparsed.weekday_lt wd hwd
    have hday : weekdayOf now = (now / 86400 + 3) % 7 := rfl
    have hpast : ¬(weekdayOf now = wd ∧ now % 86400 < spec.target 0 ∧ 0 < now % 86400) := by
      rintro ⟨htoday, hrest⟩
      exact hunder ⟨by rw [hwd, htoday], hrest⟩
    show ∃ day, _ ∧ untilWeekday now (spec.target 0) wd = _
    rw [untilWeekday_eq hnow htarget hlt]
    obtain ⟨days, hdays⟩ : ∃ n, n = daysUntil (7 + wd - weekdayOf now) (now % 86400)
      (spec.target 0) := ⟨_, rfl⟩
    have hcases := hdays
    unfold daysUntil at hcases
    rw [← hdays]
    refine ⟨now / 86400 + days, ⟨by omega, ?_, fun wd' hwd' => ?_, fun day' htoday hahead hweek => ?_⟩, ?_⟩
    · split at hcases <;> omega
    · rw [hwd] at hwd'
      cases hwd'
      split at hcases <;> omega
    · have hmatch := hweek wd hwd
      split at hcases <;> omega
    · rw [Checked.sub_of_le (by split at hcases <;> omega), Option.map_some]
      exact congrArg some (by split at hcases <;> omega)

theorem timeUntilNext_of_underflows {spec : CalendarSpec} (hparsed : spec.Parsed)
    (hmin : spec.minutely = false) {now : ℕ} (hnow : now < 2 ^ 64) (hunder : spec.Underflows now) :
    spec.timeUntilNext now = none := by
  obtain ⟨hwd, hahead, hpast⟩ := hunder
  have hsecs : now % 86400 < 86400 := Nat.mod_lt now (by omega)
  cases hh : spec.hour with
  | none =>
    rw [hparsed.hour_of_weekday hh] at hwd
    cases hwd
  | some h =>
    have htarget := target_lt_of_hour hparsed hh
    have hday : weekdayOf now < 7 := by
      unfold weekdayOf
      omega
    have htoday : daysUntil (7 + weekdayOf now - weekdayOf now) (now % 86400) (spec.target 0) = 0 := by
      unfold daysUntil
      rw [if_neg (by omega)]
      omega
    rw [timeUntilNext, hmin, if_neg Bool.false_ne_true, targetInDay_eq hparsed hsecs,
      Option.bind_eq_bind, Option.bind_some, target_of_hour hh, hwd]
    show untilWeekday now (spec.target 0) (weekdayOf now) = none
    have hbelow : 0 * 86400 < now % 86400 := by
      rw [Nat.zero_mul]
      exact hpast
    rw [untilWeekday_eq hnow htarget hday, htoday, Checked.sub_of_lt hbelow, Option.map_none]

/-- What `time_until_next` is for: the least positive wait that ends at an instant of the schedule,
which is no longer than a week. -/
def WaitsForNext (spec : CalendarSpec) (now : ℕ) : Prop :=
  ∃ d, spec.timeUntilNext now = some d ∧ IsNext spec.Matches now d ∧ d ≤ 7 * 86400

theorem period_le (spec : CalendarSpec) : spec.period ≤ 7 * 86400 := by
  unfold period
  split_ifs <;> omega

theorem waitsForNext_iff {s : String} {spec : CalendarSpec} (hparse : parse s = .ok spec)
    (hmin : spec.minutely = false) {now : ℕ} (hnow : now < 2 ^ 64) :
    spec.WaitsForNext now ↔ spec.InRange ∧ ¬spec.Underflows now := by
  have hparsed : spec.Parsed := parsed_of_parse hparse
  constructor
  · rintro ⟨d, hd, hnext, -⟩
    have hrange : spec.InRange := by
      by_contra hrange
      exact not_matches_of_not_inRange hmin hrange (now + d) hnext.2.1
    refine ⟨hrange, fun hunder => ?_⟩
    rw [timeUntilNext_of_inRange hparsed hrange hmin hnow, if_pos hunder] at hd
    cases hd
  · rintro ⟨hrange, hunder⟩
    have hmatches : spec.Matches = Occurs spec.period spec.phase :=
      funext fun t => propext (matches_iff_occurs hparsed hrange t)
    refine ⟨untilNext spec.period spec.phase now, ?_, ?_, ?_⟩
    · rw [timeUntilNext_of_inRange hparsed hrange hmin hnow, if_neg hunder]
    · rw [hmatches]
      exact isNext_untilNext (phase_lt_period hrange)
    · exact Nat.le_trans untilNext_le spec.period_le

/-- `Thu 02:30`, five seconds into Thursday 2026-01-01. -/
theorem not_waitsForNext_sameWeekday :
    ∃ spec, parse "Thu 02:30" = .ok spec ∧ spec.minutely = false ∧
      spec.timeUntilNext 1767225605 = none ∧ ¬spec.WaitsForNext 1767225605 := by
  refine ⟨{ hour := some 2, minute := 30, second := 0, minutely := false, weekday := some 3 },
    rfl, rfl, by decide, ?_⟩
  rintro ⟨d, hd, -⟩
  cases hd

/-- `Fri 02:30` at the same time: one day less five seconds, and two and a half hours. -/
theorem waitsForNext_otherWeekday :
    ∃ spec, parse "Fri 02:30" = .ok spec ∧ spec.timeUntilNext 1767225605 = some 95395 ∧
      spec.WaitsForNext 1767225605 := by
  have hparse : parse "Fri 02:30" = .ok { hour := some 2, minute := 30, second := 0,
                                          minutely := false, weekday := some 4 } := rfl
  refine ⟨_, hparse, by decide, ?_⟩
  refine (waitsForNext_iff hparse rfl (by decide)).2 ⟨?_, by decide⟩
  refine ⟨?_, by decide, by decide⟩
  intro h hh
  cases hh
  decide

end CalendarSpec

end Quantra.Services
