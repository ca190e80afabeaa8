import Quantra.Journal.Ingestion
import Quantra.Lib.Generations

/-! `logger.rs`: the log of a service and its rotation (`ServiceLogger::run`). -/
namespace Quantra.Services.Logger

open Bytes

def logMaxSize : ℕ := 10 * 1024 * 1024

/-- `<service>.log` and `<service>.log.1`; a file that is not there is empty. -/
structure LogFiles where
  log : List UInt8
  rotated : List UInt8
  deriving DecidableEq, Repr

/-- `[{:>12}ms] {}\n`. -/
def entryText (ts : ℕ) (line : String) : String :=
  "[" ++ String.ofList ((Nat.toDigits 10 ts).leftpad 12 ' ') ++ "ms] " ++ line ++ "\n"

/-- How the calls for one line turn out: `short` says after how many bytes a write fails. -/
structure Answers where
  short : Option ℕ
  metadata : Bool
  rename : Bool
  reopen : Bool
  deriving DecidableEq, Repr

/-- One line; no files if the loop ends after it. -/
def logLine (files : LogFiles) (entry : List UInt8) (a : Answers) : LogFiles × Bool :=
  match a.short with
  | some n => ({ files with log := files.log ++ entry.take n }, false)
  | none =>
    let files := { files with log := files.log ++ entry }
    if a.metadata && logMaxSize ≤ files.log.length then
      (if a.rename then ⟨[], files.log⟩ else files, a.reopen)
    else (files, true)

/-- The loop over the lines of the pipe; a line that is no text ends it. At each line the clock is
read and the calls are answered. -/
def runLines (files : LogFiles) : List (Option String × ℕ × Answers) → LogFiles
  | [] => files
  | (none, _) :: _ => files
  | (some line, ts, a) :: rest =>
    match logLine files (asBytes (entryText ts line)) a with
    | (files, true) => runLines files rest
    | (files, false) => files

/-- The lines of a pipe, with the clock at each and the answers to its calls. -/
def events (clock : ℕ → ℕ) (answers : ℕ → Answers) (stream : List UInt8) :
    List (Option String × ℕ × Answers) :=
  (Journal.clientLines stream).mapIdx fun i line => (line, clock i, answers i)

/-- `ServiceLogger::run` where the log could be opened. -/
def run (clock : ℕ → ℕ) (answers : ℕ → Answers) (files : LogFiles) (stream : List UInt8) : LogFiles :=
  runLines files (events clock answers stream)

/-! The records that are written, with the rotations after them. -/

/-- What a line adds to the log, whether it is rotated after that, and whether the loop goes on. -/
def recordOf (size : ℕ) (entry : List UInt8) (a : Answers) : (List UInt8 × Bool) × Bool :=
  match a.short with
  | some n => ((entry.take n, false), false)
  | none =>
    if a.metadata && logMaxSize ≤ size + entry.length then ((entry, a.rename), a.reopen)
    else ((entry, false), true)

/-- The records of a run that starts with a log of so many bytes. -/
def records (size : ℕ) : List (Option String × ℕ × Answers) → List (List UInt8 × Bool)
  | [] => []
  | (none, _) :: _ => []
  | (some line, ts, a) :: rest =>
    let entry := asBytes (entryText ts line)
    let r := recordOf size entry a
    if r.2 then
      r.1 :: records (if r.1.2 then 0 else size + entry.length) rest
    else [r.1]

/-- The entries of the lines before the first that is no text. -/
def entries : List (Option String × ℕ × Answers) → List (List UInt8)
  | [] => []
  | (none, _) :: _ => []
  | (some line, ts, _) :: rest => asBytes (entryText ts line) :: entries rest

/-- The files are what is kept of the records. -/
def Holds (files : LogFiles) (g : Generations (List UInt8)) : Prop :=
  files.log = g.current.flatten ∧ files.rotated = g.old.flatten

abbrev Line := Option String × ℕ × Answers

/-- What is written of the lines: nothing from the first that is no text on, of one whose write fails
the bytes before the failure and nothing behind them, and nothing behind one after which the log
could not be opened again. -/
inductive Written : List Line → List (List UInt8) → Prop
  | done : Written [] []
  | noText {ts : ℕ} {a : Answers} {ls : List Line} : Written ((none, ts, a) :: ls) []
  | cut {line : String} {ts : ℕ} {a : Answers} {ls : List Line} {n : ℕ} : a.short = some n →
      Written ((some line, ts, a) :: ls) [(asBytes (entryText ts line)).take n]
  | notReopened {line : String} {ts : ℕ} {a : Answers} {ls : List Line} : a.short = none →
      a.reopen = false → Written ((some line, ts, a) :: ls) [asBytes (entryText ts line)]
  | next {line : String} {ts : ℕ} {a : Answers} {ls : List Line} {written : List (List UInt8)} :
      a.short = none → Written ls written →
      Written ((some line, ts, a) :: ls) (asBytes (entryText ts line) :: written)

section Records
variable {files : LogFiles} {g : Generations (List UInt8)} {entry : List UInt8} {a : Answers}
  {size : ℕ} {ls : List Line}

theorem load_eq_length (as : List (List UInt8)) :
    Generations.load List.length as = as.flatten.length := List.length_flatten.symm

theorem runLines_cons (line : String) (ts : ℕ) (a : Answers) (ls : List Line) :
    runLines files ((some line, ts, a) :: ls) =
      match logLine files (asBytes (entryText ts line)) a with
      | (files, true) => runLines files ls
      | (files, false) => files := rfl

/-- One line is one record. -/
theorem logLine_holds (h : Holds files g) (entry : List UInt8) (a : Answers) :
    Holds (logLine files entry a).1 (g.write (recordOf files.log.length entry a).1) ∧
      (logLine files entry a).2 = (recordOf files.log.length entry a).2 := by
  obtain ⟨hlog, hrotated⟩ := h
  have hpush (bytes : List UInt8) : files.log ++ bytes = (g.push bytes).current.flatten := by
    show _ = (g.current ++ [bytes]).flatten
    rw [List.flatten_append, hlog]
    simp
  unfold logLine recordOf
  cases a.short with
  | some n => exact ⟨⟨hpush (entry.take n), hrotated⟩, rfl⟩
  | none =>
    dsimp only
    rw [List.length_append]
    by_cases hfull : a.metadata && decide (logMaxSize ≤ files.log.length + entry.length)
    · rw [if_pos hfull, if_pos hfull]
      cases hrename : a.rename with
      | true =>
        refine ⟨⟨rfl, ?_⟩, rfl⟩
        exact hpush entry
      | false => exact ⟨⟨hpush entry, hrotated⟩, rfl⟩
    · rw [if_neg hfull, if_neg hfull]
      exact ⟨⟨hpush entry, hrotated⟩, rfl⟩

theorem length_logLine (files : LogFiles) (entry : List UInt8) (a : Answers)
    (h : (logLine files entry a).2 = true) :
    (logLine files entry a).1.log.length =
      if (recordOf files.log.length entry a).1.2 then 0 else files.log.length + entry.length := by
  unfold logLine recordOf at *
  cases hshort : a.short with
  | some n =>
    rw [hshort] at h
    cases h
  | none =>
    dsimp only
    rw [List.length_append]
    split
    · cases a.rename with
      | true => rfl
      | false => exact List.length_append
    · exact List.length_append

theorem runLines_holds (h : Holds files g) (ls : List Line) :
    Holds (runLines files ls) (g.run (records files.log.length ls)) := by
  induction ls generalizing files g with
  | nil => exact h
  | cons l ls ih =>
    obtain ⟨line, ts, a⟩ := l
    cases line with
    | none => exact h
    | some line =>
      obtain ⟨hnext, hgoes⟩ := logLine_holds h (asBytes (entryText ts line)) a
      have hlength := length_logLine files (asBytes (entryText ts line)) a
      rw [runLines_cons, records]
      cases hline : logLine files (asBytes (entryText ts line)) a with
      | mk files' goes =>
        rw [hline] at hnext hgoes hlength
        dsimp only at hnext hgoes hlength
        rw [← hgoes]
        cases goes with
        | true =>
          have hrest := ih hnext
          rw [hlength rfl] at hrest
          exact hrest
        | false => exact hnext

/-- The size that the log has after a record. -/
theorem load_write (h : Generations.load List.length g.current = size)
    (hr : (recordOf size entry a).2 = true) :
    Generations.load List.length (g.write (recordOf size entry a).1).current =
      if (recordOf size entry a).1.2 then 0 else size + entry.length := by
  have hpush : Generations.load List.length (g.push entry).current = size + entry.length := by
    rw [Generations.load_push, h]
  unfold recordOf at *
  cases hshort : a.short with
  | some n =>
    rw [hshort] at hr
    cases hr
  | none =>
    dsimp only
    split
    · cases a.rename with
      | true => rfl
      | false => exact hpush
    · exact hpush

theorem records_cons (size : ℕ) (line : String) (ts : ℕ) (a : Answers) (ls : List Line) :
    records size ((some line, ts, a) :: ls) =
      if (recordOf size (asBytes (entryText ts line)) a).2 then
        (recordOf size (asBytes (entryText ts line)) a).1 ::
          records (if (recordOf size (asBytes (entryText ts line)) a).1.2 then 0
            else size + (asBytes (entryText ts line)).length) ls
      else [(recordOf size (asBytes (entryText ts line)) a).1] := rfl

/-- A rotation is made for a full log. -/
theorem patient_records (h : Generations.load List.length g.current = size) (ls : List Line) :
    Generations.Patient List.length logMaxSize g (records size ls) := by
  induction ls generalizing g size with
  | nil => trivial
  | cons l ls ih =>
    obtain ⟨line, ts, a⟩ := l
    cases line with
    | none => trivial
    | some line =>
      have hfull (hr : (recordOf size (asBytes (entryText ts line)) a).1.2 = true) :
          logMaxSize ≤ Generations.load List.length
            (g.push (recordOf size (asBytes (entryText ts line)) a).1.1).current := by
        rw [Generations.load_push, h]
        unfold recordOf at *
        cases hshort : a.short with
        | some n =>
          rw [hshort] at hr
          cases hr
        | none =>
          rw [hshort] at hr
          dsimp only at hr ⊢
          split at hr
          · rename_i hlimit
            rw [if_pos hlimit]
            rw [Bool.and_eq_true, decide_eq_true_eq] at hlimit
            exact hlimit.2
          · cases hr
      rw [records_cons]
      split
      · rename_i hgoes
        exact ⟨hfull, ih (load_write h hgoes)⟩
      · exact ⟨hfull, trivial⟩

/-- If a log can always be looked at and renamed, a rotation is made whenever it is full. -/
theorem prompt_records (h : Generations.load List.length g.current = size)
    (hls : ∀ l ∈ ls, l.2.2.metadata = true ∧ l.2.2.rename = true)
    (hshort : ∀ l ∈ ls, l.2.2.short = none) :
    Generations.Prompt List.length logMaxSize g (records size ls) := by
  induction ls generalizing g size with
  | nil => trivial
  | cons l ls ih =>
    obtain ⟨line, ts, a⟩ := l
    cases line with
    | none => trivial
    | some line =>
      obtain ⟨hmetadata, hrename⟩ := hls _ List.mem_cons_self
      have hwhole := hshort _ List.mem_cons_self
      dsimp only at hmetadata hrename hwhole
      have hrest := fun l hl => hls l (List.mem_cons_of_mem _ hl)
      have hshortRest := fun l hl => hshort l (List.mem_cons_of_mem _ hl)
      have hfull : logMaxSize ≤ Generations.load List.length
            (g.push (recordOf size (asBytes (entryText ts line)) a).1.1).current →
          (recordOf size (asBytes (entryText ts line)) a).1.2 = true := by
        rw [Generations.load_push, h]
        unfold recordOf
        rw [hwhole, hmetadata, hrename]
        dsimp only
        split
        · exact fun _ => rfl
        · rename_i hlimit
          intro hle
          rw [Bool.true_and, decide_eq_true_eq] at hlimit
          exact absurd hle hlimit
      rw [records_cons]
      split
      · rename_i hgoes
        exact ⟨hfull, ih (load_write h hgoes) hrest hshortRest⟩
      · exact ⟨hfull, trivial⟩

theorem entries_cons (line : String) (ts : ℕ) (a : Answers) (ls : List Line) :
    entries ((some line, ts, a) :: ls) = asBytes (entryText ts line) :: entries ls := rfl

theorem recordOf_fst_of_goes (h : (recordOf size entry a).2 = true) :
    a.short = none ∧ (recordOf size entry a).1.1 = entry := by
  unfold recordOf at *
  cases hshort : a.short with
  | some n =>
    rw [hshort] at h
    cases h
  | none =>
    dsimp only
    exact ⟨rfl, by split <;> rfl⟩

/-- A line after which the loop ends was cut, or the log was not opened again. -/
theorem recordOf_of_ends (h : ¬(recordOf size entry a).2 = true) :
    (∃ n, a.short = some n ∧ (recordOf size entry a).1.1 = entry.take n) ∨
      (a.short = none ∧ a.reopen = false ∧ (recordOf size entry a).1.1 = entry) := by
  unfold recordOf at *
  cases hshort : a.short with
  | some n => exact .inl ⟨n, rfl, rfl⟩
  | none =>
    rw [hshort] at h
    dsimp only at h ⊢
    split at h
    · rename_i hfull
      rw [if_pos hfull]
      exact .inr ⟨rfl, by simpa using h, rfl⟩
    · exact absurd rfl h

theorem written_records (size : ℕ) (ls : List Line) :
    Written ls ((records size ls).map Prod.fst) := by
  induction ls generalizing size with
  | nil => exact .done
  | cons l ls ih =>
    obtain ⟨line, ts, a⟩ := l
    cases line with
    | none => exact .noText
    | some line =>
      rw [records_cons]
      split
      · rename_i hgoes
        obtain ⟨hshort, hentry⟩ := recordOf_fst_of_goes hgoes
        rw [List.map_cons, hentry]
        exact .next hshort (ih _)
      · rename_i hends
        rw [List.map_singleton]
        obtain ⟨n, hshort, hentry⟩ | ⟨hshort, hreopen, hentry⟩ := recordOf_of_ends hends
        · rw [hentry]
          exact .cut hshort
        · rw [hentry]
          exact .notReopened hshort hreopen

theorem records_of_succeeding
    (h : ∀ l ∈ ls, l.2.2.short = none ∧ l.2.2.reopen = true) (size : ℕ) :
    (records size ls).map Prod.fst = entries ls := by
  induction ls generalizing size with
  | nil => rfl
  | cons l ls ih =>
    obtain ⟨line, ts, a⟩ := l
    cases line with
    | none => rfl
    | some line =>
      obtain ⟨hshort, hreopen⟩ := h _ List.mem_cons_self
      dsimp only at hshort hreopen
      have hgoes : (recordOf size (asBytes (entryText ts line)) a).2 = true := by
        unfold recordOf
        rw [hshort]
        dsimp only
        split
        · exact hreopen
        · rfl
      rw [records_cons, if_pos hgoes, List.map_cons, (recordOf_fst_of_goes hgoes).2, entries_cons,
        ih fun l hl => h l (List.mem_cons_of_mem _ hl)]

end Records

/-- A log and its records before anything is read from the pipe. -/
theorem holds_start (files : LogFiles) : Holds files ⟨[files.rotated], [files.log]⟩ := by
  constructor <;> simp

/-- Whatever the calls return: the two files have, in order and without a gap, the end of what was in
them followed by what was written; and either nothing is dropped, or as much as fills a log is
there. What is written are the entries of the lines, up to one that is no text or to the call that
fails and ends the loop. -/
theorem run_keeps (clock : ℕ → ℕ) (answers : ℕ → Answers) (files : LogFiles) (stream : List UInt8) :
    ∃ written n, Written (events clock answers stream) written ∧
      (run clock answers files stream).rotated ++ (run clock answers files stream).log =
        (([files.rotated, files.log] ++ written).drop n).flatten ∧
      (n = 0 ∨ logMaxSize ≤ ((run clock answers files stream).rotated ++
        (run clock answers files stream).log).length) ∧
      ((∀ i, (answers i).short = none ∧ (answers i).reopen = true) →
        written = entries (events clock answers stream)) := by
  have hload : Generations.load List.length [files.log] = files.log.length :=
    Generations.load_singleton files.log
  obtain ⟨hlog, hrotated⟩ := runLines_holds (holds_start files) (events clock answers stream)
  obtain ⟨n, hkept, hfull⟩ := Generations.exists_drop_of_patient
    (patient_records (g := ⟨[files.rotated], [files.log]⟩) hload (events clock answers stream))
  have hcontent : (run clock answers files stream).rotated ++ (run clock answers files stream).log =
      (Generations.run ⟨[files.rotated], [files.log]⟩
        (records files.log.length (events clock answers stream))).kept.flatten := by
    unfold run Generations.kept
    rw [hrotated, hlog, List.flatten_append]
  refine ⟨(records files.log.length (events clock answers stream)).map Prod.fst, n,
    written_records _ _, ?_, ?_, ?_⟩
  · rw [hcontent, hkept]
    rfl
  · rw [hcontent, ← load_eq_length]
    exact hfull
  · intro hanswers
    apply records_of_succeeding
    intro l hl
    obtain ⟨i, hi, rfl⟩ := List.mem_mapIdx.1 hl
    exact hanswers i

theorem Written.length_le {ls : List Line} {written : List (List UInt8)} {most : ℕ}
    (h : Written ls written) (hes : ∀ e ∈ entries ls, e.length ≤ most) :
    ∀ e ∈ written, e.length ≤ most := by
  induction h with
  | done | noText => nofun
  | cut hshort =>
    intro e he
    rw [List.mem_singleton.1 he]
    exact (List.length_take_le' ..).trans (hes _ List.mem_cons_self)
  | notReopened hshort hreopen =>
    intro e he
    rw [List.mem_singleton.1 he]
    exact hes _ List.mem_cons_self
  | next hshort hrest ih =>
    intro e he
    obtain rfl | he := List.mem_cons.1 he
    · exact hes _ List.mem_cons_self
    · exact ih (fun e he => hes e (List.mem_cons_of_mem _ he)) e he

/-- If the log can be written, looked at and renamed: it never ends full, and the rotated one is
longer than that by less than an entry. -/
theorem run_bounded (clock : ℕ → ℕ) (answers : ℕ → Answers) (files : LogFiles)
    (stream : List UInt8) (most : ℕ)
    (hanswers : ∀ i, (answers i).short = none ∧ (answers i).metadata = true ∧
      (answers i).rename = true)
    (hentries : ∀ e ∈ entries (events clock answers stream), e.length ≤ most)
    (hlog : files.log.length < logMaxSize) (hrotated : files.rotated.length < logMaxSize + most) :
    (run clock answers files stream).log.length < logMaxSize ∧
      (run clock answers files stream).rotated.length < logMaxSize + most := by
  have hload (bytes : List UInt8) : Generations.load List.length [bytes] = bytes.length :=
    Generations.load_singleton bytes
  have hevent : ∀ l ∈ events clock answers stream, l.2.2.short = none ∧ l.2.2.metadata = true ∧
      l.2.2.rename = true := by
    intro l hl
    obtain ⟨i, hi, rfl⟩ := List.mem_mapIdx.1 hl
    exact hanswers i
  have hprompt := prompt_records (g := ⟨[files.rotated], [files.log]⟩) (hload files.log)
    (fun l hl => (hevent l hl).2) (fun l hl => (hevent l hl).1)
  have hmost : ∀ e ∈ records files.log.length (events clock answers stream), e.1.length ≤ most :=
    fun e he => (written_records _ _).length_le hentries e.1 (List.mem_map_of_mem he)
  obtain ⟨hcurrent, hold⟩ := Generations.load_run_of_prompt hprompt (by decide) hmost
    (by rw [hload]; exact hlog) (by rw [hload]; exact hrotated)
  obtain ⟨hlogHeld, hrotatedHeld⟩ := runLines_holds (holds_start files) (events clock answers stream)
  rw [load_eq_length] at hcurrent hold
  unfold run
  rw [hlogHeld, hrotatedHeld]
  exact ⟨hcurrent, hold⟩

def succeeding : Answers := ⟨none, true, true, true⟩

/-- A log that the next line fills, and two lines. -/
def nearlyFull : LogFiles := ⟨List.replicate (logMaxSize - 10) 46, []⟩

def upAndDown : List UInt8 := asBytes "up\ndown\n"

theorem run_upAndDown : run (fun _ => 0) (fun _ => succeeding) nearlyFull upAndDown =
    ⟨asBytes (entryText 0 "down"), nearlyFull.log ++ asBytes (entryText 0 "up")⟩ := by
  have hevents : events (fun _ => 0) (fun _ => succeeding) upAndDown =
      [(some "up", 0, succeeding), (some "down", 0, succeeding)] := by decide +kernel
  have hup : (asBytes (entryText 0 "up")).length = 20 := by decide +kernel
  have hdown : (asBytes (entryText 0 "down")).length = 22 := by decide +kernel
  have hfirst : logLine nearlyFull (asBytes (entryText 0 "up")) succeeding =
      (⟨[], nearlyFull.log ++ asBytes (entryText 0 "up")⟩, true) := by
    have hlength : nearlyFull.log.length = logMaxSize - 10 := List.length_replicate
    simp [logLine, succeeding, List.length_append, hlength, hup, logMaxSize]
  have hsecond : logLine ⟨[], nearlyFull.log ++ asBytes (entryText 0 "up")⟩
      (asBytes (entryText 0 "down")) succeeding =
      (⟨asBytes (entryText 0 "down"), nearlyFull.log ++ asBytes (entryText 0 "up")⟩, true) := by
    simp [logLine, succeeding, hdown, logMaxSize]
  rw [run, hevents, runLines_cons, hfirst]
  dsimp only
  rw [runLines_cons, hsecond]
  rfl

theorem run_bounded_upAndDown :
    (run (fun _ => 0) (fun _ => succeeding) nearlyFull upAndDown).rotated =
        nearlyFull.log ++ asBytes (entryText 0 "up") ∧
      (run (fun _ => 0) (fun _ => succeeding) nearlyFull upAndDown).log.length < logMaxSize ∧
      (run (fun _ => 0) (fun _ => succeeding) nearlyFull upAndDown).rotated.length <
        logMaxSize + 22 := by
  have hentries : ∀ e ∈ entries (events (fun _ => 0) (fun _ => succeeding) upAndDown),
      e.length ≤ 22 := by decide +kernel
  refine ⟨by rw [run_upAndDown], run_bounded _ _ nearlyFull upAndDown 22 (fun _ => ⟨rfl, rfl, rfl⟩)
    hentries ?_ ?_⟩
  · rw [nearlyFull, List.length_replicate]
    decide
  · exact Nat.zero_lt_succ _

end Quantra.Services.Logger
