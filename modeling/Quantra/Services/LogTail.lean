import Quantra.Lib.LineFile
import Quantra.Lib.Utf8
import Quantra.Services.Logger

/-! `control.rs`: what is shown of the log of a service. -/
namespace Quantra.Services.Logger

open Bytes Text

/-- `fs::read_to_string(..).unwrap_or_default()`. -/
def content (log : List UInt8) : String := (decode log).getD ""

/-- `read_log_tail`. -/
def readLogTail (log : List UInt8) (n : ℕ) : List String :=
  ((lines (content log)).reverse.take n).reverse

def isErrorLine (l : String) : Bool :=
  "ERROR".toList <:+: l.toList || "error".toList <:+: l.toList

/-- `count_log_errors`. -/
def countLogErrors (log : List UInt8) : ℕ := ((lines (content log)).filter isErrorLine).length

/-- An entry without its line feed. -/
def entryLine (ts : ℕ) (line : String) : List Char :=
  '[' :: (Nat.toDigits 10 ts).leftpad 12 ' ' ++ ['m', 's', ']', ' '] ++ line.toList

/-- The entries of the lines before the first that is no text. -/
def said : List Line → List (List Char)
  | [] => []
  | (none, _) :: _ => []
  | (some line, ts, _) :: rest => entryLine ts line :: said rest

/-- As it is shown. -/
def shown (l : List Char) : String := String.ofList (dropCarriageReturn l)

section Tail
variable {ls : List Line} {stream : List UInt8} {line : String}

theorem entryText_eq (ts : ℕ) (line : String) :
    entryText ts line = String.ofList (entryLine ts line ++ ['\n']) := by
  rw [← String.toList_inj, entryText, String.toList_ofList]
  simp only [String.toList_append, String.toList_ofList]
  simp [entryLine]

theorem entries_eq (ls : List Line) :
    entries ls = (said ls).map fun l => asBytes (String.ofList (l ++ ['\n'])) := by
  induction ls with
  | nil => rfl
  | cons l ls ih =>
    obtain ⟨line, ts, a⟩ := l
    cases line with
    | none => rfl
    | some line =>
      rw [entries_cons, entryText_eq, ih]
      rfl

theorem flatten_asBytes (ls : List (List Char)) :
    (ls.map fun l => asBytes (String.ofList (l ++ ['\n']))).flatten =
      asBytes (String.ofList (LineFile.text ls)) := by
  induction ls with
  | nil => rfl
  | cons l ls ih =>
    have htext : LineFile.text (l :: ls) = (l ++ ['\n']) ++ LineFile.text ls := List.flatMap_cons
    rw [List.map_cons, List.flatten_cons, ih, ← asBytes_append, ← String.ofList_append, htext]

theorem newline_not_mem_clientLines (h : some line ∈ Journal.clientLines stream) :
    '\n' ∉ line.toList := by
  have hpiece : ∃ piece ∈ stream.splitOn 10, ∃ bytes, (∀ b ∈ bytes, b ∈ piece) ∧
      decode bytes = some line := by
    unfold Journal.clientLines at h
    rcases List.mem_append.1 h with h | h
    · obtain ⟨piece, hmem, hline⟩ := List.mem_map.1 h
      refine ⟨piece, List.mem_of_mem_dropLast hmem, _, ?_, hline⟩
      unfold Journal.dropReturnByte
      split
      · exact fun b hb => List.mem_of_mem_dropLast hb
      · exact fun b hb => hb
    · split at h
      · cases h
      · rename_i hrest
        cases hlast : (stream.splitOn 10).getLast? with
        | none =>
          rw [hlast] at hrest
          exact absurd rfl hrest
        | some piece =>
          rw [hlast] at h
          exact ⟨piece, List.mem_of_getLast? hlast, piece, fun b hb => hb, (List.mem_singleton.1 h).symm⟩
  obtain ⟨piece, hmem, bytes, hbytes, hline⟩ := hpiece
  rw [List.splitOn_eq_splitOnP] at hmem
  intro hnewline
  have hten : (10 : UInt8) ∈ asBytes line := (mem_asBytes_iff (by decide)).2 hnewline
  rw [asBytes_of_decode hline] at hten
  have hnot := Settings.of_mem_splitOnP hmem 10 (hbytes 10 hten)
  exact absurd hnot (by decide)

theorem newline_not_mem_said {clock : ℕ → ℕ} {answers : ℕ → Answers} {l : List Char}
    (h : l ∈ said (events clock answers stream)) : '\n' ∉ l := by
  have hsaid (ls : List Line) (hls : ∀ e ∈ ls, ∀ line, e.1 = some line → '\n' ∉ line.toList) :
      ∀ l ∈ said ls, '\n' ∉ l := by
    induction ls with
    | nil => exact nofun
    | cons e ls ih =>
      obtain ⟨line, ts, a⟩ := e
      cases line with
      | none => exact nofun
      | some line =>
        have hline := hls _ List.mem_cons_self line rfl
        have hdigits : '\n' ∉ Nat.toDigits 10 ts := fun hmem =>
          absurd (Nat.isDigit_of_mem_toDigits (by decide) (by decide) hmem) (by decide)
        intro l hl
        rcases List.mem_cons.1 hl with rfl | hl
        · simp [entryLine, hline, List.leftpad, hdigits]
        · exact ih (fun e he => hls e (List.mem_cons_of_mem _ he)) l hl
  refine hsaid _ ?_ l h
  intro e he line hline
  obtain ⟨i, hi, rfl⟩ := List.mem_mapIdx.1 he
  have hmem := List.getElem_mem hi
  have hget : (Journal.clientLines stream)[i] = some line := hline
  rw [hget] at hmem
  exact newline_not_mem_clientLines hmem

/-- A log of these lines. -/
def logOf (ls : List (List Char)) : List UInt8 := asBytes (String.ofList (LineFile.text ls))

/-- What is in the log are the lines that were there and the entries, after the last rotation. -/
theorem log_run (clock : ℕ → ℕ) (answers : ℕ → Answers) (old : List (List Char))
    (rotated stream : List UInt8)
    (hanswers : ∀ i, (answers i).short = none ∧ (answers i).reopen = true) :
    ∃ front back, old ++ said (events clock answers stream) = front ++ back ∧
      (run clock answers ⟨logOf old, rotated⟩ stream).log = logOf back ∧
      ((logOf (front ++ back)).length < logMaxSize → front = []) := by
  let entry (l : List Char) := asBytes (String.ofList (l ++ ['\n']))
  let g : Generations (List UInt8) := ⟨[rotated], old.map entry⟩
  let es := records (logOf old).length (events clock answers stream)
  have hrecords : g.current ++ es.map Prod.fst =
      (old ++ said (events clock answers stream)).map entry := by
    have hentries : es.map Prod.fst = entries (events clock answers stream) := by
      apply records_of_succeeding
      intro l hl
      obtain ⟨i, hi, rfl⟩ := List.mem_mapIdx.1 hl
      exact hanswers i
    rw [hentries, entries_eq, List.map_append]
  have hholds : Holds ⟨logOf old, rotated⟩ g := by
    refine ⟨(flatten_asBytes old).symm, ?_⟩
    exact (List.append_nil rotated).symm
  have hcurrent : (run clock answers ⟨logOf old, rotated⟩ stream).log = (g.run es).current.flatten :=
    (runLines_holds hholds (events clock answers stream)).1
  have hload : Generations.load List.length g.current = (logOf old).length := by
    rw [load_eq_length]
    exact congrArg List.length (flatten_asBytes old)
  have hsuffix := Generations.current_run_suffix g es
  have hlight := Generations.current_run_of_light
    (patient_records hload (events clock answers stream))
  rw [hrecords, load_eq_length, flatten_asBytes] at hlight
  rw [hrecords, List.suffix_iff_eq_drop, ← List.map_drop] at hsuffix
  rw [hcurrent]
  by_cases hsmall : (logOf (old ++ said (events clock answers stream))).length < logMaxSize
  · refine ⟨[], _, rfl, ?_, fun _ => rfl⟩
    rw [hlight hsmall]
    exact flatten_asBytes _
  · obtain ⟨k, hk⟩ : ∃ k, (g.run es).current =
        ((old ++ said (events clock answers stream)).drop k).map entry := ⟨_, hsuffix⟩
    refine ⟨_, _, (List.take_append_drop k _).symm, ?_, ?_⟩
    · rw [hk]
      exact flatten_asBytes _
    · rw [List.take_append_drop]
      exact fun h => absurd h hsmall

end Tail

end Quantra.Services.Logger
