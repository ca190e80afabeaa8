import Quantra.Process.Command
import Mathlib.Data.List.Induction
import Mathlib.Tactic.Tauto

/-! Quoting of command lines: what `split_command_line` makes of the pieces of a text, and which
argument lists come back from it. -/
namespace Quantra.Process

def isBlank (c : Char) : Prop := c = ' ' ∨ c = '\t' ∨ c = '\n'

/-- The characters that do not stand for themselves outside quotes. -/
def isSpecial (c : Char) : Prop := isBlank c ∨ c = '\\' ∨ c = '\'' ∨ c = '"'

instance (c : Char) : Decidable (isBlank c) := inferInstanceAs (Decidable (_ ∨ _))

instance (c : Char) : Decidable (isSpecial c) := inferInstanceAs (Decidable (_ ∨ _))

/-- What a command line is made of. A character between double quotes may be escaped. -/
inductive Piece
  | blank (c : Char)
  | plain (c : Char)
  | escape (c : Char)
  | single (cs : List Char)
  | double (ds : List (Bool × Char))

def doubleChars (ds : List (Bool × Char)) : List Char :=
  ds.flatMap fun d => if d.1 then ['\\', d.2] else [d.2]

/-- What stands between double quotes unescaped does not end or escape. -/
def DoubleValid (ds : List (Bool × Char)) : Prop :=
  ∀ d ∈ ds, d.1 = false → d.2 ≠ '"' ∧ d.2 ≠ '\\'

namespace Piece

def Valid : Piece → Prop
  | blank c => isBlank c
  | plain c => ¬isSpecial c
  | escape _ => True
  | single cs => '\'' ∉ cs
  | double ds => DoubleValid ds

/-- The piece as it is written. -/
def chars : Piece → List Char
  | blank c | plain c => [c]
  | escape c => ['\\', c]
  | single cs => '\'' :: (cs ++ ['\''])
  | double ds => '"' :: (doubleChars ds ++ ['"'])

/-- What the piece adds to its word. -/
def text : Piece → List Char
  | blank _ => []
  | plain c | escape c => [c]
  | single cs => cs
  | double ds => ds.map Prod.snd

end Piece

def render (ps : List Piece) : List Char := ps.flatMap Piece.chars

namespace Splitter

/-- What the splitter does with a whole piece. -/
def feed (s : Splitter) : Piece → Splitter
  | .blank _ => s.flush
  | p => { s with current := s.current ++ p.text }

theorem foldl_singleQuoted {cs : List Char} (h : '\'' ∉ cs) (cur : List Char)
    (argv : List String) :
    cs.foldl step ⟨.singleQuoted, cur, argv⟩ = ⟨.singleQuoted, cur ++ cs, argv⟩ := by
  induction cs generalizing cur with
  | nil => rw [List.append_nil, List.foldl_nil]
  | cons c cs ih =>
    rw [List.mem_cons, not_or] at h
    have hstep : step ⟨.singleQuoted, cur, argv⟩ c = ⟨.singleQuoted, cur ++ [c], argv⟩ :=
      if_neg (Ne.symm h.1)
    rw [List.foldl_cons, hstep, ih h.2, List.append_assoc]
    rfl

theorem foldl_doubleQuoted {ds : List (Bool × Char)} (h : DoubleValid ds) (cur : List Char)
    (argv : List String) :
    (doubleChars ds).foldl step ⟨.doubleQuoted, cur, argv⟩ =
      ⟨.doubleQuoted, cur ++ ds.map Prod.snd, argv⟩ := by
  induction ds generalizing cur with
  | nil => rw [List.map_nil, List.append_nil]; rfl
  | cons d ds ih =>
    have hrest : DoubleValid ds := fun e he => h e (List.mem_cons_of_mem d he)
    obtain ⟨escaped, c⟩ := d
    have hone : (if escaped then ['\\', c] else [c]).foldl step ⟨.doubleQuoted, cur, argv⟩ =
        ⟨.doubleQuoted, cur ++ [c], argv⟩ := by
      cases escaped with
      | true => rfl
      | false =>
        obtain ⟨hquote, hslash⟩ := h _ List.mem_cons_self rfl
        exact (if_neg hquote).trans (if_neg hslash)
    unfold doubleChars at ih ⊢
    rw [List.flatMap_cons, List.foldl_append, hone, ih hrest, List.append_assoc]
    rfl

theorem foldl_chars {p : Piece} (h : p.Valid) (cur : List Char) (argv : List String) :
    p.chars.foldl step ⟨.normal, cur, argv⟩ = feed ⟨.normal, cur, argv⟩ p := by
  cases p with
  | blank c =>
    show step ⟨.normal, cur, argv⟩ c = flush ⟨.normal, cur, argv⟩
    exact if_pos h
  | plain c =>
    show step ⟨.normal, cur, argv⟩ c = _
    have hblank : ¬isBlank c := fun hc => h (.inl hc)
    have hslash : c ≠ '\\' := fun hc => h (.inr (.inl hc))
    have hsingle : c ≠ '\'' := fun hc => h (.inr (.inr (.inl hc)))
    have hdouble : c ≠ '"' := fun hc => h (.inr (.inr (.inr hc)))
    exact (if_neg hblank).trans ((if_neg hslash).trans ((if_neg hsingle).trans (if_neg hdouble)))
  | escape c => rfl
  | single cs =>
    show (cs ++ ['\'']).foldl step ⟨.singleQuoted, cur, argv⟩ = _
    rw [List.foldl_append, foldl_singleQuoted h]
    rfl
  | double ds =>
    show (doubleChars ds ++ ['"']).foldl step ⟨.doubleQuoted, cur, argv⟩ = _
    rw [List.foldl_append, foldl_doubleQuoted h]
    rfl

theorem mode_flush (s : Splitter) : s.flush.mode = s.mode := by
  unfold flush
  split
  · rfl
  · rfl

theorem mode_feed (s : Splitter) (p : Piece) : (s.feed p).mode = s.mode := by
  cases p with
  | blank c => exact mode_flush s
  | plain c => rfl
  | escape c => rfl
  | single cs => rfl
  | double ds => rfl

/-- The splitter goes through a text piece by piece. -/
theorem foldl_render {ps : List Piece} (h : ∀ p ∈ ps, p.Valid) {s : Splitter}
    (hs : s.mode = .normal) :
    (render ps).foldl step s = ps.foldl feed s ∧ (ps.foldl feed s).mode = .normal := by
  induction ps generalizing s with
  | nil => exact ⟨rfl, hs⟩
  | cons p ps ih =>
    obtain ⟨mode, cur, argv⟩ := s
    cases hs
    have hmode := mode_feed ⟨.normal, cur, argv⟩ p
    obtain ⟨hfold, hnormal⟩ := ih (fun q hq => h q (List.mem_cons_of_mem p hq)) hmode
    unfold render at hfold ⊢
    rw [List.flatMap_cons, List.foldl_append, foldl_chars (h p List.mem_cons_self), hfold]
    exact ⟨rfl, hnormal⟩

/-- Everything collected so far, in order. -/
def collected (s : Splitter) : List Char := s.argv.flatMap String.toList ++ s.current

theorem collected_flush (s : Splitter) : s.flush.collected = s.collected := by
  unfold flush
  split
  · rfl
  · simp [collected]

theorem collected_feed (s : Splitter) (p : Piece) :
    (s.feed p).collected = s.collected ++ p.text := by
  cases p with
  | blank c => rw [Piece.text, List.append_nil]; exact collected_flush s
  | plain c => simp [feed, collected]
  | escape c => simp [feed, collected]
  | single cs => simp [feed, collected]
  | double ds => simp [feed, collected]

theorem collected_foldl (ps : List Piece) (s : Splitter) :
    (ps.foldl feed s).collected = s.collected ++ ps.flatMap Piece.text := by
  induction ps generalizing s with
  | nil => simp
  | cons p ps ih => rw [List.foldl_cons, ih, collected_feed, List.flatMap_cons, List.append_assoc]

/-- Only words with a character are kept. -/
theorem argv_flush_ne {s : Splitter} (h : ∀ w ∈ s.argv, w ≠ "") : ∀ w ∈ s.flush.argv, w ≠ "" := by
  unfold flush
  split
  · exact h
  · rename_i hcur
    intro w hw
    rw [List.mem_append, List.mem_singleton] at hw
    obtain hw | rfl := hw
    · exact h w hw
    · intro hempty
      have hlist := congrArg String.toList hempty
      rw [String.toList_ofList] at hlist
      exact hcur hlist

theorem argv_foldl_ne {ps : List Piece} {s : Splitter} (h : ∀ w ∈ s.argv, w ≠ "") :
    ∀ w ∈ (ps.foldl feed s).argv, w ≠ "" := by
  induction ps generalizing s with
  | nil => exact h
  | cons p ps ih =>
    apply ih
    cases p with
    | blank c => exact argv_flush_ne h
    | plain c => exact h
    | escape c => exact h
    | single cs => exact h
    | double ds => exact h

theorem flatMap_argv_flush (ps : List Piece) :
    (ps.foldl feed {}).flush.argv.flatMap String.toList = ps.flatMap Piece.text := by
  have hcollected := collected_foldl ps {}
  have hcurrent : (ps.foldl feed {}).flush.current = [] := by
    unfold flush
    split
    · assumption
    · rfl
  rw [← collected_flush, collected, hcurrent, List.append_nil] at hcollected
  exact hcollected

/-- No word is left exactly if no piece has a text. -/
theorem argv_flush_eq_nil_iff (ps : List Piece) :
    (ps.foldl feed {}).flush.argv = [] ↔ ∀ p ∈ ps, p.text = [] := by
  have hwords : ∀ w ∈ (ps.foldl feed {}).flush.argv, w ≠ "" :=
    argv_flush_ne (argv_foldl_ne fun w hw => absurd hw List.not_mem_nil)
  rw [← List.flatMap_eq_nil_iff, ← flatMap_argv_flush, List.flatMap_eq_nil_iff, List.eq_nil_iff_forall_not_mem]
  constructor
  · intro h w hw
    exact absurd hw (h w)
  · intro h w hw
    exact hwords w hw (String.toList_eq_nil_iff.1 (h w hw))

end Splitter

/-- The beginning of a piece that a text may end in. -/
inductive Unfinished : Mode → List Char → Prop
  | escape : Unfinished .escaped ['\\']
  | single {cs : List Char} : '\'' ∉ cs → Unfinished .singleQuoted ('\'' :: cs)
  | double {ds : List (Bool × Char)} : DoubleValid ds →
      Unfinished .doubleQuoted ('"' :: doubleChars ds)
  | doubleEscape {ds : List (Bool × Char)} : DoubleValid ds →
      Unfinished .doubleEscaped ('"' :: (doubleChars ds ++ ['\\']))

theorem Unfinished.mode_foldl {mode : Mode} {rest : List Char} (h : Unfinished mode rest)
    {s : Splitter} (hs : s.mode = .normal) : (rest.foldl Splitter.step s).mode = mode := by
  obtain ⟨m, cur, argv⟩ := s
  cases hs
  cases h with
  | escape => rfl
  | @single cs hcs =>
    show (cs.foldl Splitter.step ⟨.singleQuoted, cur, argv⟩).mode = _
    rw [Splitter.foldl_singleQuoted hcs]
  | @double ds hds =>
    show ((doubleChars ds).foldl Splitter.step ⟨.doubleQuoted, cur, argv⟩).mode = _
    rw [Splitter.foldl_doubleQuoted hds]
  | @doubleEscape ds hds =>
    show ((doubleChars ds ++ ['\\']).foldl Splitter.step ⟨.doubleQuoted, cur, argv⟩).mode = _
    rw [List.foldl_append, Splitter.foldl_doubleQuoted hds]
    rfl

theorem Unfinished.ne_normal {mode : Mode} {rest : List Char} (h : Unfinished mode rest) :
    mode ≠ .normal := by
  cases h <;> exact Mode.noConfusion

theorem render_concat (ps : List Piece) (p : Piece) : render (ps ++ [p]) = render ps ++ p.chars := by
  unfold render
  rw [List.flatMap_append, List.flatMap_singleton]

theorem valid_concat {ps : List Piece} {p : Piece} (hps : ∀ q ∈ ps, q.Valid) (hp : p.Valid) :
    ∀ q ∈ ps ++ [p], q.Valid := by
  intro q hq
  rw [List.mem_append, List.mem_singleton] at hq
  obtain hq | rfl := hq
  · exact hps q hq
  · exact hp

theorem doubleValid_concat {ds : List (Bool × Char)} {d : Bool × Char} (hds : DoubleValid ds)
    (hd : d.1 = false → d.2 ≠ '"' ∧ d.2 ≠ '\\') : DoubleValid (ds ++ [d]) := by
  intro e he
  rw [List.mem_append, List.mem_singleton] at he
  obtain he | rfl := he
  · exact hds e he
  · exact hd

/-- A text as its pieces, with the beginning of one more that it may end in. -/
def Parses (ps : List Piece) (mode : Mode) (rest cs : List Char) : Prop :=
  (∀ p ∈ ps, p.Valid) ∧ cs = render ps ++ rest ∧
    (mode = .normal ∧ rest = [] ∨ Unfinished mode rest)

/-- One more character finishes a piece, goes on with it or begins one. -/
theorem Parses.concat {ps : List Piece} {mode : Mode} {rest cs : List Char}
    (h : Parses ps mode rest cs) (c : Char) :
    ∃ ps' mode' rest', Parses ps' mode' rest' (cs ++ [c]) := by
  obtain ⟨hps, rfl, hrest⟩ := h
  have hfinish : ∀ p : Piece, p.Valid → rest ++ [c] = p.chars →
      ∃ ps' mode' rest', Parses ps' mode' rest' (render ps ++ rest ++ [c]) := by
    intro p hp hchars
    refine ⟨ps ++ [p], .normal, [], valid_concat hps hp, ?_, .inl ⟨rfl, rfl⟩⟩
    rw [render_concat, List.append_nil, List.append_assoc, hchars]
  have hgoOn : ∀ mode', Unfinished mode' (rest ++ [c]) →
      ∃ ps' mode' rest', Parses ps' mode' rest' (render ps ++ rest ++ [c]) := by
    intro mode' hunfinished
    exact ⟨ps, mode', rest ++ [c], hps, List.append_assoc _ _ _, .inr hunfinished⟩
  obtain ⟨rfl, rfl⟩ | hunfinished := hrest
  · by_cases hspecial : isSpecial c
    · obtain hblank | rfl | rfl | rfl := hspecial
      · exact hfinish (.blank c) hblank rfl
      · exact hgoOn .escaped .escape
      · exact hgoOn .singleQuoted (.single List.not_mem_nil)
      · exact hgoOn .doubleQuoted (@Unfinished.double [] fun d hd => absurd hd List.not_mem_nil)
    · exact hfinish (.plain c) hspecial rfl
  · cases hunfinished with
    | escape => exact hfinish (.escape c) trivial rfl
    | @single cs hcs =>
      by_cases hc : c = '\''
      · rw [hc] at hfinish ⊢
        exact hfinish (.single cs) hcs rfl
      · have hcs' : '\'' ∉ cs ++ [c] := by
          rw [List.mem_append, List.mem_singleton, not_or]
          exact ⟨hcs, Ne.symm hc⟩
        exact hgoOn .singleQuoted (.single hcs')
    | @double ds hds =>
      by_cases hquote : c = '"'
      · rw [hquote] at hfinish ⊢
        exact hfinish (.double ds) hds rfl
      · by_cases hslash : c = '\\'
        · rw [hslash] at hgoOn ⊢
          exact hgoOn .doubleEscaped (.doubleEscape hds)
        · have hchars : '"' :: doubleChars ds ++ [c] = '"' :: doubleChars (ds ++ [(false, c)]) := by
            simp [doubleChars]
          apply hgoOn .doubleQuoted
          rw [hchars]
          exact .double (doubleValid_concat hds fun _ => ⟨hquote, hslash⟩)
    | @doubleEscape ds hds =>
      have hchars : '"' :: (doubleChars ds ++ ['\\']) ++ [c] =
          '"' :: doubleChars (ds ++ [(true, c)]) := by
        simp [doubleChars]
      apply hgoOn .doubleQuoted
      rw [hchars]
      exact .double (doubleValid_concat hds fun h => absurd h Bool.noConfusion)

theorem exists_parses (cs : List Char) : ∃ ps mode rest, Parses ps mode rest cs := by
  induction cs using List.reverseRecOn with
  | nil => exact ⟨[], .normal, [], fun p hp => absurd hp List.not_mem_nil, rfl, .inl ⟨rfl, rfl⟩⟩
  | append_singleton cs c ih =>
    obtain ⟨ps, mode, rest, h⟩ := ih
    exact h.concat c

theorem Parses.mode_foldl {ps : List Piece} {mode : Mode} {rest cs : List Char}
    (h : Parses ps mode rest cs) : (cs.foldl Splitter.step {}).mode = mode := by
  obtain ⟨hps, rfl, hrest⟩ := h
  obtain ⟨hfold, hnormal⟩ := Splitter.foldl_render hps (s := {}) rfl
  rw [List.foldl_append, hfold]
  obtain ⟨rfl, rfl⟩ | hunfinished := hrest
  · exact hnormal
  · exact hunfinished.mode_foldl hnormal

/-! When a text is refused. -/

def Unterminated (text : String) : Prop :=
  ∃ ps mode rest, Parses ps mode rest text.toList ∧
    (mode = .singleQuoted ∨ mode = .doubleQuoted ∨ mode = .doubleEscaped)

def EndsInEscape (text : String) : Prop := ∃ ps rest, Parses ps .escaped rest text.toList

def NoWord (text : String) : Prop := ∀ c ∈ text.toList, isBlank c

/-- The blanks and the empty quotes. -/
def emptyParts : List (List Char) := [[' '], ['\t'], ['\n'], ['\'', '\''], ['"', '"']]

/-- Nothing but blanks and empty quotes, and at least one of the latter. -/
def OnlyEmptyQuotes (text : String) : Prop :=
  ∃ parts : List (List Char), (∀ cs ∈ parts, cs ∈ emptyParts) ∧ text.toList = parts.flatten ∧
    ¬NoWord text

theorem isOk_splitCommandLine_iff (text : String) :
    (splitCommandLine text).isOk ↔ (text.toList.foldl Splitter.step {}).mode = .normal ∧
      (text.toList.foldl Splitter.step {}).flush.argv ≠ [] := by
  unfold splitCommandLine
  dsimp only
  cases (text.toList.foldl Splitter.step {}).mode with
  | normal =>
    dsimp only
    cases (text.toList.foldl Splitter.step {}).flush.argv with
    | nil => simp [Except.isOk, Except.toBool]
    | cons w argv => simp [Except.isOk, Except.toBool]
  | singleQuoted => simp [Except.isOk, Except.toBool]
  | doubleQuoted => simp [Except.isOk, Except.toBool]
  | escaped => simp [Except.isOk, Except.toBool]
  | doubleEscaped => simp [Except.isOk, Except.toBool]

/-- A text of whole pieces is refused exactly if none of them has a text. -/
theorem isOk_of_parses {ps : List Piece} {text : String}
    (h : Parses ps .normal [] text.toList) :
    (splitCommandLine text).isOk = false ↔ ∀ p ∈ ps, p.text = [] := by
  have hmode := h.mode_foldl
  obtain ⟨hps, hchars, -⟩ := h
  have hfold := (Splitter.foldl_render hps (s := {}) rfl).1
  rw [List.append_nil] at hchars
  rw [← Splitter.argv_flush_eq_nil_iff, ← hfold, ← hchars, ← Bool.not_eq_true,
    isOk_splitCommandLine_iff, hmode]
  simp

theorem parses_normal {ps : List Piece} {cs : List Char} (hps : ∀ p ∈ ps, p.Valid)
    (hcs : cs = render ps) : Parses ps .normal [] cs :=
  ⟨hps, by rw [hcs, List.append_nil], .inl ⟨rfl, rfl⟩⟩

/-- Blanks are a text of whole pieces. -/
theorem parses_of_noWord {text : String} (h : NoWord text) :
    Parses (text.toList.map .blank) .normal [] text.toList := by
  apply parses_normal
  · intro p hp
    obtain ⟨c, hc, rfl⟩ := List.mem_map.1 hp
    exact h c hc
  · unfold render
    rw [List.flatMap_map]
    exact (List.flatMap_singleton' _).symm

theorem chars_mem_emptyParts {p : Piece} (hp : p.Valid) (htext : p.text = []) :
    p.chars ∈ emptyParts := by
  cases p with
  | blank c =>
    obtain rfl | rfl | rfl := hp
    · decide
    · decide
    · decide
  | plain c => cases htext
  | escape c => cases htext
  | single cs =>
    cases htext
    decide
  | double ds =>
    rw [Piece.text, List.map_eq_nil_iff] at htext
    cases htext
    decide

theorem exists_piece {cs : List Char} (h : cs ∈ emptyParts) :
    ∃ p : Piece, p.Valid ∧ p.text = [] ∧ p.chars = cs := by
  simp only [emptyParts, List.mem_cons, List.not_mem_nil, or_false] at h
  obtain rfl | rfl | rfl | rfl | rfl := h
  · exact ⟨.blank ' ', .inl rfl, rfl, rfl⟩
  · exact ⟨.blank '\t', .inr (.inl rfl), rfl, rfl⟩
  · exact ⟨.blank '\n', .inr (.inr rfl), rfl, rfl⟩
  · exact ⟨.single [], List.not_mem_nil, rfl, rfl⟩
  · exact ⟨.double [], fun d hd => absurd hd List.not_mem_nil, rfl, rfl⟩

theorem exists_pieces_of_emptyParts {parts : List (List Char)}
    (h : ∀ cs ∈ parts, cs ∈ emptyParts) :
    ∃ ps : List Piece, (∀ p ∈ ps, p.Valid ∧ p.text = []) ∧ render ps = parts.flatten := by
  induction parts with
  | nil => exact ⟨[], fun p hp => absurd hp List.not_mem_nil, rfl⟩
  | cons cs parts ih =>
    obtain ⟨ps, hps, hrender⟩ := ih fun ds hds => h ds (List.mem_cons_of_mem cs hds)
    obtain ⟨p, hvalid, htext, hchars⟩ := exists_piece (h cs List.mem_cons_self)
    refine ⟨p :: ps, ?_, ?_⟩
    · intro q hq
      obtain rfl | hq := List.mem_cons.1 hq
      · exact ⟨hvalid, htext⟩
      · exact hps q hq
    · unfold render at hrender ⊢
      rw [List.flatMap_cons, hchars, hrender, List.flatten_cons]

theorem onlyEmptyQuotes_iff {ps : List Piece} {text : String}
    (h : Parses ps .normal [] text.toList) :
    OnlyEmptyQuotes text ↔ (∀ p ∈ ps, p.text = []) ∧ ¬NoWord text := by
  constructor
  · rintro ⟨parts, hparts, hchars, hword⟩
    obtain ⟨ps', hps', hrender⟩ := exists_pieces_of_emptyParts hparts
    have h' : Parses ps' .normal [] text.toList :=
      parses_normal (fun p hp => (hps' p hp).1) (by rw [hchars, hrender])
    have hrefused := (isOk_of_parses h').2 fun p hp => (hps' p hp).2
    exact ⟨(isOk_of_parses h).1 hrefused, hword⟩
  · rintro ⟨htext, hword⟩
    obtain ⟨hps, hchars, -⟩ := h
    refine ⟨ps.map Piece.chars, ?_, ?_, hword⟩
    · intro cs hcs
      obtain ⟨p, hp, rfl⟩ := List.mem_map.1 hcs
      exact chars_mem_emptyParts (hps p hp) (htext p hp)
    · rw [hchars, List.append_nil]
      rfl

/-- What the refusal of a text should mean. -/
def RefusedRightly (text : String) : Prop :=
  (splitCommandLine text).isOk = false ↔ Unterminated text ∨ EndsInEscape text ∨ NoWord text

theorem refusedRightly_iff (text : String) : RefusedRightly text ↔ ¬OnlyEmptyQuotes text := by
  obtain ⟨ps, mode, rest, h⟩ := exists_parses text.toList
  have hmode := h.mode_foldl
  unfold RefusedRightly
  by_cases hnormal : mode = .normal
  · cases hnormal
    obtain ⟨hps, hchars, ⟨-, rfl⟩ | hunfinished⟩ := h
    · have h : Parses ps .normal [] text.toList := ⟨hps, hchars, .inl ⟨rfl, rfl⟩⟩
      have hterminated : ¬Unterminated text := by
        rintro ⟨ps', mode', rest', h', hmode'⟩
        rw [h'.mode_foldl] at hmode
        cases hmode
        simp at hmode'
      have hescape : ¬EndsInEscape text := by
        rintro ⟨ps', rest', h'⟩
        rw [h'.mode_foldl] at hmode
        cases hmode
      have hblank : NoWord text → ∀ p ∈ ps, p.text = [] := by
        intro hword
        apply (isOk_of_parses h).1
        apply (isOk_of_parses (parses_of_noWord hword)).2
        intro p hp
        obtain ⟨c, -, rfl⟩ := List.mem_map.1 hp
        rfl
      rw [isOk_of_parses h, onlyEmptyQuotes_iff h]
      tauto
    · exact absurd rfl hunfinished.ne_normal
  · have hrefused : (splitCommandLine text).isOk = false := by
      rw [← Bool.not_eq_true, isOk_splitCommandLine_iff, hmode]
      exact fun hok => hnormal hok.1
    have hbad : Unterminated text ∨ EndsInEscape text := by
      cases mode with
      | normal => exact absurd rfl hnormal
      | singleQuoted => exact .inl ⟨ps, _, rest, h, .inl rfl⟩
      | doubleQuoted => exact .inl ⟨ps, _, rest, h, .inr (.inl rfl)⟩
      | escaped => exact .inr ⟨ps, rest, h⟩
      | doubleEscaped => exact .inl ⟨ps, _, rest, h, .inr (.inr rfl)⟩
    have hquotes : ¬OnlyEmptyQuotes text := by
      rintro ⟨parts, hparts, hchars, -⟩
      obtain ⟨ps', hps', hrender⟩ := exists_pieces_of_emptyParts hparts
      have h' : Parses ps' .normal [] text.toList :=
        parses_normal (fun p hp => (hps' p hp).1) (by rw [hchars, hrender])
      rw [h'.mode_foldl] at hmode
      exact hnormal hmode.symm
    tauto

/-! Writing an argument list as one text. -/

inductive Style
  | double
  | single
  | escaped
  deriving DecidableEq, Repr

/-- An argument and the way it is written; single quotes cannot stand between single quotes. -/
structure Quoted where
  style : Style
  text : String
  valid : style = .single → '\'' ∉ text.toList

def Quoted.chars (q : Quoted) : List Char :=
  match q.style with
  | .double =>
    '"' :: (q.text.toList.flatMap (fun c => if c = '"' ∨ c = '\\' then ['\\', c] else [c]) ++ ['"'])
  | .single => '\'' :: (q.text.toList ++ ['\''])
  | .escaped => q.text.toList.flatMap fun c => if isSpecial c then ['\\', c] else [c]

/-- The arguments, joined with blanks. -/
def commandLine (qs : List Quoted) : String :=
  String.ofList ([' '].intercalate (qs.map Quoted.chars))

theorem exists_pieces_of_escaped (cs : List Char) :
    ∃ ps, (∀ p ∈ ps, Piece.Valid p) ∧
      render ps = cs.flatMap (fun c => if isSpecial c then ['\\', c] else [c]) ∧
      ∀ s : Splitter, ps.foldl Splitter.feed s = { s with current := s.current ++ cs } := by
  induction cs with
  | nil =>
    refine ⟨[], fun p hp => absurd hp List.not_mem_nil, rfl, fun s => ?_⟩
    rw [List.append_nil]
    rfl
  | cons c cs ih =>
    obtain ⟨ps, hps, hrender, hfeed⟩ := ih
    have hcons : ∀ p : Piece, p.Valid → p.chars = (if isSpecial c then ['\\', c] else [c]) →
        (∀ s : Splitter, s.feed p = { s with current := s.current ++ [c] }) →
        ∃ ps, (∀ p ∈ ps, Piece.Valid p) ∧
          render ps = (c :: cs).flatMap (fun c => if isSpecial c then ['\\', c] else [c]) ∧
          ∀ s : Splitter, ps.foldl Splitter.feed s = { s with current := s.current ++ c :: cs } := by
      intro p hp hchars hone
      refine ⟨p :: ps, List.forall_mem_cons.2 ⟨hp, hps⟩, ?_, fun s => ?_⟩
      · unfold render at hrender ⊢
        rw [List.flatMap_cons, List.flatMap_cons, hchars, hrender]
      · rw [List.foldl_cons, hone, hfeed, List.append_assoc]
        rfl
    by_cases hc : isSpecial c
    · exact hcons (.escape c) trivial (by rw [if_pos hc]; rfl) fun s => rfl
    · exact hcons (.plain c) hc (by rw [if_neg hc]; rfl) fun s => rfl

/-- A written argument is added to the word as it is. -/
theorem foldl_quoted (q : Quoted) (cur : List Char) (argv : List String) :
    q.chars.foldl Splitter.step ⟨.normal, cur, argv⟩ =
      ⟨.normal, cur ++ q.text.toList, argv⟩ := by
  obtain ⟨style, text, valid⟩ := q
  cases style with
  | double =>
    have hchars : (⟨.double, text, valid⟩ : Quoted).chars =
        (Piece.double (text.toList.map fun c => (decide (c = '"' ∨ c = '\\'), c))).chars := by
      simp [Quoted.chars, Piece.chars, doubleChars, List.flatMap_map]
    have hds : DoubleValid (text.toList.map fun c => (decide (c = '"' ∨ c = '\\'), c)) := by
      intro d hd hplain
      obtain ⟨c, -, rfl⟩ := List.mem_map.1 hd
      exact not_or.1 (of_decide_eq_false hplain)
    rw [hchars, Splitter.foldl_chars (p := .double _) hds]
    simp [Splitter.feed, Piece.text, Function.comp_def]
  | single =>
    exact Splitter.foldl_chars (p := .single text.toList) (valid rfl) cur argv
  | escaped =>
    obtain ⟨ps, hps, hrender, hfeed⟩ := exists_pieces_of_escaped text.toList
    have hfold := (Splitter.foldl_render hps (s := ⟨.normal, cur, argv⟩) rfl).1
    rw [hrender, hfeed] at hfold
    exact hfold

def keepNonempty (words : List String) : List String := words.filter (· ≠ "")

theorem flush_eq (text : String) (argv : List String) :
    (⟨.normal, text.toList, argv⟩ : Splitter).flush =
      ⟨.normal, [], argv ++ keepNonempty [text]⟩ := by
  unfold Splitter.flush keepNonempty
  by_cases hempty : text = ""
  · simp [hempty]
  · have hchars : text.toList ≠ [] := fun h => hempty (String.toList_eq_nil_iff.1 h)
    simp [hempty]

/-- The words of a command line are the arguments that are not empty. -/
theorem flush_commandLine (q : Quoted) (qs : List Quoted) (argv : List String) :
    (([' '].intercalate ((q :: qs).map Quoted.chars)).foldl Splitter.step
      ⟨.normal, [], argv⟩).flush =
        ⟨.normal, [], argv ++ keepNonempty ((q :: qs).map (·.text))⟩ := by
  induction qs generalizing q argv with
  | nil =>
    rw [List.map_singleton, List.intercalate_singleton, foldl_quoted, List.nil_append, flush_eq]
    rfl
  | cons r qs ih =>
    have hblank : Splitter.step ⟨.normal, q.text.toList, argv⟩ ' ' =
        (⟨.normal, q.text.toList, argv⟩ : Splitter).flush := rfl
    rw [List.map_cons, List.map_cons, List.intercalate_cons_cons, List.foldl_append,
      List.foldl_append, foldl_quoted, List.nil_append, List.foldl_cons, List.foldl_nil, hblank,
      flush_eq, ← List.map_cons, ih r, List.append_assoc]
    unfold keepNonempty
    rw [← List.filter_append]
    rfl

theorem splitCommandLine_commandLine (q : Quoted) (qs : List Quoted) :
    splitCommandLine (commandLine (q :: qs)) =
      if keepNonempty ((q :: qs).map (·.text)) = [] then .error "Command line is empty"
      else .ok (keepNonempty ((q :: qs).map (·.text))) := by
  have hflush := flush_commandLine q qs []
  have hmode := congrArg Splitter.mode hflush
  rw [Splitter.mode_flush] at hmode
  unfold splitCommandLine commandLine
  rw [String.toList_ofList]
  dsimp only
  rw [hflush, hmode]
  cases keepNonempty ((q :: qs).map (·.text)) with
  | nil => rfl
  | cons w ws => rfl

theorem keepNonempty_eq_self_iff {words : List String} :
    keepNonempty words = words ↔ ∀ w ∈ words, w ≠ "" := by
  unfold keepNonempty
  rw [List.filter_eq_self]
  simp

/-- The argument list comes back exactly if no argument is empty. -/
theorem splitCommandLine_eq_ok_iff {q : Quoted} (hq : q.text ≠ "") (qs : List Quoted) :
    splitCommandLine (commandLine (q :: qs)) = .ok ((q :: qs).map (·.text)) ↔
      ∀ r ∈ qs, r.text ≠ "" := by
  have hkept : keepNonempty ((q :: qs).map (·.text)) ≠ [] := by
    unfold keepNonempty
    simp [hq]
  rw [splitCommandLine_commandLine, if_neg hkept, Except.ok.injEq, keepNonempty_eq_self_iff]
  simp [hq]

/-- The text without any quoting. -/
def Bare (text : String) : Prop := ∀ c ∈ text.toList, ¬isSpecial c

theorem length_le_doubleChars (ds : List (Bool × Char)) : ds.length ≤ (doubleChars ds).length := by
  induction ds with
  | nil => exact Nat.le_refl 0
  | cons d ds ih =>
    have hone : 1 ≤ (if d.1 then ['\\', d.2] else [d.2]).length := by
      split
      · exact Nat.le_succ 1
      · exact Nat.le_refl 1
    unfold doubleChars at ih ⊢
    rw [List.flatMap_cons, List.length_append, List.length_cons]
    omega

/-- Quotes and escapes are lost. -/
theorem length_text_lt {p : Piece} (h : ∀ c, p ≠ .plain c) : p.text.length < p.chars.length := by
  cases p with
  | blank c => exact Nat.one_pos
  | plain c => exact absurd rfl (h c)
  | escape c => exact Nat.one_lt_two
  | single cs =>
    rw [Piece.text, Piece.chars, List.length_cons, List.length_append]
    omega
  | double ds =>
    have hle := length_le_doubleChars ds
    rw [Piece.text, Piece.chars, List.length_map, List.length_cons, List.length_append]
    omega

/-- A text whose pieces give it back has only plain ones. -/
theorem plain_of_text_eq_render {ps : List Piece} (hps : ∀ p ∈ ps, p.Valid)
    (h : (render ps).length ≤ (ps.flatMap Piece.text).length) :
    ∀ c ∈ render ps, ¬isSpecial c := by
  have hle : ∀ p : Piece, p.text.length ≤ p.chars.length := by
    intro p
    by_cases hplain : ∃ c, p = .plain c
    · obtain ⟨c, rfl⟩ := hplain
      exact Nat.le_refl 1
    · exact Nat.le_of_lt (length_text_lt fun c hc => hplain ⟨c, hc⟩)
  have hsum : ∀ qs : List Piece, (qs.flatMap Piece.text).length ≤ (render qs).length := by
    intro qs
    induction qs with
    | nil => exact Nat.le_refl 0
    | cons q qs ih =>
      have hq := hle q
      unfold render at ih ⊢
      rw [List.flatMap_cons, List.flatMap_cons, List.length_append, List.length_append]
      omega
  induction ps with
  | nil => exact fun c hc => absurd hc List.not_mem_nil
  | cons p ps ih =>
    obtain ⟨hp, hrest⟩ := List.forall_mem_cons.1 hps
    have hps' := hsum ps
    have hp' := hle p
    unfold render at h ih hps' ⊢
    rw [List.flatMap_cons, List.flatMap_cons, List.length_append, List.length_append] at h
    have hplain : ∃ c, p = .plain c := by
      by_contra hnone
      have hlt := length_text_lt fun c hc => hnone ⟨c, hc⟩
      omega
    obtain ⟨c, rfl⟩ := hplain
    intro d hd
    rw [List.flatMap_cons] at hd
    obtain hd | hd := List.mem_append.1 hd
    · rw [List.mem_singleton.1 hd]
      exact hp
    · exact ih hrest (by omega) d hd

theorem argv_of_splitCommandLine {text : String} {argv : List String}
    (h : splitCommandLine text = .ok argv) :
    (text.toList.foldl Splitter.step {}).flush.argv = argv := by
  unfold splitCommandLine at h
  dsimp only at h
  cases hmode : (text.toList.foldl Splitter.step {}).mode with
  | normal =>
    rw [hmode] at h
    dsimp only at h
    split at h
    · cases h
    · exact Except.ok.inj h
  | singleQuoted => rw [hmode] at h; cases h
  | doubleQuoted => rw [hmode] at h; cases h
  | escaped => rw [hmode] at h; cases h
  | doubleEscaped => rw [hmode] at h; cases h

theorem bare_of_splitCommandLine {text : String} (h : splitCommandLine text = .ok [text]) :
    Bare text := by
  have hok : (splitCommandLine text).isOk := by rw [h]; rfl
  obtain ⟨hnormal, -⟩ := (isOk_splitCommandLine_iff text).1 hok
  obtain ⟨ps, mode, rest, hparses⟩ := exists_parses text.toList
  rw [hparses.mode_foldl] at hnormal
  cases hnormal
  obtain ⟨hps, hchars, ⟨-, rfl⟩ | hunfinished⟩ := hparses
  · rw [List.append_nil] at hchars
    have hargv := argv_of_splitCommandLine h
    rw [hchars, (Splitter.foldl_render hps (s := {}) rfl).1] at hargv
    have hflat := Splitter.flatMap_argv_flush ps
    rw [hargv, List.flatMap_singleton, hchars] at hflat
    unfold Bare
    rw [hchars]
    exact plain_of_text_eq_render hps (Nat.le_of_eq (congrArg List.length hflat))
  · exact absurd rfl hunfinished.ne_normal

theorem splitCommandLine_of_bare {text : String} (hne : text ≠ "") (h : Bare text) :
    splitCommandLine text = .ok [text] := by
  let q : Quoted := ⟨.escaped, text, fun h => Style.noConfusion h⟩
  have hchars : q.chars = text.toList := by
    have hplain : ∀ cs : List Char, (∀ c ∈ cs, ¬isSpecial c) →
        cs.flatMap (fun c => if isSpecial c then ['\\', c] else [c]) = cs := by
      intro cs hcs
      induction cs with
      | nil => rfl
      | cons c cs ih =>
        obtain ⟨hc, hrest⟩ := List.forall_mem_cons.1 hcs
        rw [List.flatMap_cons, if_neg hc, ih hrest]
        rfl
    exact hplain text.toList h
  have hline : commandLine [q] = text := by
    rw [commandLine, List.map_singleton, List.intercalate_singleton, hchars, String.ofList_toList]
  have hsplit := (splitCommandLine_eq_ok_iff (q := q) hne []).2 fun r hr =>
    absurd hr List.not_mem_nil
  rw [hline] at hsplit
  exact hsplit

theorem resolveCommandArgv_eq_ok {command cmd : String} {rest : List String} :
    resolveCommandArgv command [] = .ok (cmd, rest) ↔
      splitCommandLine command = .ok (cmd :: rest) := by
  unfold resolveCommandArgv
  cases splitCommandLine command with
  | error e => simp [bind, Except.bind]
  | ok argv =>
    cases argv with
    | nil => simp [bind, Except.bind]
    | cons w ws => simp [bind, Except.bind]

/-- The one-text form and the explicit form agree exactly if no argument is empty; a lone command
has no explicit form and is split again. -/
theorem resolveCommandArgv_commandLine_iff {q : Quoted} (hq : q.text ≠ "") (qs : List Quoted) :
    resolveCommandArgv (commandLine (q :: qs)) [] =
      resolveCommandArgv q.text (qs.map (·.text)) ↔
        (∀ r ∈ qs, r.text ≠ "") ∧ (qs = [] → Bare q.text) := by
  have hkept : keepNonempty ((q :: qs).map (·.text)) =
      q.text :: keepNonempty (qs.map (·.text)) := by
    unfold keepNonempty
    simp [hq]
  have hlegacy : resolveCommandArgv (commandLine (q :: qs)) [] =
      .ok (q.text, keepNonempty (qs.map (·.text))) := by
    rw [resolveCommandArgv_eq_ok, splitCommandLine_commandLine, hkept,
      if_neg (List.cons_ne_nil _ _)]
  rw [hlegacy]
  cases qs with
  | nil =>
    rw [eq_comm, List.map_nil, resolveCommandArgv_eq_ok]
    constructor
    · intro h
      exact ⟨fun r hr => absurd hr List.not_mem_nil, fun _ => bare_of_splitCommandLine h⟩
    · intro h
      exact splitCommandLine_of_bare hq (h.2 rfl)
  | cons r qs =>
    have hexplicit : resolveCommandArgv q.text ((r :: qs).map (·.text)) =
        .ok (q.text, (r :: qs).map (·.text)) := rfl
    rw [hexplicit, Except.ok.injEq, Prod.mk.injEq, keepNonempty_eq_self_iff]
    simp

/-- Command lines come back exactly if no argument is empty, and a text is refused for its quotes,
its escapes or for want of a word exactly if it is not made of blanks and empty quotes. -/
theorem commandLine_roundTrip_iff (q : Quoted) (qs : List Quoted) (hq : q.text ≠ "")
    (text : String) :
    (splitCommandLine (commandLine (q :: qs)) = .ok ((q :: qs).map (·.text)) ↔
      ∀ r ∈ qs, r.text ≠ "") ∧
    (resolveCommandArgv (commandLine (q :: qs)) [] = resolveCommandArgv q.text (qs.map (·.text)) ↔
      (∀ r ∈ qs, r.text ≠ "") ∧ (qs = [] → Bare q.text)) ∧
    (RefusedRightly text ↔ ¬OnlyEmptyQuotes text) :=
  ⟨splitCommandLine_eq_ok_iff hq qs, resolveCommandArgv_commandLine_iff hq qs,
    refusedRightly_iff text⟩

/-- `web "my dir" it\'s`, in its three styles. -/
theorem commandLine_roundTrip_web :
    let argv : List Quoted := [⟨.escaped, "web", by decide⟩, ⟨.single, "my \"dir\"", by decide⟩,
      ⟨.double, "it's", by decide⟩]
    splitCommandLine (commandLine argv) = .ok ["web", "my \"dir\"", "it's"] := by
  intro argv
  exact (commandLine_roundTrip_iff _ _ (by decide) "").1.2 (by decide)

/-- An empty argument is lost, and a text of empty quotes is taken for no command at all. -/
theorem commandLine_drops_empty :
    (∃ argv : List Quoted, argv.map (·.text) = ["a", ""] ∧ commandLine argv = "\"a\" \"\"" ∧
      splitCommandLine (commandLine argv) = .ok ["a"]) ∧
    splitCommandLine "\"\"" = .error "Command line is empty" ∧ ¬RefusedRightly "\"\"" := by
  refine ⟨⟨[⟨.double, "a", by decide⟩, ⟨.double, "", by decide⟩], rfl, by decide, ?_⟩, rfl, ?_⟩
  · exact splitCommandLine_commandLine _ _
  rw [refusedRightly_iff, not_not]
  refine ⟨[['"', '"']], by decide, rfl, ?_⟩
  intro hblank
  have hquote := hblank '"' (by decide)
  exact absurd hquote (by decide)

end Quantra.Process
