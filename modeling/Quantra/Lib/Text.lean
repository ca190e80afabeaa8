import Mathlib.Algebra.Group.Nat.Defs
import Mathlib.Data.List.DropRight

/-! String operations of the Rust standard library, on the characters of a string. -/
namespace Text

/-- `char::is_whitespace`: the Unicode White_Space property. -/
def isWhitespace (c : Char) : Bool :=
  let n := c.toNat
  (0x9 ≤ n && n ≤ 0xd) || n == 0x20 || n == 0x85 || n == 0xa0 || n == 0x1680 ||
    (0x2000 ≤ n && n ≤ 0x200a) || n == 0x2028 || n == 0x2029 || n == 0x202f || n == 0x205f ||
    n == 0x3000

def dropWhileEnd (p : Char → Bool) (cs : List Char) : List Char :=
  (cs.reverse.dropWhile p).reverse

/-- `str::trim_matches`, and `str::trim` for white space. -/
def trimMatches (p : Char → Bool) (s : String) : String :=
  String.ofList (dropWhileEnd p (s.toList.dropWhile p))

def trim (s : String) : String := trimMatches isWhitespace s

/-- `str::trim_start_matches` for one character. -/
def trimStartMatches (c : Char) (s : String) : String :=
  String.ofList (s.toList.dropWhile (· == c))

/-- `str::strip_prefix`. -/
def dropLead (pre s : String) : Option String :=
  (pre.toList.isPrefixOf? s.toList).map String.ofList

/-- `CString::new` refuses a text with a NUL. -/
def isCString (s : String) : Bool := !s.toList.contains '\x00'

def asciiUpper (c : Char) : Char :=
  if 'a' ≤ c ∧ c ≤ 'z' then Char.ofNat (c.toNat - 32) else c

def asciiLower (c : Char) : Char :=
  if 'A' ≤ c ∧ c ≤ 'Z' then Char.ofNat (c.toNat + 32) else c

def toAsciiUppercase (s : String) : String := String.ofList (s.toList.map asciiUpper)

def toAsciiLowercase (s : String) : String := String.ofList (s.toList.map asciiLower)

/-- Cut a character list at every separator; `n` separators give `n + 1` pieces. -/
def splitChars (sep : Char) : List Char → List (List Char)
  | [] => [[]]
  | c :: cs =>
    if c = sep then [] :: splitChars sep cs
    else match splitChars sep cs with
      | piece :: pieces => (c :: piece) :: pieces
      | [] => [[c]]

/-- `str::split` at a character. -/
def split (sep : Char) (s : String) : List String :=
  (splitChars sep s.toList).map String.ofList

/-- `str::splitn`: at most `n` pieces, the last one uncut. -/
def splitn (n : ℕ) (sep : Char) (s : String) : List String :=
  let pieces := split sep s
  if pieces.length ≤ n then pieces
  else pieces.take (n - 1) ++ [(String.singleton sep).intercalate (pieces.drop (n - 1))]

/-- `str::split_once` at a character. -/
def splitOnce (sep : Char) (s : String) : Option (String × String) :=
  let cs := s.toList
  match cs.dropWhile (· ≠ sep) with
  | [] => none
  | _ :: rest => some (String.ofList (cs.takeWhile (· ≠ sep)), String.ofList rest)

def dropCarriageReturn (cs : List Char) : List Char :=
  if cs.getLast? = some '\r' then cs.dropLast else cs

/-- `str::lines`: the pieces that a line feed ends, without a `\r` before it, and what is left. -/
def lines (s : String) : List String :=
  let pieces := splitChars '\n' s.toList
  pieces.dropLast.map (fun cs => String.ofList (dropCarriageReturn cs)) ++
    (pieces.getLast?.filter (· ≠ [])).toList.map String.ofList

def digitsToNat (cs : List Char) : Option ℕ :=
  if cs ≠ [] ∧ cs.all Char.isDigit then
    some (cs.foldl (fun n c => 10 * n + (c.toNat - '0'.toNat)) 0)
  else none

/-- `str::parse` into an unsigned integer below `bound`: digits with an optional `+`. -/
def parseUnsigned (bound : ℕ) (s : String) : Option ℕ :=
  let cs := match s.toList with
    | '+' :: rest => rest
    | cs => cs
  (digitsToNat cs).filter (· < bound)

def parseU32 (s : String) : Option ℕ := parseUnsigned (2 ^ 32) s

/-- A number has only digits, and perhaps a plus. -/
theorem chars_of_parseUnsigned {bound : ℕ} {s : String} (h : (parseUnsigned bound s).isSome) :
    ∀ c ∈ s.toList, c = '+' ∨ c.isDigit := by
  have hdigits : ∀ {cs : List Char}, ((digitsToNat cs).filter (· < bound)).isSome →
      ∀ c ∈ cs, c.isDigit := by
    intro cs hcs
    unfold digitsToNat at hcs
    split at hcs
    · rename_i hall
      exact List.all_eq_true.1 hall.2
    · cases hcs
  unfold parseUnsigned at h
  dsimp only at h
  split at h
  · rename_i rest heq
    rw [heq]
    intro c hc
    obtain rfl | hmem := List.mem_cons.1 hc
    · exact .inl rfl
    · exact .inr (hdigits h c hmem)
  · exact fun c hc => .inr (hdigits h c hc)

/-! Cutting and parsing text that was put together. -/

/-- Checking a text letter by letter, where the type of letters itself could be searched. -/
theorem forall_mem_of_all {p : Char → Prop} [DecidablePred p] {cs : List Char}
    (h : (cs.all fun c => decide (p c)) = true) : ∀ c ∈ cs, p c :=
  fun c hc => of_decide_eq_true (List.all_eq_true.1 h c hc)

/-- What is read piece by piece is read in each of its pieces. -/
theorem exists_of_mapM {α β : Type} {f : α → Option β} {as : List α} {bs : List β}
    (h : as.mapM f = some bs) : ∀ a ∈ as, ∃ b, f a = some b := by
  induction as generalizing bs with
  | nil => exact fun a ha => absurd ha List.not_mem_nil
  | cons a as ih =>
    rw [List.mapM_cons] at h
    obtain ⟨b, hb, hrest⟩ := Option.bind_eq_some_iff.1 h
    obtain ⟨bs', hbs, -⟩ := Option.bind_eq_some_iff.1 hrest
    intro a' ha'
    obtain rfl | ha' := List.mem_cons.1 ha'
    · exact ⟨b, hb⟩
    · exact ih hbs a' ha'

theorem splitChars_append {sep : Char} {cs : List Char} (h : sep ∉ cs) (ds : List Char) :
    splitChars sep (cs ++ sep :: ds) = cs :: splitChars sep ds := by
  induction cs with
  | nil => simp [splitChars]
  | cons c cs ih =>
    have hc : c ≠ sep := fun hc => h (by simp [hc])
    have hcs := ih fun hmem => h (List.mem_cons_of_mem c hmem)
    simp [splitChars, hc, hcs]

theorem splitChars_of_not_mem {sep : Char} {cs : List Char} (h : sep ∉ cs) :
    splitChars sep cs = [cs] := by
  induction cs with
  | nil => rfl
  | cons c cs ih =>
    rw [List.mem_cons, not_or] at h
    unfold splitChars
    rw [if_neg (Ne.symm h.1), ih h.2]

theorem splitChars_terminated {sep : Char} {pieces : List (List Char)}
    (h : ∀ cs ∈ pieces, sep ∉ cs) :
    splitChars sep (pieces.flatMap (· ++ [sep])) = pieces ++ [[]] := by
  induction pieces with
  | nil => rfl
  | cons cs pieces ih =>
    have hcs := h cs List.mem_cons_self
    have hrest := ih fun ds hds => h ds (List.mem_cons_of_mem cs hds)
    simp [splitChars_append hcs, hrest]

/-- Lines that are each ended by a line feed come back, but for a `\r` at their end. -/
theorem lines_of_newlines {ls : List (List Char)} (h : ∀ cs ∈ ls, '\n' ∉ cs) :
    lines (String.ofList (ls.flatMap (· ++ ['\n']))) =
      ls.map fun cs => String.ofList (dropCarriageReturn cs) := by
  have hleft : ((ls ++ [[]]).getLast?.filter (· ≠ [])).toList.map String.ofList = [] := by
    rw [List.getLast?_concat]
    rfl
  rw [lines, String.toList_ofList, splitChars_terminated h, List.dropLast_concat, hleft,
    List.append_nil]

theorem lines_terminated {ls : List (List Char)}
    (h : ∀ cs ∈ ls, '\n' ∉ cs ∧ cs.getLast? ≠ some '\r') :
    lines (String.ofList (ls.flatMap (· ++ ['\n']))) = ls.map String.ofList := by
  rw [lines_of_newlines fun cs hcs => (h cs hcs).1]
  refine List.map_congr_left fun cs hcs => ?_
  rw [dropCarriageReturn, if_neg (h cs hcs).2]

theorem digitsToNat_toDigits (n : ℕ) : digitsToNat (Nat.toDigits 10 n) = some n := by
  have hne : Nat.toDigits 10 n ≠ [] := Nat.toDigits_ne_nil
  have hall : (Nat.toDigits 10 n).all Char.isDigit := by
    rw [List.all_eq_true]
    exact fun c hc => Nat.isDigit_of_mem_toDigits (by decide) (by decide) hc
  rw [digitsToNat, if_pos ⟨hne, hall⟩, ← Nat.ofDigitChars_eq_foldl, Nat.ofDigitChars_ten_toDigits]

theorem parseUnsigned_toDigits {bound n : ℕ} (h : n < bound) :
    parseUnsigned bound (String.ofList (Nat.toDigits 10 n)) = some n := by
  have hplus : '+' ∉ Nat.toDigits 10 n := fun hmem => by
    have hdigit := Nat.isDigit_of_mem_toDigits (by decide) (by decide) hmem
    cases hdigit
  simp only [parseUnsigned, String.toList_ofList]
  split
  · rename_i rest heq
    rw [heq] at hplus
    exact absurd List.mem_cons_self hplus
  · simp only [digitsToNat_toDigits, Option.filter_some, decide_eq_true h, if_true]

theorem parseU32_toDigits {n : ℕ} (h : n < 2 ^ 32) :
    parseU32 (String.ofList (Nat.toDigits 10 n)) = some n :=
  parseUnsigned_toDigits h

theorem splitChars_ne_nil (sep : Char) (cs : List Char) : splitChars sep cs ≠ [] := by
  cases cs with
  | nil => exact List.cons_ne_nil _ _
  | cons c cs =>
    unfold splitChars
    split
    · exact List.cons_ne_nil _ _
    · split
      · exact List.cons_ne_nil _ _
      · exact List.cons_ne_nil _ _

/-- The first line and the others. -/
theorem lines_cons {line rest : List Char} (h : '\n' ∉ line) :
    lines (String.ofList (line ++ '\n' :: rest)) =
      String.ofList (dropCarriageReturn line) :: lines (String.ofList rest) := by
  have hne := splitChars_ne_nil '\n' rest
  have hlast : (line :: splitChars '\n' rest).getLast? = (splitChars '\n' rest).getLast? := by
    rw [List.getLast?_cons_of_ne_nil hne]
  rw [lines, lines, String.toList_ofList, String.toList_ofList, splitChars_append h,
    List.dropLast_cons_of_ne_nil hne, hlast, List.map_cons, List.cons_append]

theorem not_mem_of_mem_splitChars {sep : Char} {piece cs : List Char}
    (h : piece ∈ splitChars sep cs) : sep ∉ piece := by
  induction cs generalizing piece with
  | nil =>
    rw [List.mem_singleton.1 h]
    exact List.not_mem_nil
  | cons c cs ih =>
    unfold splitChars at h
    split at h
    · obtain rfl | h := List.mem_cons.1 h
      · exact List.not_mem_nil
      · exact ih h
    · rename_i hc
      split at h
      · rename_i first pieces hsplit
        rw [hsplit] at ih
        obtain rfl | h := List.mem_cons.1 h
        · rw [List.mem_cons, not_or]
          exact ⟨Ne.symm hc, ih List.mem_cons_self⟩
        · exact ih (List.mem_cons_of_mem _ h)
      · rw [List.mem_singleton.1 h, List.mem_singleton]
        exact Ne.symm hc

theorem mem_of_mem_dropCarriageReturn {c : Char} {cs : List Char}
    (h : c ∈ dropCarriageReturn cs) : c ∈ cs := by
  unfold dropCarriageReturn at h
  split at h
  · exact List.dropLast_subset cs h
  · exact h

theorem newline_not_mem_of_mem_lines {s l : String} (h : l ∈ lines s) : '\n' ∉ l.toList := by
  obtain h | h := List.mem_append.1 h
  · obtain ⟨cs, hcs, rfl⟩ := List.mem_map.1 h
    rw [String.toList_ofList]
    exact fun hmem => not_mem_of_mem_splitChars (List.dropLast_subset _ hcs)
      (mem_of_mem_dropCarriageReturn hmem)
  · obtain ⟨cs, hcs, rfl⟩ := List.mem_map.1 h
    have hlast := (Option.filter_eq_some_iff.1 (Option.mem_toList.1 hcs)).1
    rw [String.toList_ofList]
    exact not_mem_of_mem_splitChars (List.mem_of_getLast? hlast)

/-- A line alone. -/
theorem lines_single {line : List Char} (h : '\n' ∉ line) :
    lines (String.ofList (line ++ ['\n'])) = [String.ofList (dropCarriageReturn line)] := by
  rw [lines_cons h]
  rfl

theorem dropCarriageReturn_prefix (cs : List Char) : dropCarriageReturn cs <+: cs := by
  unfold dropCarriageReturn
  split
  · exact List.dropLast_prefix cs
  · exact List.prefix_rfl

theorem dropCarriageReturn_eq_self_iff {cs : List Char} :
    dropCarriageReturn cs = cs ↔ cs.getLast? ≠ some '\r' := by
  unfold dropCarriageReturn
  split
  · rename_i hlast
    refine iff_of_false (fun h => ?_) (fun h => h hlast)
    have hlen : cs.dropLast.length = cs.length := congrArg List.length h
    rw [List.length_dropLast] at hlen
    cases cs with
    | nil => cases hlast
    | cons c cs =>
      rw [List.length_cons] at hlen
      omega
  · rename_i hlast
    exact iff_of_true rfl hlast

theorem dropCarriageReturn_append {pre : List Char} (h : pre.getLast? ≠ some '\r')
    (cs : List Char) : dropCarriageReturn (pre ++ cs) = pre ++ dropCarriageReturn cs := by
  cases hcs : cs with
  | nil =>
    rw [List.append_nil, dropCarriageReturn_eq_self_iff.2 h]
    exact (List.append_nil pre).symm
  | cons c ds =>
    have hlast : (pre ++ c :: ds).getLast? = (c :: ds).getLast? :=
      List.getLast?_append_of_ne_nil pre (List.cons_ne_nil c ds)
    unfold dropCarriageReturn
    rw [hlast]
    split
    · exact List.dropLast_append_of_ne_nil (List.cons_ne_nil c ds)
    · rfl

theorem isPrefixOf?_append (pre cs : List Char) : pre.isPrefixOf? (pre ++ cs) = some cs := by
  induction pre with
  | nil => rfl
  | cons c pre ih => simp only [List.cons_append, List.isPrefixOf?, BEq.rfl, if_true, ih]

theorem append_of_isPrefixOf? {pre cs ds : List Char} (h : pre.isPrefixOf? cs = some ds) :
    cs = pre ++ ds := by
  induction pre generalizing cs with
  | nil => exact Option.some.inj h
  | cons c pre ih =>
    cases cs with
    | nil => cases h
    | cons d cs =>
      unfold List.isPrefixOf? at h
      split at h
      · rename_i hcd
        rw [eq_of_beq hcd, ih h, List.cons_append]
      · cases h

theorem dropLead_append (pre : String) (cs : List Char) :
    dropLead pre (String.ofList (pre.toList ++ cs)) = some (String.ofList cs) := by
  rw [dropLead, String.toList_ofList, isPrefixOf?_append, Option.map_some]

theorem toList_of_dropLead {pre s rest : String} (h : dropLead pre s = some rest) :
    s.toList = pre.toList ++ rest.toList := by
  obtain ⟨cs, hcs, rfl⟩ := Option.map_eq_some_iff.1 h
  rw [String.toList_ofList]
  exact append_of_isPrefixOf? hcs

theorem splitOnce_append {sep : Char} {cs : List Char} (h : sep ∉ cs) (ds : List Char) :
    splitOnce sep (String.ofList (cs ++ sep :: ds)) =
      some (String.ofList cs, String.ofList ds) := by
  have hcs : ∀ c ∈ cs, (c ≠ sep : Bool) = true := by
    intro c hc
    exact decide_eq_true fun heq => h (heq ▸ hc)
  have hdrop : (sep :: ds).dropWhile (· ≠ sep) = sep :: ds := by simp
  have htake : (sep :: ds).takeWhile (· ≠ sep) = [] := by simp
  rw [splitOnce, String.toList_ofList, List.dropWhile_append_of_pos hcs,
    List.takeWhile_append_of_pos hcs, hdrop, htake, List.append_nil]

/-- The pieces with the separator between them are the text. -/
theorem intercalate_splitChars (sep : Char) (cs : List Char) :
    [sep].intercalate (splitChars sep cs) = cs := by
  induction cs with
  | nil => rfl
  | cons c cs ih =>
    unfold splitChars
    split
    · rename_i hc
      rw [List.intercalate_cons_of_ne_nil (splitChars_ne_nil sep cs), ih, hc]
      rfl
    · split
      · rename_i piece pieces hsplit
        rw [List.intercalate_cons_cons_left, ← hsplit, ih]
      · rename_i hsplit
        exact absurd hsplit (splitChars_ne_nil sep cs)

theorem intercalate_split (sep : Char) (s : String) :
    (String.singleton sep).intercalate (split sep s) = s := by
  have hmap : (split sep s).map String.toList = splitChars sep s.toList := by
    simp [split, Function.comp_def]
  rw [← String.toList_inj, String.toList_intercalate, hmap, String.toList_singleton]
  exact intercalate_splitChars sep s.toList

theorem intercalate_concat {sep : String} {pieces rest : List String} (h : rest ≠ []) :
    sep.intercalate (pieces ++ [sep.intercalate rest]) = sep.intercalate (pieces ++ rest) := by
  induction pieces with
  | nil => simp
  | cons piece pieces ih =>
    have hcons : ∀ ps : List String, ps ≠ [] →
        sep.intercalate (piece :: ps) = piece ++ sep ++ sep.intercalate ps := by
      intro ps hps
      obtain ⟨q, qs, rfl⟩ := List.exists_cons_of_ne_nil hps
      exact String.intercalate_cons_cons
    rw [List.cons_append, List.cons_append, hcons _ (by simp), hcons _ (by simp [h]), ih]

theorem intercalate_splitn {n : ℕ} (hn : 0 < n) (sep : Char) (s : String) :
    (String.singleton sep).intercalate (splitn n sep s) = s := by
  unfold splitn
  dsimp only
  split
  · exact intercalate_split sep s
  · rename_i hlen
    have hrest : (split sep s).drop (n - 1) ≠ [] := by
      rw [Ne, List.drop_eq_nil_iff]
      omega
    rw [intercalate_concat hrest, List.take_append_drop, intercalate_split]

theorem splitChars_intercalate {sep : Char} {pieces : List (List Char)} (hne : pieces ≠ [])
    (h : ∀ cs ∈ pieces, sep ∉ cs) : splitChars sep ([sep].intercalate pieces) = pieces := by
  induction pieces with
  | nil => exact absurd rfl hne
  | cons cs pieces ih =>
    have hcs : sep ∉ cs := h cs List.mem_cons_self
    cases pieces with
    | nil => rw [List.intercalate_singleton, splitChars_of_not_mem hcs]
    | cons ds pieces =>
      have hrest := ih (List.cons_ne_nil _ _) fun es hes => h es (List.mem_cons_of_mem cs hes)
      rw [List.intercalate_cons_cons, List.append_assoc, List.singleton_append,
        splitChars_append hcs, hrest]

theorem mem_intercalate {sep c : Char} {pieces : List (List Char)}
    (h : c ∈ [sep].intercalate pieces) : c = sep ∨ ∃ cs ∈ pieces, c ∈ cs := by
  induction pieces with
  | nil => cases h
  | cons cs pieces ih =>
    cases pieces with
    | nil =>
      rw [List.intercalate_singleton] at h
      exact .inr ⟨cs, List.mem_cons_self, h⟩
    | cons ds pieces =>
      rw [List.intercalate_cons_cons, List.mem_append, List.mem_append, List.mem_singleton] at h
      obtain (hcs | hsep) | hrest := h
      · exact .inr ⟨cs, List.mem_cons_self, hcs⟩
      · exact .inl hsep
      · obtain hsep | ⟨es, hes, hc⟩ := ih hrest
        · exact .inl hsep
        · exact .inr ⟨es, List.mem_cons_of_mem cs hes, hc⟩

/-- Pieces without the separator come back, where there are no more than `n` of them. -/
theorem splitn_intercalate {n : ℕ} {sep : Char} {pieces : List String} (hne : pieces ≠ [])
    (hn : pieces.length ≤ n) (h : ∀ p ∈ pieces, sep ∉ p.toList) :
    splitn n sep ((String.singleton sep).intercalate pieces) = pieces := by
  have hsplit : split sep ((String.singleton sep).intercalate pieces) = pieces := by
    unfold split
    rw [String.toList_intercalate, String.toList_singleton, splitChars_intercalate]
    · simp [Function.comp_def]
    · simpa using hne
    · simpa using h
  unfold splitn
  rw [hsplit, if_pos hn]

theorem dropWhile_of_forall {p : Char → Bool} {cs : List Char} (h : ∀ c ∈ cs, p c = false) :
    cs.dropWhile p = cs := by
  cases cs with
  | nil => rfl
  | cons c cs => rw [List.dropWhile_cons_of_neg (by simp [h c List.mem_cons_self])]

theorem trim_of_forall {s : String} (h : ∀ c ∈ s.toList, isWhitespace c = false) :
    trim s = s := by
  unfold trim trimMatches dropWhileEnd
  rw [dropWhile_of_forall h, dropWhile_of_forall fun c hc => h c (List.mem_reverse.1 hc),
    List.reverse_reverse, String.ofList_toList]

/-- One character at the end is dropped, and nothing before it. -/
theorem dropWhileEnd_concat {p : Char → Bool} {cs : List Char} {c : Char} (hc : p c = true)
    (hcs : ∀ d ∈ cs, p d = false) : dropWhileEnd p (cs ++ [c]) = cs := by
  have hkeep : cs.reverse.dropWhile p = cs.reverse :=
    dropWhile_of_forall fun d hd => hcs d (List.mem_reverse.1 hd)
  unfold dropWhileEnd
  rw [List.reverse_append, List.reverse_singleton, List.singleton_append,
    List.dropWhile_cons_of_pos hc, hkeep, List.reverse_reverse]

/-! Trimming what has something to trim at its ends. -/

section Trim
variable {p : Char → Bool} {c : Char} {cs : List Char}

theorem trimMatches_cons (h : p c) :
    trimMatches p (String.ofList (c :: cs)) = trimMatches p (String.ofList cs) := by
  rw [trimMatches, trimMatches, String.toList_ofList, String.toList_ofList,
    List.dropWhile_cons_of_pos h]

theorem trimMatches_concat (h : p c) :
    trimMatches p (String.ofList (cs ++ [c])) = trimMatches p (String.ofList cs) := by
  rw [trimMatches, trimMatches, String.toList_ofList, String.toList_ofList, List.dropWhile_append]
  split
  · rename_i hempty
    rw [List.isEmpty_iff.1 hempty, List.dropWhile_cons_of_pos h]
    rfl
  · exact congrArg String.ofList (List.rdropWhile_concat_pos p _ c h)

theorem dropWhileEnd_cons (h : ¬p c) : dropWhileEnd p (c :: cs) = c :: dropWhileEnd p cs := by
  rw [dropWhileEnd, dropWhileEnd, List.reverse_cons, List.dropWhile_append]
  split
  · rename_i hempty
    rw [List.isEmpty_iff.1 hempty, List.dropWhile_cons_of_neg h]
    rfl
  · rw [List.reverse_append]
    rfl

/-- What stands before something that stays is not looked at. -/
theorem dropWhileEnd_append (h : ¬p c) (ds : List Char) :
    dropWhileEnd p (ds ++ c :: cs) = ds ++ c :: dropWhileEnd p cs := by
  rw [dropWhileEnd, dropWhileEnd, List.reverse_append, List.reverse_cons, List.append_assoc,
    List.singleton_append, List.dropWhile_append]
  split
  · rename_i hempty
    rw [List.isEmpty_iff.1 hempty, List.dropWhile_cons_of_neg h, List.reverse_cons,
      List.reverse_reverse]
    rfl
  · rw [List.reverse_append, List.reverse_cons, List.reverse_reverse, List.append_assoc]
    rfl

theorem trimMatches_sublist (p : Char → Bool) (s : String) :
    (trimMatches p s).toList.Sublist s.toList := by
  rw [trimMatches, String.toList_ofList]
  exact (List.rdropWhile_prefix p _).sublist.trans (List.dropWhile_sublist p)

/-- What has nothing to trim does not end in what would be trimmed. -/
theorem not_getLast?_of_trimMatches {s : String} (h : trimMatches p s = s) (hc : p c) :
    s.toList.getLast? ≠ some c := by
  intro hlast
  obtain ⟨cs, hcs⟩ := List.getLast?_eq_some_iff.1 hlast
  have hsub := trimMatches_sublist p (String.ofList cs)
  rw [← trimMatches_concat hc, ← hcs, String.ofList_toList, h, hcs, String.toList_ofList] at hsub
  have hlen := hsub.length_le
  rw [List.length_append, List.length_singleton] at hlen
  omega

/-- What is left has nothing to trim. -/
theorem trimMatches_trimMatches (s : String) : trimMatches p (trimMatches p s) = trimMatches p s := by
  have hrest : ∀ cs : List Char, (∀ c ∈ cs.head?, ¬p c) →
      dropWhileEnd p ((dropWhileEnd p cs).dropWhile p) = dropWhileEnd p cs := by
    intro cs hcs
    cases cs with
    | nil => rfl
    | cons c cs =>
      have hc : ¬p c := hcs c rfl
      rw [dropWhileEnd_cons hc, List.dropWhile_cons_of_neg hc, dropWhileEnd_cons hc]
      exact congrArg _ (List.rdropWhile_idempotent p cs)
  unfold trimMatches
  rw [String.toList_ofList]
  refine congrArg String.ofList (hrest _ fun c hc => ?_)
  have hhead := List.head?_dropWhile_not p s.toList
  rw [Option.mem_def.1 hc] at hhead
  exact Bool.eq_false_iff.1 (by simpa using hhead)

end Trim

theorem isWhitespace_of_isDigit {c : Char} (h : c.isDigit) : isWhitespace c = false := by
  have hrange : 48 ≤ c.toNat ∧ c.toNat ≤ 57 := by
    unfold Char.isDigit at h
    rw [Bool.and_eq_true, decide_eq_true_eq, decide_eq_true_eq] at h
    exact ⟨h.1, h.2⟩
  simp only [isWhitespace, Bool.or_eq_false_iff, Bool.and_eq_false_iff, decide_eq_false_iff_not,
    beq_eq_false_iff_ne]
  omega

example : lines "a\r\n\nb\r" = ["a", "", "b\r"] := by decide

example : splitn 2 '=' "a=b=c" = ["a", "b=c"] := by decide

end Text
