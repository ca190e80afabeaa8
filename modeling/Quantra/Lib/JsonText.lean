import Quantra.Lib.Json
import Quantra.Lib.Text

/-! JSON texts of flat objects: members whose values are strings or whole numbers. A text with any
other member is not read, so that what is read has just these. -/
namespace Json

def isSpace (c : Char) : Bool := c == ' ' || c == '\t' || c == '\n' || c == '\r'

/-- The text behind `c`, if it starts with it. -/
def next (c : Char) : List Char → Option (List Char)
  | [] => none
  | d :: cs => if d = c then some cs else none

def token (c : Char) (cs : List Char) : Option (List Char) := next c (cs.dropWhile isSpace)

/-! Strings. -/

def hexValue (c : Char) : Option ℕ :=
  if c.isDigit then some (c.toNat - '0'.toNat)
  else if 'a' ≤ c ∧ c ≤ 'f' then some (c.toNat - 'a'.toNat + 10)
  else if 'A' ≤ c ∧ c ≤ 'F' then some (c.toNat - 'A'.toNat + 10)
  else none

def hex4 : List Char → Option (ℕ × List Char)
  | a :: b :: c :: d :: cs =>
    ([a, b, c, d].mapM hexValue).map fun ds => (ds.foldl (fun n d => 16 * n + d) 0, cs)
  | _ => none

/-- What follows `\u`; a surrogate stands only in a pair. -/
def unicode (cs : List Char) : Option (Char × List Char) :=
  (hex4 cs).bind fun p =>
    if 0xD800 ≤ p.1 ∧ p.1 < 0xDC00 then
      ((next '\\' p.2).bind (next 'u')).bind fun cs => (hex4 cs).bind fun q =>
        if 0xDC00 ≤ q.1 ∧ q.1 < 0xE000 then
          some (Char.ofNat (0x10000 + (p.1 - 0xD800) * 0x400 + (q.1 - 0xDC00)), q.2)
        else none
    else if 0xDC00 ≤ p.1 ∧ p.1 < 0xE000 then none
    else some (Char.ofNat p.1, p.2)

def escapes : List (Char × Char) :=
  [('"', '"'), ('\\', '\\'), ('/', '/'), ('b', '\x08'), ('f', '\x0c'), ('n', '\n'), ('r', '\r'),
    ('t', '\t')]

/-- What follows a backslash. -/
def escaped : List Char → Option (Char × List Char)
  | [] => none
  | c :: cs => if c = 'u' then unicode cs else (escapes.lookup c).map fun d => (d, cs)

/-- What follows an opening quote, up to the closing one and behind it. Each turn takes at least one
character. -/
def string : ℕ → List Char → Option (List Char × List Char)
  | 0, _ | _, [] => none
  | n + 1, c :: cs =>
    if c = '"' then some ([], cs)
    else if c = '\\' then
      (escaped cs).bind fun p => (string n p.2).map fun q => (p.1 :: q.1, q.2)
    else if c.toNat < 0x20 then none
    else (string n cs).map fun q => (c :: q.1, q.2)

/-! Numbers, members and objects. -/

/-- The digits are those that the number is written with: no zero goes before another. -/
def number (cs : List Char) : Option (ℕ × List Char) :=
  (Text.digitsToNat (cs.takeWhile Char.isDigit)).bind fun n =>
    if Nat.toDigits 10 n = cs.takeWhile Char.isDigit then some (n, cs.dropWhile Char.isDigit)
    else none

def value (cs : List Char) : Option (Json × List Char) :=
  match token '"' cs with
  | some cs => (string cs.length cs).map fun p => (str (String.ofList p.1), p.2)
  | none =>
    match token '-' cs with
    | some cs => (number cs).map fun p => (ofInt (-p.1), p.2)
    | none => (number (cs.dropWhile isSpace)).map fun p => (uint p.1, p.2)

def member (cs : List Char) : Option ((String × Json) × List Char) :=
  (token '"' cs).bind fun cs => (string cs.length cs).bind fun p =>
    (token ':' p.2).bind fun cs => (value cs).map fun q => ((String.ofList p.1, q.1), q.2)

def members : ℕ → List Char → Option (List (String × Json) × List Char)
  | 0, _ => none
  | n + 1, cs => (member cs).bind fun p =>
    match token ',' p.2 with
    | some cs => (members n cs).map fun q => (p.1 :: q.1, q.2)
    | none => (token '\x7d' p.2).map fun cs => ([p.1], cs)

def object (cs : List Char) : Option (List (String × Json) × List Char) :=
  (token '\x7b' cs).bind fun cs =>
    match token '\x7d' cs with
    | some cs => some ([], cs)
    | none => members cs.length cs

/-- The text of one object, with nothing behind it. -/
def parseFlat (s : String) : Option Json :=
  (object s.toList).bind fun p => if p.2.all isSpace then some (obj p.1) else none

example : (parseFlat "\x7b \"a\" : \"x\\n\\u0041\" , \"b\":-12\x7d").bind
    (fun j => j.field "a" asStr) = some "x\nA" := by decide

/-- A whole number as it is written. -/
def decimal : ℤ → List Char
  | .ofNat n => Nat.toDigits 10 n
  | .negSucc n => '-' :: Nat.toDigits 10 (n + 1)

/-- Characters that a string has as they are. -/
def Plain (cs : List Char) : Prop := ∀ c ∈ cs, c ≠ '"' ∧ c ≠ '\\' ∧ 0x20 ≤ c.toNat

instance (cs : List Char) : Decidable (Plain cs) := inferInstanceAs (Decidable (∀ c ∈ cs, _))

theorem plain_cons {c : Char} {cs : List Char} :
    Plain (c :: cs) ↔ (c ≠ '"' ∧ c ≠ '\\' ∧ 0x20 ≤ c.toNat) ∧ Plain cs := List.forall_mem_cons

section Tokens
variable {c d : Char} {cs : List Char}

theorem token_self (hc : isSpace c = false) : token c (c :: cs) = some cs := by
  unfold token
  rw [List.dropWhile_cons_of_neg (by simp [hc])]
  exact if_pos rfl

theorem token_ne (hd : isSpace d = false) (h : d ≠ c) : token c (d :: cs) = none := by
  unfold token
  rw [List.dropWhile_cons_of_neg (by simp [hd])]
  exact if_neg h

theorem eq_of_next {rest : List Char} (h : next c cs = some rest) : cs = c :: rest := by
  cases cs with
  | nil => cases h
  | cons d cs =>
    rw [next] at h
    split at h
    · rename_i hd
      rw [Option.some.injEq] at h
      rw [hd, h]
    · cases h

end Tokens

/-! One turn through a string. -/

section Turns
variable {n : ℕ} {c d : Char} {cs : List Char}

theorem string_cons : string (n + 1) (c :: cs) =
    if c = '"' then some ([], cs)
    else if c = '\\' then
      (escaped cs).bind fun p => (string n p.2).map fun q => (p.1 :: q.1, q.2)
    else if c.toNat < 0x20 then none
    else (string n cs).map fun q => (c :: q.1, q.2) := rfl

theorem escaped_cons : escaped (c :: cs) =
    if c = 'u' then unicode cs else (escapes.lookup c).map fun d => (d, cs) := rfl

theorem string_quote : string (n + 1) ('"' :: cs) = some ([], cs) := if_pos rfl

theorem string_plain_cons (hquote : c ≠ '"') (hslash : c ≠ '\\') (hlow : 0x20 ≤ c.toNat) :
    string (n + 1) (c :: cs) = (string n cs).map fun q => (c :: q.1, q.2) := by
  rw [string_cons, if_neg hquote, if_neg hslash, if_neg (Nat.not_lt_of_le hlow)]

theorem string_escape_cons (hu : c ≠ 'u') (hc : escapes.lookup c = some d) :
    string (n + 1) ('\\' :: c :: cs) = (string n cs).map fun q => (d :: q.1, q.2) := by
  rw [string_cons, if_neg (by decide), if_pos rfl, escaped_cons, if_neg hu, hc]
  rfl

theorem string_control (hquote : c ≠ '"') (hslash : c ≠ '\\') (hlow : c.toNat < 0x20) :
    string (n + 1) (c :: cs) = none := by
  rw [string_cons, if_neg hquote, if_neg hslash, if_pos hlow]

theorem string_plain {v rest : List Char} (hv : Plain v) (hn : v.length < n) :
    string n (v ++ '"' :: rest) = some (v, rest) := by
  induction v generalizing n with
  | nil =>
    obtain ⟨m, rfl⟩ := Nat.exists_eq_succ_of_ne_zero (Nat.ne_of_gt hn)
    exact string_quote
  | cons c v ih =>
    obtain ⟨m, rfl⟩ := Nat.exists_eq_succ_of_ne_zero (Nat.ne_of_gt (Nat.zero_lt_of_lt hn))
    obtain ⟨⟨hquote, hslash, hlow⟩, hrest⟩ := plain_cons.1 hv
    rw [List.cons_append, string_plain_cons hquote hslash hlow,
      ih hrest (Nat.lt_of_succ_lt_succ hn)]
    rfl

end Turns

/-! What a string is read from. -/

theorem not_quote_of_hexValue {c : Char} {n : ℕ} (h : hexValue c = some n) : c ≠ '"' := by
  intro hc
  rw [hc] at h
  cases h

theorem hex4_used {cs rest : List Char} {n : ℕ} (h : hex4 cs = some (n, rest)) :
    ∃ used, cs = used ++ rest ∧ '"' ∉ used := by
  match cs, h with
  | a :: b :: c :: d :: cs, h =>
    rw [hex4] at h
    obtain ⟨ds, hds, heq⟩ := Option.map_eq_some_iff.1 h
    rw [Prod.mk.injEq] at heq
    refine ⟨[a, b, c, d], by rw [← heq.2]; rfl, fun hquote => ?_⟩
    obtain ⟨n, hn⟩ := Text.exists_of_mapM hds '"' hquote
    exact not_quote_of_hexValue hn rfl

theorem unicode_used {cs rest : List Char} {d : Char} (h : unicode cs = some (d, rest)) :
    ∃ used, cs = used ++ rest ∧ '"' ∉ used := by
  obtain ⟨p, hp, h⟩ := Option.bind_eq_some_iff.1 h
  obtain ⟨used, hcs, hquote⟩ := hex4_used hp
  split_ifs at h
  · obtain ⟨behind, hslash, h⟩ := Option.bind_eq_some_iff.1 h
    obtain ⟨q, hq, h⟩ := Option.bind_eq_some_iff.1 h
    obtain ⟨mid, hmid, hu⟩ := Option.bind_eq_some_iff.1 hslash
    obtain ⟨low, hbehind, hlow⟩ := hex4_used hq
    split_ifs at h
    rw [Option.some.injEq, Prod.mk.injEq] at h
    refine ⟨used ++ '\\' :: 'u' :: low, ?_, ?_⟩
    · rw [hcs, eq_of_next hmid, eq_of_next hu, hbehind, h.2]
      simp
    · simp [hquote, hlow]
  · rw [Option.some.injEq, Prod.mk.injEq] at h
    exact ⟨used, by rw [hcs, h.2], hquote⟩

/-- An escape takes a character, and a quote only as its first. -/
theorem escaped_used {cs rest : List Char} {d : Char} (h : escaped cs = some (d, rest)) :
    ∃ c used, cs = c :: (used ++ rest) ∧ '"' ∉ used := by
  cases cs with
  | nil => cases h
  | cons c cs =>
    rw [escaped_cons] at h
    split at h
    · obtain ⟨used, hcs, hquote⟩ := unicode_used h
      exact ⟨c, used, by rw [hcs], hquote⟩
    · obtain ⟨e, -, he⟩ := Option.map_eq_some_iff.1 h
      rw [Prod.mk.injEq] at he
      exact ⟨c, [], by rw [he.2]; rfl, List.not_mem_nil⟩

/-- The literal of a string: it is at least as long as its content, it is its content where it is as
long, and every quote in it stands behind a backslash. -/
structure Literal (lit v : List Char) : Prop where
  length_le : v.length ≤ lit.length
  plain : v.length = lit.length → lit = v ∧ Plain v
  quoted : ∀ a b, lit = a ++ '"' :: b → a.getLast? = some '\\'

theorem literal_nil : Literal [] [] where
  length_le := Nat.le_refl 0
  plain _ := ⟨rfl, fun _ hc => absurd hc List.not_mem_nil⟩
  quoted a b h := by simp at h

theorem Literal.cons {c : Char} {lit v : List Char} (h : Literal lit v) (hquote : c ≠ '"')
    (hslash : c ≠ '\\') (hlow : 0x20 ≤ c.toNat) : Literal (c :: lit) (c :: v) where
  length_le := Nat.succ_le_succ h.length_le
  plain hlen := by
    obtain ⟨heq, hplain⟩ := h.plain (Nat.succ_inj.1 hlen)
    exact ⟨by rw [heq], plain_cons.2 ⟨⟨hquote, hslash, hlow⟩, hplain⟩⟩
  quoted a b heq := by
    cases a with
    | nil => exact absurd (List.cons.inj heq).1 hquote
    | cons c' a =>
      have hlast := h.quoted a b (List.cons.inj heq).2
      rw [List.getLast?_cons, hlast]
      rfl

theorem Literal.escape {c d : Char} {used lit v : List Char} (h : Literal lit v)
    (hused : '"' ∉ used) : Literal ('\\' :: c :: (used ++ lit)) (d :: v) where
  length_le := by
    have hle := h.length_le
    simp only [List.length_cons, List.length_append]
    omega
  plain hlen := by
    have hle := h.length_le
    simp only [List.length_cons, List.length_append] at hlen
    omega
  quoted a b heq := by
    cases a with
    | nil => exact absurd (List.cons.inj heq).1 (by decide)
    | cons s a =>
      obtain ⟨hs, htail⟩ := List.cons.inj heq
      cases a with
      | nil => rw [← hs]; rfl
      | cons c' a =>
        -- the quote is not in the escape, so it is behind it
        have hrest : used ++ lit = a ++ '"' :: b := (List.cons.inj htail).2
        obtain ⟨m, ha, hlit⟩ | ⟨m, hu, hm⟩ := List.append_eq_append_iff.1 hrest
        · have hlast := h.quoted m b hlit
          rw [ha, ← List.cons_append, ← List.cons_append, List.getLast?_append, hlast]
          rfl
        · cases m with
          | nil =>
            have hlast := h.quoted [] b hm.symm
            cases hlast
          | cons q m =>
            rw [(List.cons.inj hm).1, hu] at hused
            simp at hused

theorem literal_of_string {n : ℕ} {cs v rest : List Char} (h : string n cs = some (v, rest)) :
    ∃ lit, cs = lit ++ '"' :: rest ∧ Literal lit v := by
  induction n generalizing cs v with
  | zero => cases h
  | succ n ih =>
    cases cs with
    | nil => cases h
    | cons c cs =>
      rw [string_cons] at h
      split_ifs at h with hquote hslash hlow
      · rw [Option.some.injEq, Prod.mk.injEq] at h
        exact ⟨[], by rw [hquote, h.2]; rfl, by rw [← h.1]; exact literal_nil⟩
      · obtain ⟨p, hp, h⟩ := Option.bind_eq_some_iff.1 h
        obtain ⟨⟨v', rest'⟩, hq, h⟩ := Option.map_eq_some_iff.1 h
        cases h
        obtain ⟨e, used, hcs, hused⟩ := escaped_used hp
        obtain ⟨lit, hrest, hlit⟩ := ih hq
        refine ⟨'\\' :: e :: (used ++ lit), ?_, hlit.escape hused⟩
        rw [hslash, hcs, hrest]
        simp
      · obtain ⟨⟨v', rest'⟩, hq, h⟩ := Option.map_eq_some_iff.1 h
        cases h
        obtain ⟨lit, hrest, hlit⟩ := ih hq
        exact ⟨c :: lit, by rw [hrest]; rfl, hlit.cons hquote hslash (Nat.le_of_not_lt hlow)⟩

theorem length_lt_of_string {n : ℕ} {cs v rest : List Char} (h : string n cs = some (v, rest)) :
    v.length < cs.length := by
  obtain ⟨lit, rfl, hlit⟩ := literal_of_string h
  have hle := hlit.length_le
  rw [List.length_append, List.length_cons]
  omega

/-- A text between quotes, another member behind it, that is read as itself is plain: a quote that
it hides would end the string before the name of that member. -/
theorem plain_of_string {n : ℕ} {v rest tail r : List Char} {c : Char}
    (h : string n (v ++ '"' :: ',' :: '"' :: c :: tail) = some (v, rest))
    (hnext : token ',' rest = some r ∨ token '\x7d' rest = some r) (hspace : isSpace c = false)
    (hc : c ≠ ',' ∧ c ≠ '\x7d') : Plain v := by
  obtain ⟨lit, hcs, hlit⟩ := literal_of_string h
  have hle := hlit.length_le
  have hequal : lit.length = v.length → Plain v := fun hlen => (hlit.plain hlen.symm).2
  obtain ⟨m, hm, htail⟩ | ⟨m, hm, htail⟩ := List.append_eq_append_iff.1 hcs
  · rw [hm] at hequal hlit
    match m, htail with
    | [], _ => exact hequal (by rw [List.append_nil])
    | [_], htail =>
      have hclose := (List.cons.inj (List.cons.inj htail).2).1
      cases hclose
    | [_, _], htail =>
      have hrest := (List.cons.inj (List.cons.inj (List.cons.inj htail).2).2).2
      rw [← hrest, token_ne hspace hc.1, token_ne hspace hc.2] at hnext
      obtain hno | hno := hnext <;> cases hno
    | q :: k :: q' :: m, htail =>
      obtain ⟨hq, htail⟩ := List.cons.inj htail
      obtain ⟨hk, htail⟩ := List.cons.inj htail
      have hq' := (List.cons.inj htail).1
      have hlast := hlit.quoted (v ++ [q, k]) m (by rw [← hq']; simp)
      rw [← hk] at hlast
      simp at hlast
  · rw [hm, List.length_append] at hle
    exact hequal (by rw [hm, List.length_append]; omega)

/-! The parts of an object. -/

section Parts
variable {cs rest : List Char}

theorem number_toDigits (n : ℕ) (h : ∀ c ∈ rest.head?, c.isDigit = false) :
    number (Nat.toDigits 10 n ++ rest) = some (n, rest) := by
  have hdigits : ∀ c ∈ Nat.toDigits 10 n, c.isDigit = true :=
    fun c hc => Nat.isDigit_of_mem_toDigits (by decide) (by decide) hc
  have hstop : rest.takeWhile Char.isDigit = [] ∧ rest.dropWhile Char.isDigit = rest := by
    cases rest with
    | nil => exact ⟨rfl, rfl⟩
    | cons c rest =>
      have hc := h c rfl
      exact ⟨List.takeWhile_cons_of_neg (by simp [hc]), List.dropWhile_cons_of_neg (by simp [hc])⟩
  have htake : (Nat.toDigits 10 n ++ rest).takeWhile Char.isDigit = Nat.toDigits 10 n := by
    rw [List.takeWhile_append_of_pos hdigits, hstop.1, List.append_nil]
  have hdrop : (Nat.toDigits 10 n ++ rest).dropWhile Char.isDigit = rest := by
    rw [List.dropWhile_append_of_pos hdigits, hstop.2]
  rw [number, htake, hdrop, Text.digitsToNat_toDigits, Option.bind_some, if_pos rfl]

theorem isSpace_of_isDigit {c : Char} (h : c.isDigit) : isSpace c = false := by
  unfold isSpace
  simp only [Bool.or_eq_false_iff, beq_eq_false_iff_ne]
  refine ⟨⟨⟨?_, ?_⟩, ?_⟩, ?_⟩ <;> intro hc <;> rw [hc] at h <;> exact absurd h (by decide)

theorem value_decimal (i : ℤ) (h : ∀ c ∈ rest.head?, c.isDigit = false) :
    value (decimal i ++ rest) = some (ofInt i, rest) := by
  cases i with
  | ofNat n =>
    have hne : Nat.toDigits 10 n ≠ [] := Nat.toDigits_ne_nil
    obtain ⟨d, ds, hd⟩ := List.exists_cons_of_ne_nil hne
    have hdigit : d.isDigit :=
      Nat.isDigit_of_mem_toDigits (by decide) (by decide) (hd ▸ List.mem_cons_self)
    have hspace := isSpace_of_isDigit hdigit
    have hquote : d ≠ '"' := fun heq => absurd (heq ▸ hdigit) (by decide)
    have hminus : d ≠ '-' := fun heq => absurd (heq ▸ hdigit) (by decide)
    have hnumber := number_toDigits n h
    rw [decimal, value]
    rw [hd, List.cons_append] at hnumber ⊢
    rw [token_ne hspace hquote]
    dsimp only
    rw [token_ne hspace hminus]
    dsimp only
    rw [List.dropWhile_cons_of_neg (by simp [hspace]), hnumber]
    rfl
  | negSucc n =>
    rw [decimal, value, List.cons_append, token_ne (by decide) (by decide)]
    dsimp only
    rw [token_self (by decide)]
    dsimp only
    rw [number_toDigits (n + 1) h]
    rfl

theorem value_string : value ('"' :: cs) =
    (string cs.length cs).map fun p => (str (String.ofList p.1), p.2) := by
  rw [value, token_self (by decide)]

theorem member_eq {name : List Char} (hname : Plain name) :
    member ('"' :: (name ++ '"' :: ':' :: cs)) =
      (value cs).map fun q => ((String.ofList name, q.1), q.2) := by
  have hstring : string (name ++ '"' :: ':' :: cs).length (name ++ '"' :: ':' :: cs) =
      some (name, ':' :: cs) := by
    refine string_plain hname ?_
    rw [List.length_append, List.length_cons]
    omega
  rw [member, token_self (by decide), Option.bind_some, hstring, Option.bind_some,
    token_self (by decide), Option.bind_some]

theorem members_comma {n : ℕ} {m : String × Json} (h : member cs = some (m, ',' :: rest)) :
    members (n + 1) cs = (members n rest).map fun q => (m :: q.1, q.2) := by
  rw [members, h, Option.bind_some, token_self (by decide)]

theorem members_close {n : ℕ} {m : String × Json} (h : member cs = some (m, '\x7d' :: rest)) :
    members (n + 1) cs = some ([m], rest) := by
  rw [members, h, Option.bind_some, token_ne (by decide) (by decide)]
  dsimp only
  rw [token_self (by decide)]
  rfl

/-- Behind a member goes another one or the end. -/
theorem members_inv {n : ℕ} {ms : List (String × Json)} (h : members n cs = some (ms, rest)) :
    ∃ m behind r, member cs = some (m, behind) ∧ ms.head? = some m ∧
      (token ',' behind = some r ∨ token '\x7d' behind = some r) := by
  cases n with
  | zero => cases h
  | succ n =>
    obtain ⟨⟨m, behind⟩, hm, h⟩ := Option.bind_eq_some_iff.1 h
    dsimp only at h
    cases hcomma : token ',' behind with
    | some r =>
      rw [hcomma] at h
      obtain ⟨q, -, hq⟩ := Option.map_eq_some_iff.1 h
      cases hq
      exact ⟨m, behind, r, hm, rfl, .inl hcomma⟩
    | none =>
      rw [hcomma] at h
      obtain ⟨r, hr, hq⟩ := Option.map_eq_some_iff.1 h
      cases hq
      exact ⟨m, behind, _, hm, rfl, .inr hr⟩

end Parts

end Json
