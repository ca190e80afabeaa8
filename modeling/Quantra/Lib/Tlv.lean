import Quantra.Lib.Bytes

/-! Options in type-length-value form: one byte of code, one byte of length, then the data. A
padding code and an end code stand alone. -/
namespace Tlv

variable {σ : Type} (pad fin : UInt8)

/-- The options up to the end code, the end of the bytes, or the first option that is cut short. -/
def options : ℕ → List UInt8 → List (UInt8 × List UInt8)
  | 0, _ => []
  | _, [] => []
  | fuel + 1, code :: rest =>
    if code = fin then []
    else if code = pad then options fuel rest
    else
      match rest with
      | [] => []
      | len :: body =>
        if len.toNat ≤ body.length then
          (code, body.take len.toNat) :: options fuel (body.drop len.toNat)
        else []

def decode (bytes : List UInt8) : List (UInt8 × List UInt8) := options pad fin bytes.length bytes

/-- The loop over an index into the buffer that such clients are written as. `apply` takes one
option into the state; `none` stands for a panic or for missing fuel. -/
def walk (apply : σ → UInt8 → List UInt8 → Option σ) (buf : List UInt8) :
    ℕ → ℕ → σ → Option σ
  | 0, _, _ => none
  | fuel + 1, i, s =>
    if i < buf.length then do
      let code ← buf[i]?
      if code = fin then some s
      else if code = pad then walk apply buf fuel (i + 1) s
      else if buf.length ≤ i + 1 then some s
      else do
        let len ← buf[i + 1]?
        if buf.length < i + 2 + len.toNat then some s
        else do
          let data ← Bytes.slice buf (i + 2) (i + 2 + len.toNat)
          let s ← apply s code data
          walk apply buf fuel (i + 2 + len.toNat) s
    else some s

variable {pad fin}

/-- Each option takes at least one byte, so fuel beyond the length changes nothing. -/
theorem options_eq_decode {fuel : ℕ} {bytes : List UInt8} (hfuel : bytes.length ≤ fuel) :
    options pad fin fuel bytes = decode pad fin bytes := by
  have hmono : ∀ {n m : ℕ} {l : List UInt8}, l.length ≤ n → l.length ≤ m →
      options pad fin n l = options pad fin m l := by
    intro n
    induction n with
    | zero =>
      intro m l hn hm
      have hnil : l = [] := List.eq_nil_of_length_eq_zero (by omega)
      subst hnil
      cases m <;> rfl
    | succ n ih =>
      intro m l hn hm
      match m, l with
      | 0, [] => rfl
      | 0, _ :: _ => simp at hm
      | m + 1, [] => rfl
      | m + 1, code :: rest =>
        simp only [List.length_cons] at hn hm
        unfold options
        split
        · rfl
        split
        · exact ih (by omega) (by omega)
        cases rest with
        | nil => rfl
        | cons len body =>
          simp only [List.length_cons] at hn hm
          have hdrop : (body.drop len.toNat).length ≤ body.length := by simp
          have hrest : options pad fin n (body.drop len.toNat) =
              options pad fin m (body.drop len.toNat) := ih (by omega) (by omega)
          simp only [hrest]
  exact hmono hfuel (Nat.le_refl _)

theorem decode_nil : decode pad fin [] = [] := rfl

theorem decode_cons (code : UInt8) (rest : List UInt8) :
    decode pad fin (code :: rest) =
      if code = fin then []
      else if code = pad then decode pad fin rest
      else
        match rest with
        | [] => []
        | len :: body =>
          if len.toNat ≤ body.length then
            (code, body.take len.toNat) :: decode pad fin (body.drop len.toNat)
          else [] := by
  show options pad fin (code :: rest).length (code :: rest) = _
  simp only [List.length_cons, options]
  split
  · rfl
  split
  · rfl
  cases rest with
  | nil => rfl
  | cons len body =>
    have hfuel : (body.drop len.toNat).length ≤ (len :: body).length := by
      simp only [List.length_drop, List.length_cons]
      omega
    simp only [options_eq_decode hfuel]

/-- One option as a client writes it; the length is truncated to a byte. -/
def encode (code : UInt8) (data : List UInt8) : List UInt8 :=
  code :: UInt8.ofNat data.length :: data

theorem decode_encode_append {code : UInt8} {data rest : List UInt8} (hfin : code ≠ fin)
    (hpad : code ≠ pad) (hlen : data.length < 256) :
    decode pad fin (encode code data ++ rest) = (code, data) :: decode pad fin rest := by
  have hbyte : (UInt8.ofNat data.length).toNat = data.length := by
    rw [UInt8.toNat_ofNat', Nat.mod_eq_of_lt hlen]
  unfold encode
  rw [List.cons_append, decode_cons, if_neg hfin, if_neg hpad]
  simp only [List.cons_append, hbyte, List.length_append]
  rw [if_pos (by omega), List.take_left, List.drop_left]

/-- Options one behind the other. -/
def encodeAll (l : List (UInt8 × List UInt8)) : List UInt8 := l.flatMap fun o => encode o.1 o.2

theorem decode_encodeAll_append {l : List (UInt8 × List UInt8)} {rest : List UInt8}
    (hcode : ∀ o ∈ l, o.1 ≠ fin ∧ o.1 ≠ pad) (hlen : ∀ o ∈ l, o.2.length < 256) :
    decode pad fin (encodeAll l ++ rest) = l ++ decode pad fin rest := by
  induction l with
  | nil => rfl
  | cons o l ih =>
    have hhead := hcode o List.mem_cons_self
    have htail := ih (fun p hp => hcode p (List.mem_cons_of_mem o hp))
      fun p hp => hlen p (List.mem_cons_of_mem o hp)
    show decode pad fin (encode o.1 o.2 ++ encodeAll l ++ rest) = _
    rw [List.append_assoc, decode_encode_append hhead.1 hhead.2 (hlen o List.mem_cons_self), htail]
    rfl

/-! What options say: a later one that can be read replaces an earlier one. -/

section Last
variable {ο α : Type}

/-- What the last of the options that `f` can read says. -/
def last (f : ο → Option α) (l : List ο) : Option α := (l.filterMap f).getLast?

@[simp]
theorem last_nil (f : ο → Option α) : last f [] = none := rfl

theorem last_concat (f : ο → Option α) (l : List ο) (o : ο) :
    last f (l ++ [o]) = (f o).or (last f l) := by
  unfold last
  cases ho : f o with
  | none => simp [ho]
  | some a => simp [ho]

end Last

/-- Reading at an index is reading the head of what is left. -/
private theorem getElem?_add_of_drop {buf : List UInt8} {i : ℕ} {code : UInt8}
    {rest : List UInt8} (h : buf.drop i = code :: rest) (j : ℕ) : buf[i + (j + 1)]? = rest[j]? := by
  have hdrop : (buf.drop i)[j + 1]? = buf[i + (j + 1)]? := List.getElem?_drop
  rw [← hdrop, h, List.getElem?_cons_succ]

/-- The loop takes in exactly the decoded options, in order, and never indexes outside the buffer
on its own account. -/
theorem walk_eq_foldlM {apply : σ → UInt8 → List UInt8 → Option σ} {buf : List UInt8}
    {fuel i : ℕ} {s : σ} (hfuel : buf.length - i < fuel) :
    walk pad fin apply buf fuel i s =
      (decode pad fin (buf.drop i)).foldlM (fun s o => apply s o.1 o.2) s := by
  induction fuel generalizing i s with
  | zero => omega
  | succ fuel ih =>
    unfold walk
    cases hdrop : buf.drop i with
    | nil =>
      have hlen : buf.length ≤ i := List.drop_eq_nil_iff.1 hdrop
      rw [if_neg (by omega), decode_nil]
      rfl
    | cons code rest =>
      have hlen : buf.length = i + (rest.length + 1) := by
        have hcount : (buf.drop i).length = rest.length + 1 := by rw [hdrop, List.length_cons]
        rw [List.length_drop] at hcount
        omega
      have hcode : buf[i]? = some code := by
        have hhead : (buf.drop i)[0]? = buf[i + 0]? := List.getElem?_drop
        rw [hdrop] at hhead
        simpa using hhead.symm
      have hnext : buf.drop (i + 1) = rest := by
        rw [← List.drop_drop, hdrop, List.drop_succ_cons, List.drop_zero]
      rw [if_pos (by omega), hcode, decode_cons]
      simp only [Option.bind_eq_bind, Option.bind_some]
      by_cases hfin : code = fin
      · rw [if_pos hfin, if_pos hfin]
        rfl
      rw [if_neg hfin, if_neg hfin]
      by_cases hpad : code = pad
      · rw [if_pos hpad, if_pos hpad, ih (by omega), hnext]
      rw [if_neg hpad, if_neg hpad]
      cases rest with
      | nil =>
        rw [if_pos (by simp at hlen; omega)]
        rfl
      | cons len body =>
        simp only [List.length_cons] at hlen
        have hlenByte : buf[i + 1]? = some len := getElem?_add_of_drop hdrop 0
        have hbody : buf.drop (i + 2) = body := by
          have h2 : i + 2 = i + 1 + 1 := by omega
          rw [h2, ← List.drop_drop, hnext, List.drop_succ_cons, List.drop_zero]
        rw [if_neg (by omega), hlenByte]
        simp only [Option.bind_some]
        by_cases hfits : len.toNat ≤ body.length
        · have hslice : Bytes.slice buf (i + 2) (i + 2 + len.toNat) =
              some (body.take len.toNat) := by
            rw [Bytes.slice_eq (by omega) (by omega), hbody]
            congr 2
            omega
          have hrest : buf.drop (i + 2 + len.toNat) = body.drop len.toNat := by
            rw [← List.drop_drop, hbody]
          rw [if_neg (by omega), if_pos hfits, hslice, List.foldlM_cons]
          simp only [Option.bind_some, Option.bind_eq_bind]
          congr 1
          funext t
          rw [ih (by omega), hrest]
        · rw [if_pos (by omega), if_neg hfits]
          rfl

end Tlv
