import Quantra.Lib.Bytes

/-! Options in type-length-value form with two bytes of code and two of length, both in network
order. -/
namespace WideTlv
open Bytes

variable {σ : Type}

/-- The options up to the end of the bytes, or the first option that is cut short. -/
def options : ℕ → List UInt8 → List (UInt16 × List UInt8)
  | fuel + 1, c₁ :: c₂ :: l₁ :: l₂ :: body =>
    let len := (fromBeBytes16 l₁ l₂).toNat
    if len ≤ body.length then
      (fromBeBytes16 c₁ c₂, body.take len) :: options fuel (body.drop len)
    else []
  | _, _ => []

def decode (bytes : List UInt8) : List (UInt16 × List UInt8) := options bytes.length bytes

/-- `u16::from_be_bytes([buf[i], buf[i + 1]])`. -/
def wordAt (buf : List UInt8) (i : ℕ) : Option UInt16 := do
  let a ← buf[i]?
  let b ← buf[i + 1]?
  some (fromBeBytes16 a b)

/-- The loop over an index into the buffer that such clients are written as. `apply` takes one
option into the state; `none` stands for a panic or for missing fuel. -/
def walk (apply : σ → UInt16 → List UInt8 → Option σ) (buf : List UInt8) : ℕ → ℕ → σ → Option σ
  | 0, _, _ => none
  | fuel + 1, i, s =>
    if i + 4 ≤ buf.length then do
      let code ← wordAt buf i
      let len ← wordAt buf (i + 2)
      if buf.length < i + 4 + len.toNat then some s
      else do
        let data ← Bytes.slice buf (i + 4) (i + 4 + len.toNat)
        let s ← apply s code data
        walk apply buf fuel (i + 4 + len.toNat) s
    else some s

/-- One option as a client writes it; the length is truncated to two bytes. -/
def encode (code : UInt16) (data : List UInt8) : List UInt8 :=
  toBeBytes16 code ++ toBeBytes16 (UInt16.ofNat data.length) ++ data

/-- Options one behind the other. -/
def encodeAll (l : List (UInt16 × List UInt8)) : List UInt8 := l.flatMap fun o => encode o.1 o.2

theorem options_of_short {fuel : ℕ} {bytes : List UInt8} (h : bytes.length < 4) :
    options fuel bytes = [] := by
  match fuel, bytes with
  | 0, _ => rfl
  | fuel + 1, [] => rfl
  | fuel + 1, [a] => rfl
  | fuel + 1, [a, b] => rfl
  | fuel + 1, [a, b, c] => rfl
  | fuel + 1, a :: b :: c :: d :: rest =>
    simp only [List.length_cons] at h
    omega

/-- Each option takes at least four bytes, so fuel beyond the length changes nothing. -/
theorem options_congr {n m : ℕ} {bytes : List UInt8} (hn : bytes.length ≤ n)
    (hm : bytes.length ≤ m) : options n bytes = options m bytes := by
  induction n generalizing m bytes with
  | zero =>
    have hnil : bytes = [] := List.eq_nil_of_length_eq_zero (by omega)
    rw [hnil, options_of_short (by simp), options_of_short (by simp)]
  | succ n ih =>
    by_cases hshort : bytes.length < 4
    · rw [options_of_short hshort, options_of_short hshort]
    match m, bytes with
    | 0, _ => omega
    | m + 1, [] => rfl
    | m + 1, [a] => rfl
    | m + 1, [a, b] => rfl
    | m + 1, [a, b, c] => rfl
    | m + 1, c₁ :: c₂ :: l₁ :: l₂ :: body =>
      simp only [List.length_cons] at hn hm
      have hdrop := List.length_drop (l := body) (i := (fromBeBytes16 l₁ l₂).toNat)
      have hrest : options n (body.drop (fromBeBytes16 l₁ l₂).toNat) =
          options m (body.drop (fromBeBytes16 l₁ l₂).toNat) := ih (by omega) (by omega)
      unfold options
      dsimp only
      rw [hrest]

theorem decode_of_short {bytes : List UInt8} (h : bytes.length < 4) : decode bytes = [] :=
  options_of_short h

theorem decode_cons (c₁ c₂ l₁ l₂ : UInt8) (body : List UInt8) :
    decode (c₁ :: c₂ :: l₁ :: l₂ :: body) =
      if (fromBeBytes16 l₁ l₂).toNat ≤ body.length then
        (fromBeBytes16 c₁ c₂, body.take (fromBeBytes16 l₁ l₂).toNat) ::
          decode (body.drop (fromBeBytes16 l₁ l₂).toNat)
      else [] := by
  have hdrop := List.length_drop (l := body) (i := (fromBeBytes16 l₁ l₂).toNat)
  have hrest : options (body.length + 3) (body.drop (fromBeBytes16 l₁ l₂).toNat) =
      decode (body.drop (fromBeBytes16 l₁ l₂).toNat) := options_congr (by omega) (Nat.le_refl _)
  show options (body.length + 3 + 1) (c₁ :: c₂ :: l₁ :: l₂ :: body) = _
  unfold options
  dsimp only
  rw [hrest]

theorem decode_encode_append {code : UInt16} {data rest : List UInt8}
    (hlen : data.length < 2 ^ 16) :
    decode (encode code data ++ rest) = (code, data) :: decode rest := by
  have hword : (UInt16.ofNat data.length).toNat = data.length := UInt16.toNat_ofNat_of_lt' hlen
  have hshape : encode code data ++ rest =
      UInt8.ofNat (code.toNat / 256) :: UInt8.ofNat code.toNat ::
        UInt8.ofNat ((UInt16.ofNat data.length).toNat / 256) ::
        UInt8.ofNat (UInt16.ofNat data.length).toNat :: (data ++ rest) := rfl
  rw [hshape, decode_cons, fromBeBytes16_toBeBytes16, fromBeBytes16_toBeBytes16, hword,
    List.length_append, if_pos (by omega), List.take_left, List.drop_left]

theorem decode_encodeAll {l : List (UInt16 × List UInt8)} (h : ∀ o ∈ l, o.2.length < 2 ^ 16) :
    decode (encodeAll l) = l := by
  induction l with
  | nil => rfl
  | cons o l ih =>
    show decode (encode o.1 o.2 ++ encodeAll l) = _
    rw [decode_encode_append (h o List.mem_cons_self), ih fun p hp => h p (List.mem_cons_of_mem o hp)]

/-- Where the loop goes on there is a header, and its words are read. -/
theorem exists_header {buf : List UInt8} {i : ℕ} (h : i + 4 ≤ buf.length) :
    ∃ c₁ c₂ l₁ l₂ body, buf.drop i = c₁ :: c₂ :: l₁ :: l₂ :: body ∧
      buf.drop (i + 4) = body ∧ buf.length = i + (body.length + 4) ∧
      wordAt buf i = some (fromBeBytes16 c₁ c₂) ∧
      wordAt buf (i + 2) = some (fromBeBytes16 l₁ l₂) := by
  obtain ⟨c₁, c₂, l₁, l₂, body, hdrop⟩ : ∃ c₁ c₂ l₁ l₂ body,
      buf.drop i = c₁ :: c₂ :: l₁ :: l₂ :: body := by
    have hlen : 4 ≤ (buf.drop i).length := by
      rw [List.length_drop]
      omega
    match buf.drop i, hlen with
    | c₁ :: c₂ :: l₁ :: l₂ :: body, _ => exact ⟨c₁, c₂, l₁, l₂, body, rfl⟩
  have hread : ∀ k, buf[i + k]? = (c₁ :: c₂ :: l₁ :: l₂ :: body)[k]? := fun k => by
    rw [← hdrop, List.getElem?_drop]
  have hfirst : buf[i]? = some c₁ := hread 0
  refine ⟨c₁, c₂, l₁, l₂, body, hdrop, ?_, ?_, ?_, ?_⟩
  · rw [← List.drop_drop, hdrop]
    rfl
  · have hcount := congrArg List.length hdrop
    rw [List.length_drop] at hcount
    simp only [List.length_cons] at hcount
    omega
  · unfold wordAt
    rw [hfirst, hread 1]
    rfl
  · unfold wordAt
    rw [hread 2, Nat.add_assoc, hread 3]
    rfl

/-- The loop takes in exactly the decoded options, in order, and never indexes outside the buffer
on its own account. -/
theorem walk_eq_foldlM {apply : σ → UInt16 → List UInt8 → Option σ} {buf : List UInt8}
    {fuel i : ℕ} {s : σ} (hfuel : buf.length - i < fuel) :
    walk apply buf fuel i s =
      (decode (buf.drop i)).foldlM (fun s o => apply s o.1 o.2) s := by
  induction fuel generalizing i s with
  | zero => omega
  | succ fuel ih =>
    unfold walk
    by_cases hnext : i + 4 ≤ buf.length
    · obtain ⟨c₁, c₂, l₁, l₂, body, hdrop, hbody, hlen, hcode, hword⟩ := exists_header hnext
      rw [if_pos hnext, hcode, hword, hdrop, decode_cons]
      simp only [Option.bind_eq_bind, Option.bind_some]
      by_cases hfits : (fromBeBytes16 l₁ l₂).toNat ≤ body.length
      · have hslice : Bytes.slice buf (i + 4) (i + 4 + (fromBeBytes16 l₁ l₂).toNat) =
            some (body.take (fromBeBytes16 l₁ l₂).toNat) := by
          rw [Bytes.slice_eq (by omega) (by omega), hbody, Nat.add_sub_cancel_left]
        have hrest : buf.drop (i + 4 + (fromBeBytes16 l₁ l₂).toNat) =
            body.drop (fromBeBytes16 l₁ l₂).toNat := by
          rw [← List.drop_drop, hbody]
        rw [if_neg (by omega), if_pos hfits, hslice, List.foldlM_cons]
        simp only [Option.bind_some, Option.bind_eq_bind]
        congr 1
        funext t
        rw [ih (by omega), hrest]
      · rw [if_pos (by omega), if_neg hfits]
        rfl
    · rw [if_neg hnext, decode_of_short (by rw [List.length_drop]; omega)]
      rfl

end WideTlv
