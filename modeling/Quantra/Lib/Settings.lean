import Quantra.Lib.Text

/-! Settings of the form `key=value`, read one after another: the last one of a key holds. -/
namespace Settings

variable {σ ω β : Type*}

/-- The last of the values that the words give. -/
def last (f : ω → Option β) (ws : List ω) : Option β := (ws.filterMap f).getLast?

theorem last_nil (f : ω → Option β) : last f [] = none := rfl

theorem last_cons (f : ω → Option β) (w : ω) (ws : List ω) :
    last f (w :: ws) = (last f ws).or (f w) := by
  unfold last
  cases hw : f w with
  | none => rw [List.filterMap_cons_none hw, Option.or_none]
  | some b =>
    rw [List.filterMap_cons_some hw, List.getLast?_cons]
    cases (ws.filterMap f).getLast? <;> rfl

theorem last_append (f : ω → Option β) (ws us : List ω) :
    last f (ws ++ us) = (last f us).or (last f ws) := by
  unfold last
  rw [List.filterMap_append, List.getLast?_append]

theorem last_map {γ : Type*} (g : β → γ) (f : ω → Option β) (ws : List ω) :
    last (fun w => (f w).map g) ws = (last f ws).map g := by
  induction ws with
  | nil => rfl
  | cons w ws ih =>
    rw [last_cons, last_cons, ih]
    cases last f ws <;> rfl

/-- A field of a state that each word sets or leaves alone. -/
theorem foldl_last {field : σ → β} {step : σ → ω → σ} {f : ω → Option β}
    (h : ∀ s w, field (step s w) = (f w).getD (field s)) (ws : List ω) (s : σ) :
    field (ws.foldl step s) = (last f ws).getD (field s) := by
  induction ws generalizing s with
  | nil => rfl
  | cons w ws ih =>
    have hnext := ih (step s w)
    rw [h] at hnext
    rw [List.foldl_cons, hnext, last_cons]
    cases last f ws <;> rfl

/-- A word that gives `key` the value `v`. -/
def word (key v : String) : String := key ++ "=" ++ v

theorem toList_word (key v : String) : (word key v).toList = key.toList ++ '=' :: v.toList := by
  rw [word, String.toList_append, String.toList_append]
  simp

theorem dropLead_word_self (key v : String) : Text.dropLead (key ++ "=") (word key v) = some v := by
  have h := Text.dropLead_append (key ++ "=") v.toList
  rwa [String.ofList_append, String.ofList_toList, String.ofList_toList] at h

/-- What stands before the first `=` is the key. -/
theorem append_cons_inj {α : Type*} {sep : α} {xs xs' ys ys' : List α} (hxs : sep ∉ xs)
    (hxs' : sep ∉ xs') (h : xs ++ sep :: ys = xs' ++ sep :: ys') : xs = xs' ∧ ys = ys' := by
  induction xs generalizing xs' with
  | nil =>
    cases xs' with
    | nil => exact ⟨rfl, (List.cons.inj h).2⟩
    | cons x' xs' => exact absurd ((List.cons.inj h).1 ▸ List.mem_cons_self) hxs'
  | cons x xs ih =>
    cases xs' with
    | nil => exact absurd ((List.cons.inj h).1 ▸ List.mem_cons_self) hxs
    | cons x' xs' =>
      obtain ⟨rfl, htail⟩ := List.cons.inj h
      obtain ⟨rfl, rfl⟩ := ih (fun hmem => hxs (List.mem_cons_of_mem _ hmem))
        (fun hmem => hxs' (List.mem_cons_of_mem _ hmem)) htail
      exact ⟨rfl, rfl⟩

theorem dropLead_word {key key' : String} (hkey : '=' ∉ key.toList) (hkey' : '=' ∉ key'.toList)
    (v : String) : Text.dropLead (key ++ "=") (word key' v) = if key' = key then some v else none := by
  split
  · rename_i heq
    rw [heq, dropLead_word_self]
  · rename_i hne
    cases hlead : Text.dropLead (key ++ "=") (word key' v) with
    | none => rfl
    | some rest =>
      have htext := Text.toList_of_dropLead hlead
      rw [toList_word, String.toList_append, List.append_assoc] at htext
      exact absurd (String.toList_inj.1 (append_cons_inj hkey' hkey htext).1) hne

/-- The pieces between what is cut at have none of that. -/
theorem of_mem_splitOnP {α : Type*} {p : α → Bool} {cs piece : List α}
    (h : piece ∈ cs.splitOnP p) : ∀ c ∈ piece, p c = false := by
  induction cs generalizing piece with
  | nil =>
    rw [List.splitOnP_nil, List.mem_singleton] at h
    rw [h]
    exact fun c hc => by cases hc
  | cons d cs ih =>
    rw [List.splitOnP_cons_eq_if_modifyHead] at h
    split at h
    · rcases List.mem_cons.1 h with rfl | hrest
      · exact fun c hc => by cases hc
      · exact ih hrest
    · rename_i hd
      obtain ⟨first, rest, hsplit⟩ := List.exists_cons_of_ne_nil (List.splitOnP_ne_nil p cs)
      rw [hsplit, List.modifyHead_cons] at h
      rw [hsplit] at ih
      rcases List.mem_cons.1 h with rfl | hrest
      · intro c hc
        rcases List.mem_cons.1 hc with rfl | hc
        · exact eq_false_of_ne_true hd
        · exact ih List.mem_cons_self c hc
      · exact ih (List.mem_cons_of_mem first hrest)

end Settings
