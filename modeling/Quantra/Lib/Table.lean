import Mathlib.Data.List.Nodup

/-! Finite tables of rows that hold their own key. -/

/-- A table of rows, no two of them with the same key. -/
structure Table (κ α : Type*) (key : α → κ) where
  rows : List α
  nodup : (rows.map key).Nodup

namespace Table

variable {κ α : Type*} {key : α → κ}

def empty : Table κ α key where
  rows := []
  nodup := List.nodup_nil

variable [DecidableEq κ]

def get? (t : Table κ α key) (k : κ) : Option α := t.rows.find? fun a => key a = k

/-- The row replaces the one with its key. -/
def insert (t : Table κ α key) (a : α) : Table κ α key where
  rows := t.rows.filter (fun b => key b ≠ key a) ++ [a]
  nodup := by
    rw [List.map_append, List.nodup_append]
    refine ⟨t.nodup.sublist (List.filter_sublist.map key), List.nodup_singleton _, ?_⟩
    intro k hk j hj
    obtain ⟨b, hb, rfl⟩ := List.mem_map.1 hk
    rw [List.map_singleton, List.mem_singleton] at hj
    rw [hj]
    exact of_decide_eq_true (List.mem_filter.1 hb).2

def remove (t : Table κ α key) (k : κ) : Table κ α key where
  rows := t.rows.filter fun b => key b ≠ k
  nodup := t.nodup.sublist (List.filter_sublist.map key)

omit [DecidableEq κ] in
theorem map_key_map {f : α → α} (hf : ∀ a, key (f a) = key a) (rows : List α) :
    (rows.map f).map key = rows.map key := by
  rw [List.map_map]
  exact List.map_congr_left fun a _ => hf a

omit [DecidableEq κ] in
/-- A change to every row that leaves its key. -/
def map (t : Table κ α key) (f : α → α) (hf : ∀ a, key (f a) = key a) : Table κ α key where
  rows := t.rows.map f
  nodup := by
    rw [map_key_map hf]
    exact t.nodup

/-- A change to the row with key `k`. -/
def modify (t : Table κ α key) (k : κ) (f : α → α) (hf : ∀ a, key (f a) = key a) :
    Table κ α key :=
  t.map (fun a => if key a = k then f a else a) fun a => by
    split
    · exact hf a
    · rfl

variable {t : Table κ α key} {k j : κ} {a : α} {f : α → α}

theorem get?_eq_some_iff : t.get? k = some a ↔ a ∈ t.rows ∧ key a = k := by
  constructor
  · intro h
    have hkey := List.find?_some h
    exact ⟨List.mem_of_find?_eq_some h, by simpa using hkey⟩
  · rintro ⟨hmem, rfl⟩
    cases hget : t.get? (key a) with
    | none =>
      have hne := List.find?_eq_none.1 hget a hmem
      simp at hne
    | some b =>
      have hkey := List.find?_some hget
      have hb : key b = key a := by simpa using hkey
      rw [List.inj_on_of_nodup_map t.nodup (List.mem_of_find?_eq_some hget) hmem hb]

theorem key_of_get? (h : t.get? k = some a) : key a = k := (get?_eq_some_iff.1 h).2

@[simp] theorem get?_empty : (empty : Table κ α key).get? k = none := rfl

@[simp] theorem get?_insert : (t.insert a).get? k = if k = key a then some a else t.get? k := by
  ext b
  simp only [get?_eq_some_iff, insert, List.mem_append, List.mem_filter, List.mem_singleton,
    decide_eq_true_eq]
  split
  · rename_i hk
    rw [hk, Option.some.injEq]
    constructor
    · rintro ⟨⟨-, hne⟩ | rfl, hkey⟩
      · exact absurd hkey hne
      · rfl
    · rintro rfl
      exact ⟨.inr rfl, rfl⟩
  · rename_i hk
    rw [get?_eq_some_iff]
    constructor
    · rintro ⟨⟨hmem, -⟩ | rfl, rfl⟩
      · exact ⟨hmem, rfl⟩
      · exact absurd rfl hk
    · rintro ⟨hmem, rfl⟩
      exact ⟨.inl ⟨hmem, hk⟩, rfl⟩

@[simp] theorem get?_remove : (t.remove j).get? k = if k = j then none else t.get? k := by
  ext b
  simp only [get?_eq_some_iff, remove, List.mem_filter, decide_eq_true_eq]
  split
  · rename_i hk
    simp only [hk, reduceCtorEq, iff_false, not_and]
    exact fun h => h.2
  · rename_i hk
    rw [get?_eq_some_iff]
    constructor
    · rintro ⟨⟨hmem, -⟩, hkey⟩
      exact ⟨hmem, hkey⟩
    · rintro ⟨hmem, rfl⟩
      exact ⟨⟨hmem, hk⟩, rfl⟩

@[simp] theorem get?_map (hf : ∀ a, key (f a) = key a) : (t.map f hf).get? k = (t.get? k).map f := by
  ext b
  simp only [get?_eq_some_iff, Option.map_eq_some_iff, map, List.mem_map]
  constructor
  · rintro ⟨⟨c, hc, rfl⟩, rfl⟩
    exact ⟨c, ⟨hc, (hf c).symm⟩, rfl⟩
  · rintro ⟨c, ⟨hc, rfl⟩, rfl⟩
    exact ⟨⟨c, hc, rfl⟩, hf c⟩

@[simp] theorem get?_modify (hf : ∀ a, key (f a) = key a) :
    (t.modify j f hf).get? k = if k = j then (t.get? k).map f else t.get? k := by
  rw [modify, get?_map]
  cases hget : t.get? k with
  | none => simp
  | some b =>
    rw [Option.map_some, key_of_get? hget]
    split <;> rfl

theorem map_key_modify (hf : ∀ a, key (f a) = key a) :
    (t.modify j f hf).rows.map key = t.rows.map key := by
  refine map_key_map (fun a => ?_) t.rows
  split
  · exact hf a
  · rfl

/-- What the change of a row leaves of it, it leaves of every row. -/
theorem map_get?_modify {β : Type*} {g : α → β} {hf : ∀ a, key (f a) = key a}
    (hg : ∀ a, g (f a) = g a) : ((t.modify j f hf).get? k).map g = (t.get? k).map g := by
  rw [get?_modify]
  split
  · rw [Option.map_map]
    exact Option.map_congr fun a _ => hg a
  · rfl

/-- Where no key comes twice, every row is there. -/
theorem get?_foldl_insert {as : List α} (h : (as.map key).Nodup) :
    (as.foldl insert t).get? k = (as.find? fun a => key a = k).or (t.get? k) := by
  induction as generalizing t with
  | nil => rfl
  | cons a as ih =>
    rw [List.map_cons, List.nodup_cons] at h
    rw [List.foldl_cons, ih h.2, get?_insert, List.find?_cons]
    by_cases hk : key a = k
    · have hrest : as.find? (fun b => key b = k) = none := by
        rw [List.find?_eq_none]
        intro b hb hkey
        have heq := of_decide_eq_true hkey
        exact h.1 (List.mem_map.2 ⟨b, hb, heq.trans hk.symm⟩)
      rw [hrest, if_pos hk.symm, decide_eq_true hk]
      rfl
    · rw [if_neg (Ne.symm hk), decide_eq_false hk]

/-! Rows that are taken only where their key is new. -/

def insertNew (t : Table κ α key) (a : α) : Table κ α key :=
  if (t.get? (key a)).isSome then t else t.insert a

theorem get?_insertNew : (t.insertNew a).get? k = (t.get? k).or (if key a = k then some a else none) := by
  unfold insertNew
  split
  · rename_i hold
    split
    · rename_i hk
      subst hk
      obtain ⟨b, hb⟩ := Option.isSome_iff_exists.1 hold
      rw [hb, Option.some_or]
    · rw [Option.or_none]
  · rename_i hnew
    rw [get?_insert]
    by_cases hk : k = key a
    · rw [if_pos hk, if_pos hk.symm, hk, Option.not_isSome_iff_eq_none.1 hnew, Option.none_or]
    · rw [if_neg hk, if_neg (Ne.symm hk), Option.or_none]

/-- Of the rows with one key the first is taken, and none where there is one already. -/
theorem get?_foldl_insertNew (as : List α) :
    (as.foldl insertNew t).get? k = (t.get? k).or (as.find? fun a => key a = k) := by
  induction as generalizing t with
  | nil => rw [List.foldl_nil, List.find?_nil, Option.or_none]
  | cons a as ih =>
    rw [List.foldl_cons, ih, get?_insertNew, Option.or_assoc, List.find?_cons]
    by_cases hk : key a = k
    · simp only [hk, if_true, Option.some_or, decide_true]
    · simp only [hk, if_false, Option.none_or, decide_false]

theorem length_insert_of_new (h : t.get? (key a) = none) :
    (t.insert a).rows.length = t.rows.length + 1 := by
  have hall : ∀ b ∈ t.rows, decide (key b ≠ key a) = true := by
    intro b hb
    have hne := List.find?_eq_none.1 h b hb
    exact decide_eq_true fun heq => hne (decide_eq_true heq)
  show (t.rows.filter (fun b => key b ≠ key a) ++ [a]).length = t.rows.length + 1
  rw [List.filter_eq_self.2 hall, List.length_append, List.length_singleton]

end Table
