import Mathlib.Data.Int.Notation
import Mathlib.Algebra.Group.Nat.Defs
import Mathlib.Data.List.Basic

/-! JSON values, and how a program that has no type for them looks inside. -/

/-- The whole numbers that are not negative are kept apart from those that are, since a reader asks
for the one or the other. -/
inductive Json
  | null
  | bool (b : Bool)
  | uint (n : ℕ)
  | negSucc (n : ℕ)
  | str (s : String)
  | arr (items : List Json)
  | obj (fields : List (String × Json))

namespace Json

def get (j : Json) (name : String) : Option Json :=
  match j with
  | obj fields => fields.lookup name
  | _ => none

def asBool : Json → Option Bool
  | bool b => some b
  | _ => none

def asU64 : Json → Option ℕ
  | uint n => some n
  | _ => none

def asStr : Json → Option String
  | str s => some s
  | _ => none

def asArray : Json → Option (List Json)
  | arr items => some items
  | _ => none

def asU32 (j : Json) : Option ℕ := j.asU64.filter (· < 2 ^ 32)

/-- A field that has to be there. -/
def field {α : Type*} (j : Json) (name : String) (read : Json → Option α) : Option α :=
  (j.get name).bind read

/-- A field that may be absent, or `null`. -/
def field? {α : Type*} (j : Json) (name : String) (read : Json → Option α) : Option (Option α) :=
  match j.get name with
  | none | some null => some none
  | some v => (read v).map some

def ofInt : ℤ → Json
  | .ofNat n => uint n
  | .negSucc n => negSucc n

/-- What is absent is written as `null`. -/
def ofOption {α : Type*} (f : α → Json) : Option α → Json
  | none => null
  | some a => f a

def ofList {α : Type*} (f : α → Json) (as : List α) : Json := arr (as.map f)

/-- An array, every item of which has to be read. -/
def toList {α : Type*} (read : Json → Option α) (j : Json) : Option (List α) :=
  j.asArray.bind fun items => items.mapM read

/-- What the items of an array are read as; those that cannot be read are left out. -/
def items {α : Type*} (read : Json → Option α) (j : Json) : Option (List α) :=
  j.asArray.map fun items => items.filterMap read

section Fields
variable {α : Type*} {name other : String} {v : Json} {fields : List (String × Json)}
  {read : Json → Option α}

@[simp] theorem field_obj_self : (obj ((name, v) :: fields)).field name read = read v := by
  unfold field get
  dsimp only
  rw [List.lookup_cons, beq_self_eq_true]
  rfl

@[simp] theorem field_obj_ne (h : name ≠ other) :
    (obj ((other, v) :: fields)).field name read = (obj fields).field name read := by
  unfold field get
  dsimp only
  rw [List.lookup_cons, beq_false_of_ne h]

end Fields

section Lists
variable {α β : Type*} {f : α → Json} {read : Json → Option β}

theorem toList_ofList {read : Json → Option α} (h : ∀ a, read (f a) = some a) (as : List α) :
    (ofList f as).toList read = some as := by
  unfold toList ofList asArray
  rw [Option.bind_some]
  induction as with
  | nil => rfl
  | cons a as ih => rw [List.map_cons, List.mapM_cons, h a, ih]; rfl

/-- A reader that finds the same in every item finds it in each of them. -/
theorem items_ofList {g : α → β} (h : ∀ a, read (f a) = some (g a)) (as : List α) :
    (ofList f as).items read = some (as.map g) := by
  unfold items ofList asArray
  rw [Option.map_some, List.filterMap_map]
  have hread : (read ∘ f) = some ∘ g := funext h
  rw [hread, List.filterMap_eq_map]

/-- A reader that finds nothing in any item finds nothing in the array. -/
theorem items_ofList_none (h : ∀ a, read (f a) = none) (as : List α) :
    (ofList f as).items read = some [] := by
  unfold items ofList asArray
  rw [Option.map_some, List.filterMap_map]
  have hread : (read ∘ f) = fun _ => none := funext h
  rw [hread, List.filterMap_none]

end Lists

end Json
