import Mathlib.Data.List.Basic
import Mathlib.Data.List.Infix

/-! A tree of files: what stands at a place, and what becomes of the places when one of them is
changed. -/
namespace FileTree

/-- The attributes of a node. A busy one, such as a mount point, is not removed. -/
structure Attrs where
  mode : BitVec 12
  uid : ℕ
  gid : ℕ
  busy : Bool
  deriving DecidableEq, Repr

inductive Node
  | file (attrs : Attrs) (content : List UInt8)
  | link (attrs : Attrs) (target : String)
  | dir (attrs : Attrs) (entries : List (String × Node))

def Node.attrs : Node → Attrs
  | .file a _ => a
  | .link a _ => a
  | .dir a _ => a

/-- What stands somewhere, if anything. -/
abbrev Tree := Option Node

/-- The names on the way from the root. -/
abbrev Place := List String

/-! The entries of a directory. -/

def setEntry (x : String) (n : Node) : List (String × Node) → List (String × Node)
  | [] => [(x, n)]
  | e :: es => if e.1 = x then (x, n) :: es else e :: setEntry x n es

def dropEntry (x : String) (es : List (String × Node)) : List (String × Node) :=
  es.filter fun e => e.1 ≠ x

def lookup (x : String) : List (String × Node) → Tree
  | [] => none
  | e :: es => if e.1 = x then some e.2 else lookup x es

/-- Change what has the name, where nothing stands for no entry. -/
def updateEntry (x : String) (f : Tree → Tree) (es : List (String × Node)) :
    List (String × Node) :=
  match f (lookup x es) with
  | some n => setEntry x n es
  | none => dropEntry x es

section Entries
variable {x y : String} {n m : Node} {es : List (String × Node)} {f g : Tree → Tree}

theorem setEntry_cons {e : String × Node} :
    setEntry x n (e :: es) = if e.1 = x then (x, n) :: es else e :: setEntry x n es := rfl

theorem lookup_cons {e : String × Node} :
    lookup x (e :: es) = if e.1 = x then some e.2 else lookup x es := rfl

theorem lookup_setEntry_self : lookup x (setEntry x n es) = some n := by
  induction es with
  | nil => exact if_pos rfl
  | cons e es ih =>
    rw [setEntry_cons]
    split_ifs with he
    · rw [lookup_cons, if_pos rfl]
    · rw [lookup_cons, if_neg he, ih]

theorem lookup_setEntry_ne (h : y ≠ x) : lookup y (setEntry x n es) = lookup y es := by
  induction es with
  | nil => exact if_neg (Ne.symm h)
  | cons e es ih =>
    rw [setEntry_cons]
    split_ifs with he
    · rw [lookup_cons, lookup_cons, if_neg (Ne.symm h), he, if_neg (Ne.symm h)]
    · rw [lookup_cons, lookup_cons, ih]

theorem dropEntry_cons_self : dropEntry x ((x, n) :: es) = dropEntry x es := by
  rw [dropEntry, List.filter_cons, if_neg (by simp), dropEntry]

theorem dropEntry_cons_ne {e : String × Node} (h : e.1 ≠ x) :
    dropEntry x (e :: es) = e :: dropEntry x es := by
  rw [dropEntry, List.filter_cons, if_pos (by simpa using h), dropEntry]

theorem lookup_dropEntry_self : lookup x (dropEntry x es) = none := by
  induction es with
  | nil => rfl
  | cons e es ih =>
    by_cases he : e.1 = x
    · obtain ⟨y, m⟩ := e
      cases he
      rw [dropEntry_cons_self, ih]
    · rw [dropEntry_cons_ne he, lookup_cons, if_neg he, ih]

theorem lookup_dropEntry_ne (h : y ≠ x) : lookup y (dropEntry x es) = lookup y es := by
  induction es with
  | nil => rfl
  | cons e es ih =>
    by_cases he : e.1 = x
    · obtain ⟨z, m⟩ := e
      cases he
      rw [dropEntry_cons_self, ih, lookup_cons, if_neg (Ne.symm h)]
    · rw [dropEntry_cons_ne he, lookup_cons, lookup_cons, ih]

theorem lookup_updateEntry_self : lookup x (updateEntry x f es) = f (lookup x es) := by
  unfold updateEntry
  cases f (lookup x es) with
  | none => exact lookup_dropEntry_self
  | some n => exact lookup_setEntry_self

theorem lookup_updateEntry_ne (h : y ≠ x) : lookup y (updateEntry x f es) = lookup y es := by
  unfold updateEntry
  cases f (lookup x es) with
  | none => exact lookup_dropEntry_ne h
  | some n => exact lookup_setEntry_ne h

theorem setEntry_of_lookup (h : lookup x es = some n) : setEntry x n es = es := by
  induction es with
  | nil => cases h
  | cons e es ih =>
    rw [lookup_cons] at h
    rw [setEntry_cons]
    split_ifs at h ⊢ with he
    · rw [← he, ← Option.some.inj h]
    · rw [ih h]

theorem dropEntry_of_lookup (h : lookup x es = none) : dropEntry x es = es := by
  induction es with
  | nil => rfl
  | cons e es ih =>
    rw [lookup_cons] at h
    split_ifs at h with he
    rw [dropEntry_cons_ne he, ih h]

theorem updateEntry_of_fixed (h : f (lookup x es) = lookup x es) : updateEntry x f es = es := by
  unfold updateEntry
  rw [h]
  cases hl : lookup x es with
  | none => exact dropEntry_of_lookup hl
  | some n => exact setEntry_of_lookup hl

theorem setEntry_setEntry : setEntry x m (setEntry x n es) = setEntry x m es := by
  induction es with
  | nil => exact if_pos rfl
  | cons e es ih =>
    rw [setEntry_cons, setEntry_cons]
    split_ifs with he
    · rw [setEntry_cons, if_pos rfl]
    · rw [setEntry_cons, if_neg he, ih]

theorem dropEntry_setEntry : dropEntry x (setEntry x n es) = dropEntry x es := by
  induction es with
  | nil => exact dropEntry_cons_self
  | cons e es ih =>
    rw [setEntry_cons]
    split_ifs with he
    · obtain ⟨y, m⟩ := e
      cases he
      rw [dropEntry_cons_self, dropEntry_cons_self]
    · rw [dropEntry_cons_ne he, dropEntry_cons_ne he, ih]

theorem updateEntry_updateEntry (h : g (lookup x es) ≠ none ∨ f none = none) :
    updateEntry x f (updateEntry x g es) = updateEntry x (f ∘ g) es := by
  have hself : lookup x (updateEntry x g es) = g (lookup x es) := lookup_updateEntry_self
  rw [updateEntry, hself, updateEntry, updateEntry, Function.comp_apply]
  cases hg : g (lookup x es) with
  | some n =>
    dsimp only
    cases f (some n) with
    | some m => exact setEntry_setEntry
    | none => exact dropEntry_setEntry
  | none =>
    have hf : f none = none := h.resolve_left fun hne => hne hg
    dsimp only
    rw [hf]
    exact dropEntry_of_lookup lookup_dropEntry_self

end Entries

/-! Places. -/

def nodeAt : Place → Tree → Tree
  | [], t => t
  | x :: p, some (.dir _ es) => nodeAt p (lookup x es)
  | _ :: _, _ => none

/-- Change what stands at a place whose directory there is. -/
def update (f : Tree → Tree) : Place → Tree → Tree
  | [], t => f t
  | x :: p, some (.dir a es) => some (.dir a (updateEntry x (update f p) es))
  | _ :: _, t => t

/-- There is a directory for the place. -/
def HasParent (p : Place) (t : Tree) : Prop :=
  ∀ d x, p = d ++ [x] → ∃ a es, nodeAt d t = some (.dir a es)

section Places
variable {p q : Place} {x : String} {t : Tree} {n : Node} {f g : Tree → Tree}

theorem nodeAt_cons {a : Attrs} {es : List (String × Node)} :
    nodeAt (x :: p) (some (.dir a es)) = nodeAt p (lookup x es) := rfl

theorem update_cons {a : Attrs} {es : List (String × Node)} :
    update f (x :: p) (some (.dir a es)) = some (.dir a (updateEntry x (update f p) es)) := rfl

theorem nodeAt_none : nodeAt p none = none := by
  cases p with
  | nil => rfl
  | cons x p => rfl

theorem nodeAt_append (p q : Place) (t : Tree) : nodeAt (p ++ q) t = nodeAt q (nodeAt p t) := by
  induction p generalizing t with
  | nil => rfl
  | cons x p ih =>
    rcases t with _ | (⟨a, c⟩ | ⟨a, target⟩ | ⟨a, es⟩)
    · exact nodeAt_none.symm
    · exact nodeAt_none.symm
    · exact nodeAt_none.symm
    · exact ih (lookup x es)

theorem nodeAt_concat_of_dir {a : Attrs} {es : List (String × Node)}
    (h : nodeAt p t = some (.dir a es)) : nodeAt (p ++ [x]) t = lookup x es := by
  rw [nodeAt_append, h]
  rfl

theorem dir_of_nodeAt_concat (h : nodeAt (p ++ [x]) t = some n) :
    ∃ a es, nodeAt p t = some (.dir a es) := by
  rw [nodeAt_append] at h
  rcases hp : nodeAt p t with _ | (⟨a, c⟩ | ⟨a, target⟩ | ⟨a, es⟩)
  · rw [hp] at h
    cases h
  · rw [hp] at h
    cases h
  · rw [hp] at h
    cases h
  · exact ⟨a, es, rfl⟩

theorem hasParent_of_nodeAt (h : nodeAt p t = some n) : HasParent p t := by
  intro d x hp
  rw [hp] at h
  exact dir_of_nodeAt_concat h

theorem hasParent_concat {a : Attrs} {es : List (String × Node)}
    (h : nodeAt p t = some (.dir a es)) : HasParent (p ++ [x]) t := by
  intro d y hp
  obtain ⟨hd, -⟩ := List.append_inj' hp rfl
  exact ⟨a, es, by rw [← hd, h]⟩

theorem hasParent_of_cons {a : Attrs} {es : List (String × Node)}
    (h : HasParent (x :: p) (some (.dir a es))) : HasParent p (lookup x es) := by
  intro d y hp
  exact h (x :: d) y (by rw [hp]; rfl)

theorem nodeAt_update_self (h : HasParent p t) : nodeAt p (update f p t) = f (nodeAt p t) := by
  induction p generalizing t with
  | nil => rfl
  | cons x p ih =>
    have hdir : ∃ a es, t = some (.dir a es) := by
      cases p using List.reverseRecOn with
      | nil => exact h [] x rfl
      | append_singleton d y =>
        obtain ⟨a, es, hd⟩ := h (x :: d) y rfl
        rcases t with _ | (⟨a, c⟩ | ⟨a, target⟩ | ⟨a, es⟩)
        · cases hd
        · cases hd
        · cases hd
        · exact ⟨a, es, rfl⟩
    obtain ⟨a, es, ht⟩ := hdir
    rw [ht] at h ⊢
    rw [update_cons, nodeAt_cons, lookup_updateEntry_self, nodeAt_cons]
    exact ih (hasParent_of_cons h)

theorem update_of_fixed (h : f (nodeAt p t) = nodeAt p t) : update f p t = t := by
  induction p generalizing t with
  | nil => exact h
  | cons x p ih =>
    rcases t with _ | (⟨a, c⟩ | ⟨a, target⟩ | ⟨a, es⟩)
    · rfl
    · rfl
    · rfl
    · rw [update_cons, updateEntry_of_fixed (ih h)]

theorem update_update (h : g (nodeAt p t) ≠ none) :
    update f p (update g p t) = update (f ∘ g) p t := by
  induction p generalizing t with
  | nil => rfl
  | cons x p ih =>
    rcases t with _ | (⟨a, c⟩ | ⟨a, target⟩ | ⟨a, es⟩)
    · rfl
    · rfl
    · rfl
    · have hentry : update g p (lookup x es) ≠ none ∨ update f p none = none := by
        cases p with
        | nil => exact .inl h
        | cons y p => exact .inr rfl
      rw [update_cons, update_cons, updateEntry_updateEntry hentry, update_cons]
      have hsame : (update f p ∘ update g p) (lookup x es) = update (f ∘ g) p (lookup x es) := ih h
      unfold updateEntry
      rw [hsame]

theorem update_append : update f (p ++ q) t = update (update f q) p t := by
  induction p generalizing t with
  | nil => rfl
  | cons x p ih =>
    rcases t with _ | (⟨a, c⟩ | ⟨a, target⟩ | ⟨a, es⟩)
    · rfl
    · rfl
    · rfl
    · have hsame : update f (p ++ q) (lookup x es) = update (update f q) p (lookup x es) := ih
      rw [List.cons_append, update_cons, update_cons, updateEntry, updateEntry, hsame]

theorem update_congr (h : f (nodeAt p t) = g (nodeAt p t)) : update f p t = update g p t := by
  induction p generalizing t with
  | nil => exact h
  | cons x p ih =>
    rcases t with _ | (⟨a, c⟩ | ⟨a, target⟩ | ⟨a, es⟩)
    · rfl
    · rfl
    · rfl
    · have hsame : update f p (lookup x es) = update g p (lookup x es) := ih h
      rw [update_cons, update_cons, updateEntry, updateEntry, hsame]

end Places

/-! What the way to a place goes by: the kinds of the nodes and the targets of the links. -/

inductive Shape
  | file
  | link (target : String)
  | dir
  deriving DecidableEq, Repr

def Node.shape : Node → Shape
  | .file _ _ => .file
  | .link _ target => .link target
  | .dir _ _ => .dir

def view (t : Tree) (p : Place) : Option Shape := (nodeAt p t).map Node.shape

/-- What is in `t` is in `t'`, as far as the way to a place goes by it. -/
def Within (t t' : Tree) : Prop := ∀ p s, view t p = some s → view t' p = some s

section View
variable {p q : Place} {x : String} {t t' t'' : Tree} {n n' : Node} {s : Shape}
  {f : Tree → Tree}

theorem view_eq_none_iff : view t p = none ↔ nodeAt p t = none := by
  rw [view, Option.map_eq_none_iff]

theorem view_of_nodeAt (h : nodeAt p t = some n) : view t p = some n.shape := by
  rw [view, h, Option.map_some]

theorem view_eq_dir_iff : view t p = some .dir ↔ ∃ a es, nodeAt p t = some (.dir a es) := by
  rw [view, Option.map_eq_some_iff]
  constructor
  · intro h
    obtain ⟨n, hn, hshape⟩ := h
    rcases n with ⟨a, c⟩ | ⟨a, target⟩ | ⟨a, es⟩
    · cases hshape
    · cases hshape
    · exact ⟨a, es, hn⟩
  · intro h
    obtain ⟨a, es, hn⟩ := h
    exact ⟨.dir a es, hn, rfl⟩

theorem view_append (p q : Place) (t : Tree) : view t (p ++ q) = view (nodeAt p t) q := by
  rw [view, nodeAt_append, view]

/-- What is somewhere is in a directory. -/
theorem view_parent (h : view t (p ++ [x]) ≠ none) : view t p = some .dir := by
  rw [Ne, view_eq_none_iff, ← Ne, Option.ne_none_iff_exists'] at h
  obtain ⟨n, hn⟩ := h
  exact view_eq_dir_iff.2 (dir_of_nodeAt_concat hn)

theorem view_update_of_not_above (h : ¬ p <+: q) : view (update f p t) q = view t q := by
  induction p generalizing t q with
  | nil => exact absurd (List.nil_prefix) h
  | cons x p ih =>
    rcases t with _ | (⟨a, c⟩ | ⟨a, target⟩ | ⟨a, es⟩)
    · rfl
    · rfl
    · rfl
    · cases q with
      | nil => rfl
      | cons y q =>
        rw [update_cons]
        by_cases hxy : y = x
        · rw [hxy]
          have hpq : ¬ p <+: q := by
            intro hpre
            rw [hxy] at h
            exact h ((List.prefix_cons_inj x).2 hpre)
          have hinner := ih (t := lookup x es) hpq
          unfold view at hinner ⊢
          rw [nodeAt_cons, nodeAt_cons, lookup_updateEntry_self]
          exact hinner
        · unfold view
          rw [nodeAt_cons, nodeAt_cons, lookup_updateEntry_ne hxy]

theorem Within.refl (t : Tree) : Within t t := fun _ _ h => h

theorem Within.trans (h : Within t t') (h' : Within t' t'') : Within t t'' :=
  fun p s hp => h' p s (h p s hp)

theorem within_none : Within none t := by
  intro p s h
  rw [view, nodeAt_none] at h
  cases h

theorem within_dir {a a' : Attrs} {es es' : List (String × Node)}
    (h : ∀ x, Within (lookup x es) (lookup x es')) :
    Within (some (.dir a es)) (some (.dir a' es')) := by
  intro p s hp
  cases p with
  | nil => exact hp
  | cons x p => exact h x p s hp

theorem within_update (h : HasParent p t) (hw : Within (f (nodeAt p t)) (nodeAt p t)) :
    Within (update f p t) t := by
  intro q s hq
  by_cases hpre : p <+: q
  · obtain ⟨r, hr⟩ := hpre
    rw [← hr, view_append] at hq ⊢
    rw [nodeAt_update_self h] at hq
    exact hw r s hq
  · rwa [view_update_of_not_above hpre] at hq

theorem update_within (h : HasParent p t) (hw : Within (nodeAt p t) (f (nodeAt p t))) :
    Within t (update f p t) := by
  intro q s hq
  by_cases hpre : p <+: q
  · obtain ⟨r, hr⟩ := hpre
    rw [← hr, view_append] at hq ⊢
    rw [nodeAt_update_self h]
    exact hw r s hq
  · rwa [view_update_of_not_above hpre]

end View

/-! Directories whose names are distinct, none of them being the way up. -/

mutual
def Node.Proper : Node → Prop
  | .file _ _ => True
  | .link _ _ => True
  | .dir _ es => (es.map Prod.fst).Nodup ∧ ".." ∉ es.map Prod.fst ∧ ProperEntries es

def ProperEntries : List (String × Node) → Prop
  | [] => True
  | (_, n) :: es => n.Proper ∧ ProperEntries es
end

def Proper (t : Tree) : Prop := ∀ n, t = some n → n.Proper

section Proper
variable {p : Place} {x : String} {t : Tree} {n : Node} {es : List (String × Node)}
  {f : Tree → Tree}

theorem proper_none : Proper none := fun _ h => nomatch h

theorem proper_some : Proper (some n) ↔ n.Proper :=
  ⟨fun h => h n rfl, fun h _ heq => Option.some.inj heq ▸ h⟩

theorem mem_names_iff : x ∈ es.map Prod.fst ↔ lookup x es ≠ none := by
  induction es with
  | nil => exact iff_of_false List.not_mem_nil (fun h => h rfl)
  | cons e es ih =>
    rw [List.map_cons, List.mem_cons, lookup]
    split_ifs with he
    · exact iff_of_true (.inl he.symm) (Option.some_ne_none _)
    · rw [← ih, or_iff_right (Ne.symm he)]

theorem proper_lookup (h : ProperEntries es) : Proper (lookup x es) := by
  induction es with
  | nil => exact proper_none
  | cons e es ih =>
    rw [lookup]
    split_ifs
    · exact proper_some.2 h.1
    · exact ih h.2

theorem proper_nodeAt (h : Proper t) : Proper (nodeAt p t) := by
  induction p generalizing t with
  | nil => exact h
  | cons x p ih =>
    rcases t with _ | (⟨a, c⟩ | ⟨a, target⟩ | ⟨a, es⟩)
    · exact proper_none
    · exact proper_none
    · exact proper_none
    · exact ih (proper_lookup (proper_some.1 h).2.2)

theorem names_setEntry (h : lookup x es ≠ none) :
    (setEntry x n es).map Prod.fst = es.map Prod.fst := by
  induction es with
  | nil => exact absurd rfl h
  | cons e es ih =>
    rw [lookup] at h
    rw [setEntry]
    split_ifs at h ⊢ with he
    · rw [List.map_cons, List.map_cons, he]
    · rw [List.map_cons, List.map_cons, ih h]

theorem properEntries_setEntry (h : ProperEntries es) (hn : n.Proper) :
    ProperEntries (setEntry x n es) := by
  induction es with
  | nil => exact ⟨hn, trivial⟩
  | cons e es ih =>
    rw [setEntry]
    split_ifs
    · exact ⟨hn, h.2⟩
    · exact ⟨h.1, ih h.2⟩

theorem names_dropEntry_sublist :
    ((dropEntry x es).map Prod.fst).Sublist (es.map Prod.fst) :=
  List.filter_sublist.map Prod.fst

theorem properEntries_dropEntry (h : ProperEntries es) : ProperEntries (dropEntry x es) := by
  induction es with
  | nil => exact h
  | cons e es ih =>
    by_cases he : e.1 = x
    · obtain ⟨y, m⟩ := e
      cases he
      rw [dropEntry_cons_self]
      exact ih h.2
    · rw [dropEntry_cons_ne he]
      exact ⟨h.1, ih h.2⟩

theorem proper_update (h : Proper t) (hp : nodeAt p t ≠ none) (hf : Proper (f (nodeAt p t))) :
    Proper (update f p t) := by
  induction p generalizing t with
  | nil => exact hf
  | cons x p ih =>
    rcases t with _ | (⟨a, c⟩ | ⟨a, target⟩ | ⟨a, es⟩)
    · exact h
    · exact h
    · exact h
    · obtain ⟨hnodup, hup, hes⟩ := proper_some.1 h
      have hinner : Proper (update f p (lookup x es)) := ih (proper_lookup hes) hp hf
      have hx : lookup x es ≠ none := by
        intro hnone
        rw [nodeAt, hnone, nodeAt_none] at hp
        exact hp rfl
      rw [update, proper_some, updateEntry]
      cases hm : update f p (lookup x es) with
      | some m =>
        dsimp only
        refine ⟨?_, ?_, properEntries_setEntry hes (hinner m hm)⟩
        · rwa [names_setEntry hx]
        · rwa [names_setEntry hx]
      | none =>
        exact ⟨hnodup.sublist names_dropEntry_sublist,
          fun hmem => hup (names_dropEntry_sublist.subset hmem), properEntries_dropEntry hes⟩

end Proper

/-! The removal of a tree, which stops at the first thing that is busy. -/

mutual
/-- What is left of a node. -/
def Node.remove : Node → Tree
  | .file a c => if a.busy then some (.file a c) else none
  | .link a target => if a.busy then some (.link a target) else none
  | .dir a es =>
    match removeEntries es with
    | [] => if a.busy then some (.dir a []) else none
    | e :: rest => some (.dir a (e :: rest))

def removeEntries : List (String × Node) → List (String × Node)
  | [] => []
  | (x, n) :: es =>
    match n.remove with
    | none => removeEntries es
    | some n' => (x, n') :: es
end

mutual
/-- Something in it is busy. -/
def Node.stuck : Node → Bool
  | .file a _ => a.busy
  | .link a _ => a.busy
  | .dir a es => a.busy || stuckEntries es

def stuckEntries : List (String × Node) → Bool
  | [] => false
  | (_, n) :: es => n.stuck || stuckEntries es
end

section Equations
variable (a : Attrs) (c : List UInt8) (target x : String) (n : Node) (es : List (String × Node))

theorem Node.remove_file :
    (Node.file a c).remove = if a.busy then some (.file a c) else none := rfl

theorem Node.remove_link :
    (Node.link a target).remove = if a.busy then some (.link a target) else none := rfl

theorem Node.remove_dir : (Node.dir a es).remove = match removeEntries es with
    | [] => if a.busy then some (.dir a []) else none
    | e :: rest => some (.dir a (e :: rest)) := rfl

theorem removeEntries_cons : removeEntries ((x, n) :: es) = match n.remove with
    | none => removeEntries es
    | some n' => (x, n') :: es := rfl

theorem Node.stuck_file : (Node.file a c).stuck = a.busy := rfl

theorem Node.stuck_link : (Node.link a target).stuck = a.busy := rfl

theorem Node.stuck_dir : (Node.dir a es).stuck = (a.busy || stuckEntries es) := rfl

theorem stuckEntries_cons : stuckEntries ((x, n) :: es) = (n.stuck || stuckEntries es) := rfl

end Equations

mutual
theorem Node.remove_of_not_stuck : ∀ n : Node, n.stuck = false → n.remove = none
  | .file a c, h => by
    rw [Node.stuck_file] at h
    rw [Node.remove_file, h, if_neg Bool.false_ne_true]
  | .link a target, h => by
    rw [Node.stuck_link] at h
    rw [Node.remove_link, h, if_neg Bool.false_ne_true]
  | .dir a es, h => by
    rw [Node.stuck_dir, Bool.or_eq_false_iff] at h
    rw [Node.remove_dir, removeEntries_of_not_stuck es h.2, h.1]
    exact if_neg Bool.false_ne_true

theorem removeEntries_of_not_stuck :
    ∀ es : List (String × Node), stuckEntries es = false → removeEntries es = []
  | [], _ => rfl
  | (x, n) :: es, h => by
    rw [stuckEntries_cons, Bool.or_eq_false_iff] at h
    rw [removeEntries_cons, n.remove_of_not_stuck h.1]
    exact removeEntries_of_not_stuck es h.2
end

mutual
/-- What is stuck stays, and stays stuck. -/
theorem Node.stuck_remove : ∀ n : Node, n.stuck = true →
    ∃ n', n.remove = some n' ∧ n'.stuck = true
  | .file a c, h => by
    have hbusy : a.busy = true := h
    exact ⟨.file a c, by rw [Node.remove_file, hbusy, if_pos rfl], h⟩
  | .link a target, h => by
    have hbusy : a.busy = true := h
    exact ⟨.link a target, by rw [Node.remove_link, hbusy, if_pos rfl], h⟩
  | .dir a es, h => by
    rw [Node.stuck_dir, Bool.or_eq_true] at h
    rw [Node.remove_dir]
    cases hrest : removeEntries es with
    | nil =>
      have hbusy : a.busy = true := by
        refine h.resolve_right fun hes => ?_
        have hstuck := stuck_removeEntries es hes
        rw [hrest] at hstuck
        cases hstuck
      dsimp only
      exact ⟨.dir a [], if_pos hbusy, by rw [Node.stuck_dir, hbusy, Bool.true_or]⟩
    | cons e rest =>
      refine ⟨.dir a (e :: rest), rfl, ?_⟩
      rw [Node.stuck_dir, Bool.or_eq_true]
      obtain hbusy | hes := h
      · exact .inl hbusy
      · have hstuck := stuck_removeEntries es hes
        rw [hrest] at hstuck
        exact .inr hstuck

theorem stuck_removeEntries : ∀ es : List (String × Node), stuckEntries es = true →
    stuckEntries (removeEntries es) = true
  | [], h => h
  | (x, n) :: es, h => by
    rw [stuckEntries_cons, Bool.or_eq_true] at h
    rw [removeEntries_cons]
    cases hn : n.remove with
    | none =>
      refine stuck_removeEntries es (h.resolve_left fun hstuck => ?_)
      obtain ⟨n', hn', -⟩ := n.stuck_remove hstuck
      rw [hn] at hn'
      cases hn'
    | some n' =>
      dsimp only
      rw [stuckEntries_cons, Bool.or_eq_true]
      cases hstuck : n.stuck with
      | true =>
        obtain ⟨n'', hn'', hstuck''⟩ := n.stuck_remove hstuck
        rw [hn] at hn''
        rw [Option.some.inj hn'']
        exact .inl hstuck''
      | false =>
        rw [n.remove_of_not_stuck hstuck] at hn
        cases hn
end

theorem names_removeEntries_sublist : ∀ es : List (String × Node),
    ((removeEntries es).map Prod.fst).Sublist (es.map Prod.fst)
  | [] => List.Sublist.refl []
  | (x, n) :: es => by
    rw [removeEntries_cons]
    cases n.remove with
    | none => exact (names_removeEntries_sublist es).cons x
    | some n' => exact List.Sublist.refl _

mutual
theorem Node.proper_remove : ∀ n : Node, n.Proper → Proper n.remove
  | .file a c, h => by
    rw [Node.remove_file]
    split_ifs
    · exact proper_some.2 h
    · exact proper_none
  | .link a target, h => by
    rw [Node.remove_link]
    split_ifs
    · exact proper_some.2 h
    · exact proper_none
  | .dir a es, h => by
    have hes := properEntries_removeEntries es h.2.2
    have hnames := names_removeEntries_sublist es
    rw [Node.remove_dir]
    cases hrest : removeEntries es with
    | nil =>
      dsimp only
      split_ifs
      · exact proper_some.2 ⟨List.nodup_nil, List.not_mem_nil, trivial⟩
      · exact proper_none
    | cons e rest =>
      rw [hrest] at hes hnames
      exact proper_some.2
        ⟨h.1.sublist hnames, fun hmem => h.2.1 (hnames.subset hmem), hes⟩

theorem properEntries_removeEntries : ∀ es : List (String × Node), ProperEntries es →
    ProperEntries (removeEntries es)
  | [], h => h
  | (x, n) :: es, h => by
    have hremove := n.proper_remove h.1
    rw [removeEntries_cons]
    cases hn : n.remove with
    | none => exact properEntries_removeEntries es h.2
    | some n' => exact ⟨hremove n' hn, h.2⟩
end

mutual
/-- A removal leaves nothing that was not there. -/
theorem Node.within_remove : ∀ n : Node, n.Proper → Within n.remove (some n)
  | .file a c, _ => by
    rw [Node.remove_file]
    split_ifs
    · exact Within.refl _
    · exact within_none
  | .link a target, _ => by
    rw [Node.remove_link]
    split_ifs
    · exact Within.refl _
    · exact within_none
  | .dir a es, h => by
    have hes := within_removeEntries es h.1 h.2.2
    rw [Node.remove_dir]
    cases hrest : removeEntries es with
    | nil =>
      rw [hrest] at hes
      dsimp only
      split_ifs
      · exact within_dir hes
      · exact within_none
    | cons e rest =>
      rw [hrest] at hes
      exact within_dir hes

theorem within_removeEntries : ∀ es : List (String × Node), (es.map Prod.fst).Nodup →
    ProperEntries es → ∀ y, Within (lookup y (removeEntries es)) (lookup y es)
  | [], _, _, y => Within.refl _
  | (x, n) :: es, hnodup, h, y => by
    have hremove := n.within_remove h.1
    rw [List.map_cons, List.nodup_cons] at hnodup
    rw [removeEntries_cons]
    cases hn : n.remove with
    | none =>
      dsimp only
      by_cases hxy : x = y
      · have hno : lookup y (removeEntries es) = none := by
          by_contra hne
          have hmem := (names_removeEntries_sublist es).subset (mem_names_iff.2 hne)
          rw [← hxy] at hmem
          exact hnodup.1 hmem
        rw [hno]
        exact within_none
      · have hskip : lookup y ((x, n) :: es) = lookup y es := if_neg hxy
        rw [hskip]
        exact within_removeEntries es hnodup.2 h.2 y
    | some n' =>
      dsimp only
      by_cases hxy : x = y
      · have hnew : lookup y ((x, n') :: es) = some n' := if_pos hxy
        have hold : lookup y ((x, n) :: es) = some n := if_pos hxy
        rw [hnew, hold, ← hn]
        exact hremove
      · have hnew : lookup y ((x, n') :: es) = lookup y es := if_neg hxy
        have hold : lookup y ((x, n) :: es) = lookup y es := if_neg hxy
        rw [hnew, hold]
        exact Within.refl _
end

end FileTree
