import Quantra.Lib.FileTree
import Quantra.Lib.Text

/-! The way to the place of a path, through directories and symbolic links. -/
namespace FileTree

inductive WalkError
  | notFound
  | notDirectory
  | loop
  deriving DecidableEq, Repr

/-- The names of a link's target. -/
def components (target : String) : List String :=
  (Text.split '/' target).filter fun c => c ≠ "" ∧ c ≠ "."

/-- Where the target of a link in a directory begins. -/
def startOf (cur : Place) (target : String) : Place :=
  if target.toList.head? = some '/' then [] else cur

/-- Where the names lead from a directory; the last one may name nothing. A link is handed to
`onLink`, unless it is the last name and is not followed. -/
def walkWith (v : Place → Option Shape) (follow : Bool)
    (onLink : Place → List String → Except WalkError Place) :
    Place → List String → Except WalkError Place
  | cur, [] => .ok cur
  | cur, c :: rest =>
    if c = ".." then walkWith v follow onLink cur.dropLast rest
    else match v (cur ++ [c]) with
      | none => if rest = [] then .ok (cur ++ [c]) else .error .notFound
      | some .dir => walkWith v follow onLink (cur ++ [c]) rest
      | some .file => if rest = [] then .ok (cur ++ [c]) else .error .notDirectory
      | some (.link target) =>
        if rest = [] ∧ follow = false then .ok (cur ++ [c])
        else onLink (startOf cur target) (components target ++ rest)

/-- At most so many links are followed. -/
def walk (v : Place → Option Shape) (follow : Bool) :
    ℕ → Place → List String → Except WalkError Place
  | 0 => walkWith v follow fun _ _ => .error .loop
  | n + 1 => walkWith v follow (walk v follow n)

def maxLinks : ℕ := 40

/-- Where a path leads, from the root. -/
def resolve (t : Tree) (follow : Bool) (path : List String) : Except WalkError Place :=
  if view t [] = some .dir then walk (view t) follow maxLinks [] path else .error .notFound

section Walk
variable {v v' : Place → Option Shape} {follow : Bool} {n : ℕ} {cur p d : Place} {c x : String}
  {target : String} {names rest : List String} {e : WalkError}
  {onLink onLink' : Place → List String → Except WalkError Place}

theorem walkWith_nil : walkWith v follow onLink cur [] = .ok cur := rfl

theorem walkWith_up (h : c = "..") :
    walkWith v follow onLink cur (c :: rest) = walkWith v follow onLink cur.dropLast rest :=
  if_pos h

theorem walkWith_name (h : c ≠ "..") : walkWith v follow onLink cur (c :: rest) =
    match v (cur ++ [c]) with
    | none => if rest = [] then .ok (cur ++ [c]) else .error .notFound
    | some .dir => walkWith v follow onLink (cur ++ [c]) rest
    | some .file => if rest = [] then .ok (cur ++ [c]) else .error .notDirectory
    | some (.link target) =>
      if rest = [] ∧ follow = false then .ok (cur ++ [c])
      else onLink (startOf cur target) (components target ++ rest) :=
  if_neg h

theorem walkWith_absent (h : c ≠ "..") (hc : v (cur ++ [c]) = none) :
    walkWith v follow onLink cur (c :: rest) =
      if rest = [] then .ok (cur ++ [c]) else .error .notFound := by
  rw [walkWith_name h, hc]

theorem walkWith_dir (h : c ≠ "..") (hc : v (cur ++ [c]) = some .dir) :
    walkWith v follow onLink cur (c :: rest) = walkWith v follow onLink (cur ++ [c]) rest := by
  rw [walkWith_name h, hc]

theorem walkWith_file (h : c ≠ "..") (hc : v (cur ++ [c]) = some .file) :
    walkWith v follow onLink cur (c :: rest) =
      if rest = [] then .ok (cur ++ [c]) else .error .notDirectory := by
  rw [walkWith_name h, hc]

theorem walkWith_link (h : c ≠ "..") (hc : v (cur ++ [c]) = some (.link target)) :
    walkWith v follow onLink cur (c :: rest) =
      if rest = [] ∧ follow = false then .ok (cur ++ [c])
      else onLink (startOf cur target) (components target ++ rest) := by
  rw [walkWith_name h, hc]

theorem of_loop_eq_ok {P : Prop} (h : (.error .loop : Except WalkError Place) = .ok p) : P := by
  cases h

/-- The place is the same for a walk that sees more, if that does not see a link there that it would
follow. -/
def Settled (v v' : Place → Option Shape) (follow : Bool) (p : Place) : Prop :=
  v p ≠ none ∨ follow = false ∨ ∀ target, v' p ≠ some (.link target)

/-- The last name leads to its own place, where that is settled. -/
theorem walkWith_last (hc : c ≠ "..") (hp : follow = false ∨
    ∀ target, v (cur ++ [c]) ≠ some (.link target)) :
    walkWith v follow onLink cur [c] = .ok (cur ++ [c]) := by
  rcases hv : v (cur ++ [c]) with _ | (_ | target | _)
  · rw [walkWith_absent hc hv, if_pos rfl]
  · rw [walkWith_file hc hv, if_pos rfl]
  · have hno : follow = false := hp.resolve_right fun hlink => hlink target hv
    rw [walkWith_link hc hv, if_pos ⟨rfl, hno⟩]
  · rw [walkWith_dir hc hv, walkWith_nil]

theorem walkWith_mono (hv : ∀ p s, v p = some s → v' p = some s)
    (hon : ∀ cur names, onLink cur names = .ok p → onLink' cur names = .ok p)
    (h : walkWith v follow onLink cur names = .ok p) (hp : Settled v v' follow p) :
    walkWith v' follow onLink' cur names = .ok p := by
  induction names generalizing cur with
  | nil => exact h
  | cons c rest ih =>
    by_cases hup : c = ".."
    · rw [walkWith_up hup] at h ⊢
      exact ih h
    · rcases hc : v (cur ++ [c]) with _ | (_ | target | _)
      · rw [walkWith_absent hup hc] at h
        split_ifs at h with hrest
        rw [Except.ok.injEq] at h
        rw [hrest, ← h]
        refine walkWith_last hup ?_
        rw [h]
        exact hp.resolve_left fun hsome => hsome (by rw [← h, hc])
      · rw [walkWith_file hup hc] at h
        rwa [walkWith_file hup (hv _ _ hc)]
      · rw [walkWith_link hup hc] at h
        rw [walkWith_link hup (hv _ _ hc)]
        split_ifs at h ⊢
        · exact h
        · exact hon _ _ h
      · rw [walkWith_dir hup hc] at h
        rw [walkWith_dir hup (hv _ _ hc)]
        exact ih h

theorem walk_mono (hv : ∀ p s, v p = some s → v' p = some s)
    (h : walk v follow n cur names = .ok p) (hp : Settled v v' follow p) :
    walk v' follow n cur names = .ok p := by
  induction n generalizing cur names with
  | zero => exact walkWith_mono hv (fun _ _ hno => hno) h hp
  | succ n ih => exact walkWith_mono hv (fun _ _ hon => ih hon) h hp

/-- Where a walk that does not follow the last name fails, or comes to no link, following makes no
difference. -/
theorem walkWith_follow {r : Except WalkError Place}
    (hr : ∀ p target, r = .ok p → v p ≠ some (.link target))
    (hon : ∀ cur names, onLink cur names = r → onLink' cur names = r)
    (h : walkWith v false onLink cur names = r) : walkWith v true onLink' cur names = r := by
  induction names generalizing cur with
  | nil => exact h
  | cons c rest ih =>
    by_cases hup : c = ".."
    · rw [walkWith_up hup] at h ⊢
      exact ih h
    · rcases hc : v (cur ++ [c]) with _ | (_ | target | _)
      · rwa [walkWith_absent hup hc] at h ⊢
      · rwa [walkWith_file hup hc] at h ⊢
      · rw [walkWith_link hup hc] at h ⊢
        split_ifs at h with hlast
        · exact absurd hc (hr _ target h.symm)
        · rw [if_neg fun hno => Bool.noConfusion hno.2]
          exact hon _ _ h
      · rw [walkWith_dir hup hc] at h ⊢
        exact ih h

theorem walk_follow {r : Except WalkError Place}
    (hr : ∀ p target, r = .ok p → v p ≠ some (.link target))
    (h : walk v false n cur names = r) : walk v true n cur names = r := by
  induction n generalizing cur names with
  | zero => exact walkWith_follow hr (fun _ _ hno => hno) h
  | succ n ih => exact walkWith_follow hr (fun _ _ hon => ih hon) h

/-- From the directory to which the names lead, one more name leads to its entry. -/
theorem walkWith_concat (hx : x ≠ "..") (hd : v d = some .dir)
    (hon : ∀ cur names, onLink cur names = .ok d → onLink' cur (names ++ [x]) = .ok (d ++ [x]))
    (h : walkWith v true onLink cur names = .ok d) :
    walkWith v false onLink' cur (names ++ [x]) = .ok (d ++ [x]) := by
  induction names generalizing cur with
  | nil =>
    rw [walkWith_nil, Except.ok.injEq] at h
    rw [h]
    exact walkWith_last hx (.inl rfl)
  | cons c rest ih =>
    have hne : rest ++ [x] ≠ [] := List.append_ne_nil_of_right_ne_nil _ (List.cons_ne_nil _ _)
    rw [List.cons_append]
    by_cases hup : c = ".."
    · rw [walkWith_up hup] at h ⊢
      exact ih h
    · rcases hc : v (cur ++ [c]) with _ | (_ | target | _)
      · rw [walkWith_absent hup hc] at h
        split_ifs at h with hrest
        rw [Except.ok.injEq] at h
        rw [h, hd] at hc
        cases hc
      · rw [walkWith_file hup hc] at h
        split_ifs at h with hrest
        rw [Except.ok.injEq] at h
        rw [h, hd] at hc
        cases hc
      · rw [walkWith_link hup hc, if_neg fun hno => Bool.noConfusion hno.2] at h
        rw [walkWith_link hup hc, if_neg fun hno => hne hno.1, ← List.append_assoc]
        exact hon _ _ h
      · rw [walkWith_dir hup hc] at h ⊢
        exact ih h

theorem walk_concat (hx : x ≠ "..") (hd : v d = some .dir)
    (h : walk v true n cur names = .ok d) :
    walk v false n cur (names ++ [x]) = .ok (d ++ [x]) := by
  induction n generalizing cur names with
  | zero =>
    rw [walk] at h ⊢
    exact walkWith_concat hx hd (fun _ _ hno => of_loop_eq_ok hno) h
  | succ n ih => exact walkWith_concat hx hd (fun _ _ hon => ih hon) h

/-- Directories are in directories. -/
def Closed (v : Place → Option Shape) : Prop := ∀ p x, v (p ++ [x]) ≠ none → v p = some .dir

theorem closed_view (t : Tree) : Closed (view t) := fun _ _ h => view_parent h

theorem dir_dropLast (hv : Closed v) (h : v cur = some .dir) : v cur.dropLast = some .dir := by
  cases cur using List.reverseRecOn with
  | nil => exact h
  | append_singleton d y =>
    rw [List.dropLast_concat]
    exact hv d y (by rw [h]; exact Option.some_ne_none _)

theorem dir_startOf (hroot : v [] = some .dir) (h : v cur = some .dir) :
    v (startOf cur target) = some .dir := by
  unfold startOf
  split_ifs
  · exact hroot
  · exact h

/-- The names before the last one lead to a directory, and the last one, unless it is a link that is
followed, to an entry of it. -/
theorem walkWith_init (hv : Closed v) (hroot : v [] = some .dir) (hcur : v cur = some .dir)
    (hon : ∀ cur names p, v cur = some .dir → onLink cur (names ++ [x]) = .ok p →
      ∃ d, onLink' cur names = .ok d ∧ v d = some .dir)
    (h : walkWith v follow onLink cur (names ++ [x]) = .ok p) :
    ∃ d, walkWith v true onLink' cur names = .ok d ∧ v d = some .dir := by
  induction names generalizing cur with
  | nil => exact ⟨cur, rfl, hcur⟩
  | cons c rest ih =>
    have hne : rest ++ [x] ≠ [] := List.append_ne_nil_of_right_ne_nil _ (List.cons_ne_nil _ _)
    rw [List.cons_append] at h
    by_cases hup : c = ".."
    · rw [walkWith_up hup] at h ⊢
      exact ih (dir_dropLast hv hcur) h
    · rcases hc : v (cur ++ [c]) with _ | (_ | target | _)
      · rw [walkWith_absent hup hc, if_neg hne] at h
        cases h
      · rw [walkWith_file hup hc, if_neg hne] at h
        cases h
      · rw [walkWith_link hup hc, if_neg fun hno => hne hno.1, ← List.append_assoc] at h
        rw [walkWith_link hup hc, if_neg fun hno => Bool.noConfusion hno.2]
        exact hon _ _ _ (dir_startOf hroot hcur) h
      · rw [walkWith_dir hup hc] at h ⊢
        exact ih hc h

theorem walk_init (hv : Closed v) (hroot : v [] = some .dir) (hcur : v cur = some .dir)
    (h : walk v follow n cur (names ++ [x]) = .ok p) :
    ∃ d, walk v true n cur names = .ok d ∧ v d = some .dir := by
  induction n generalizing cur names p with
  | zero =>
    rw [walk] at h ⊢
    exact walkWith_init hv hroot hcur (fun _ _ _ _ hno => of_loop_eq_ok hno) h
  | succ n ih => exact walkWith_init hv hroot hcur (fun _ _ _ hdir hon => ih hdir hon) h

/-- A place where nothing is has a directory. -/
theorem walkWith_parent (hv : Closed v) (hroot : v [] = some .dir) (hcur : v cur = some .dir)
    (hon : ∀ cur names, v cur = some .dir → onLink cur names = .ok p →
      ∃ d y, p = d ++ [y] ∧ v d = some .dir)
    (h : walkWith v follow onLink cur names = .ok p) (hp : v p = none) :
    ∃ d y, p = d ++ [y] ∧ v d = some .dir := by
  induction names generalizing cur with
  | nil =>
    rw [walkWith_nil, Except.ok.injEq] at h
    rw [← h, hcur] at hp
    cases hp
  | cons c rest ih =>
    by_cases hup : c = ".."
    · rw [walkWith_up hup] at h
      exact ih (dir_dropLast hv hcur) h
    · rcases hc : v (cur ++ [c]) with _ | (_ | target | _)
      · rw [walkWith_absent hup hc] at h
        split_ifs at h with hrest
        rw [Except.ok.injEq] at h
        exact ⟨cur, c, h.symm, hcur⟩
      · rw [walkWith_file hup hc] at h
        split_ifs at h with hrest
        rw [Except.ok.injEq] at h
        exact ⟨cur, c, h.symm, hcur⟩
      · rw [walkWith_link hup hc] at h
        split_ifs at h with hlast
        · rw [Except.ok.injEq] at h
          exact ⟨cur, c, h.symm, hcur⟩
        · exact hon _ _ (dir_startOf hroot hcur) h
      · rw [walkWith_dir hup hc] at h
        exact ih hc h

theorem walk_parent (hv : Closed v) (hroot : v [] = some .dir) (hcur : v cur = some .dir)
    (h : walk v follow n cur names = .ok p) (hp : v p = none) :
    ∃ d y, p = d ++ [y] ∧ v d = some .dir := by
  induction n generalizing cur names with
  | zero =>
    rw [walk] at h
    exact walkWith_parent hv hroot hcur (fun _ _ _ hno => of_loop_eq_ok hno) h hp
  | succ n ih => exact walkWith_parent hv hroot hcur (fun _ _ hdir hon => ih hdir hon) h hp

end Walk

/-! The same for paths. -/

section Resolve
variable {t t' : Tree} {follow : Bool} {p d : Place} {x : String} {path : List String}
  {e : WalkError}

theorem resolve_eq_ok_iff : resolve t follow path = .ok p ↔
    view t [] = some .dir ∧ walk (view t) follow maxLinks [] path = .ok p := by
  unfold resolve
  split_ifs with hroot
  · rw [and_iff_right hroot]
  · simp [hroot]

theorem resolve_mono (h : resolve t follow path = .ok p) (hw : Within t t')
    (hp : Settled (view t) (view t') follow p) : resolve t' follow path = .ok p := by
  rw [resolve_eq_ok_iff] at h ⊢
  exact ⟨hw _ _ h.1, walk_mono hw h.2 hp⟩

/-- What is seen does not change if more is there. -/
theorem resolve_within (h : resolve t follow path = .ok p) (hw : Within t t')
    (hp : view t p ≠ none) : resolve t' follow path = .ok p :=
  resolve_mono h hw (.inl hp)

theorem resolve_follow (h : resolve t false path = .ok p)
    (hp : ∀ target, view t p ≠ some (.link target)) : resolve t true path = .ok p := by
  rw [resolve_eq_ok_iff] at h ⊢
  refine ⟨h.1, walk_follow (fun q target hq => ?_) h.2⟩
  rw [← Except.ok.inj hq]
  exact hp target

theorem resolve_error (h : resolve t false path = .error e) : resolve t true path = .error e := by
  unfold resolve at h ⊢
  split_ifs at h ⊢
  · exact walk_follow (fun q target hq => by cases hq) h
  · exact h

theorem resolve_concat (hx : x ≠ "..") (h : resolve t true path = .ok d)
    (hd : view t d = some .dir) : resolve t false (path ++ [x]) = .ok (d ++ [x]) := by
  rw [resolve_eq_ok_iff] at h ⊢
  exact ⟨h.1, walk_concat hx hd h.2⟩

theorem resolve_init (h : resolve t follow (path ++ [x]) = .ok p) :
    ∃ d, resolve t true path = .ok d ∧ view t d = some .dir := by
  rw [resolve_eq_ok_iff] at h
  obtain ⟨d, hwalk, hd⟩ := walk_init (closed_view t) h.1 h.1 h.2
  exact ⟨d, resolve_eq_ok_iff.2 ⟨h.1, hwalk⟩, hd⟩

theorem hasParent_of_resolve (h : resolve t follow path = .ok p) : HasParent p t := by
  rw [resolve_eq_ok_iff] at h
  by_cases hp : view t p = none
  · obtain ⟨d, y, hpd, hd⟩ := walk_parent (closed_view t) h.1 h.1 h.2 hp
    obtain ⟨a, es, hdir⟩ := view_eq_dir_iff.1 hd
    rw [hpd]
    exact hasParent_concat hdir
  · rw [view_eq_none_iff, ← Ne, Option.ne_none_iff_exists'] at hp
    obtain ⟨n, hn⟩ := hp
    exact hasParent_of_nodeAt hn

end Resolve

end FileTree
