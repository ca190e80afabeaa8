import Quantra.Lib.PathWalk

/-! The file operations of `std::fs`, by a process with the rights of root, and what they do to the
place of a path. -/
namespace Quantra.FileCalls
open FileTree

/-- `metadata`, which follows links. -/
def stat (t : Tree) (path : List String) : Tree :=
  match resolve t true path with
  | .ok p => nodeAt p t
  | .error _ => none

/-- `symlink_metadata`. -/
def lstat (t : Tree) (path : List String) : Tree :=
  match resolve t false path with
  | .ok p => nodeAt p t
  | .error _ => none

def pathExists (t : Tree) (path : List String) : Bool := (stat t path).isSome

def isDir (t : Tree) (path : List String) : Bool := (stat t path).map Node.shape = some .dir

/-- The attributes of the directory in which a place is. -/
def attrsAbove (t : Tree) (p : Place) : Attrs :=
  match nodeAt p.dropLast t with
  | some n => n.attrs
  | none => ⟨0#12, 0, 0, false⟩

/-- The attributes of what root makes in a directory, which gives its group if it has the
set-group-ID bit. -/
def freshAttrs (mode : BitVec 12) (above : Attrs) : Attrs :=
  ⟨mode, 0, if above.mode &&& 0o2000#12 = 0 then 0 else above.gid, false⟩

/-- A directory has the set-group-ID bit if the one above has it. -/
def freshDir (umask : BitVec 12) (above : Attrs) : Node :=
  .dir (freshAttrs (0o777#12 &&& ~~~umask ||| above.mode &&& 0o2000#12) above) []

def freshFile (umask : BitVec 12) (above : Attrs) : Node :=
  .file (freshAttrs (0o666#12 &&& ~~~umask) above) []

def freshLink (target : String) (above : Attrs) : Node := .link (freshAttrs 0o777#12 above) target

inductive Errno
  | enoent
  | eexist
  | other
  deriving DecidableEq, Repr

def mkdir (umask : BitVec 12) (t : Tree) (path : List String) : Except Errno Tree :=
  match resolve t false path with
  | .error .notFound => .error .enoent
  | .error _ => .error .other
  | .ok p =>
    match nodeAt p t with
    | some _ => .error .eexist
    | none => .ok (update (fun _ => some (freshDir umask (attrsAbove t p))) p t)

/-- `create_dir_all` of the names in reverse; whether it succeeds, and what it has made. -/
def createDirs (umask : BitVec 12) (t : Tree) : List String → Bool × Tree
  | [] => (isDir t [], t)
  | x :: up =>
    match mkdir umask t (x :: up).reverse with
    | .ok t' => (true, t')
    | .error .enoent =>
      let (made, t') := createDirs umask t up
      if made then
        match mkdir umask t' (x :: up).reverse with
        | .ok t'' => (true, t'')
        | .error _ => (isDir t' (x :: up).reverse, t')
      else (false, t')
    | .error _ => (isDir t (x :: up).reverse, t)

def createDirAll (umask : BitVec 12) (t : Tree) (path : List String) : Bool × Tree :=
  createDirs umask t path.reverse

/-- `write` of nothing; none if it fails. -/
def writeEmpty (umask : BitVec 12) (t : Tree) (path : List String) : Option Tree :=
  match resolve t true path with
  | .error _ => none
  | .ok p =>
    match nodeAt p t with
    | none => some (update (fun _ => some (freshFile umask (attrsAbove t p))) p t)
    | some (.file a _) => some (update (fun _ => some (.file a [])) p t)
    | some _ => none

def symlink (t : Tree) (target : String) (path : List String) : Option Tree :=
  if target = "" then none
  else match resolve t false path with
    | .error _ => none
    | .ok p =>
      match nodeAt p t with
      | none => some (update (fun _ => some (freshLink target (attrsAbove t p))) p t)
      | some _ => none

/-- `remove_file(..).ok()`. -/
def removeFile (t : Tree) (path : List String) : Tree :=
  match resolve t false path with
  | .error _ => t
  | .ok p =>
    match nodeAt p t with
    | some (.file a _) => if a.busy then t else update (fun _ => none) p t
    | some (.link a _) => if a.busy then t else update (fun _ => none) p t
    | _ => t

/-- `remove_dir(..).ok()`. -/
def removeDir (t : Tree) (path : List String) : Tree :=
  match resolve t false path with
  | .error _ => t
  | .ok p =>
    match nodeAt p t with
    | some (.dir a []) => if a.busy then t else update (fun _ => none) p t
    | _ => t

/-- `remove_dir_all(..).ok()`: the link itself, or what is in the directory and then the directory
by its path. -/
def removeDirAll (t : Tree) (path : List String) : Tree :=
  match resolve t false path with
  | .error _ => t
  | .ok p =>
    match nodeAt p t with
    | some (.link _ _) => removeFile t path
    | some (.dir a es) =>
      let t' := update (fun _ => some (.dir a (removeEntries es))) p t
      if (removeEntries es).isEmpty then removeDir t' path else t'
    | _ => t

/-! Mode and owner. -/

def mapAttrs (f : Attrs → Attrs) : Node → Node
  | .file a c => .file (f a) c
  | .link a target => .link (f a) target
  | .dir a es => .dir (f a) es

def setMode (mode : ℕ) (n : Node) : Node :=
  mapAttrs (fun a => { a with mode := BitVec.ofNat 12 mode }) n

/-- A change of owner takes the set-user-ID bit of a file, and the set-group-ID bit if its group may
execute it. -/
def killPrivileges (mode : BitVec 12) : BitVec 12 :=
  if mode &&& 0o0010#12 = 0 then mode &&& 0o3777#12 else mode &&& 0o1777#12

/-- The id of all ones leaves the owner as it is. -/
def newId : Option ℕ → ℕ → ℕ
  | some n, old => if n = 4294967295 then old else n
  | none, old => old

def setOwner (uid gid : Option ℕ) : Node → Node
  | .dir a es => .dir { a with uid := newId uid a.uid, gid := newId gid a.gid } es
  | n => mapAttrs (fun a => { a with
      mode := killPrivileges a.mode, uid := newId uid a.uid, gid := newId gid a.gid }) n

/-- A change of what a path leads to; none if there is nothing. -/
def changeNode (f : Node → Node) (t : Tree) (path : List String) : Option Tree :=
  match resolve t true path with
  | .error _ => none
  | .ok p =>
    match nodeAt p t with
    | none => none
    | some n => some (update (fun _ => some (f n)) p t)

def setPermissions (mode : ℕ) (t : Tree) (path : List String) : Option Tree :=
  changeNode (setMode mode) t path

def chown (uid gid : Option ℕ) (t : Tree) (path : List String) : Option Tree :=
  changeNode (setOwner uid gid) t path

/-! What a path leads to. -/

section Stat
variable {t t' : Tree} {path : List String} {p q : Place} {n : Node} {x : String}

theorem stat_of_resolve (h : resolve t true path = .ok p) : stat t path = nodeAt p t := by
  rw [stat, h]

theorem lstat_of_resolve (h : resolve t false path = .ok p) : lstat t path = nodeAt p t := by
  rw [lstat, h]

theorem stat_eq_some_iff :
    stat t path = some n ↔ ∃ p, resolve t true path = .ok p ∧ nodeAt p t = some n := by
  unfold stat
  cases resolve t true path with
  | ok p => simp
  | error e => simp

theorem lstat_eq_some_iff :
    lstat t path = some n ↔ ∃ p, resolve t false path = .ok p ∧ nodeAt p t = some n := by
  unfold lstat
  cases resolve t false path with
  | ok p => simp
  | error e => simp

theorem isDir_iff : isDir t path = true ↔ ∃ a es, stat t path = some (.dir a es) := by
  rw [isDir, decide_eq_true_eq]
  rcases stat t path with _ | (⟨a, c⟩ | ⟨a, target⟩ | ⟨a, es⟩)
  · exact iff_of_false (fun h => nomatch h) fun h => nomatch h
  · exact iff_of_false (fun h => nomatch h) fun h => nomatch h
  · exact iff_of_false (fun h => nomatch h) fun h => nomatch h
  · exact iff_of_true rfl ⟨a, es, rfl⟩

/-- What is no link is found either way. -/
theorem resolve_true_of_ne_link (h : resolve t false path = .ok p)
    (hp : ∀ a target, nodeAt p t ≠ some (.link a target)) : resolve t true path = .ok p := by
  refine resolve_follow h fun target hlink => ?_
  rw [view, Option.map_eq_some_iff] at hlink
  obtain ⟨n, hn, hshape⟩ := hlink
  rcases n with ⟨a, c⟩ | ⟨a, target'⟩ | ⟨a, es⟩
  · cases hshape
  · exact hp a target' hn
  · cases hshape

theorem stat_of_file {a : Attrs} {c : List UInt8} (h : resolve t false path = .ok p)
    (hn : nodeAt p t = some (.file a c)) : stat t path = some (.file a c) := by
  have hfollow : resolve t true path = .ok p := by
    refine resolve_true_of_ne_link h fun b target hlink => ?_
    rw [hn] at hlink
    cases hlink
  rw [stat_of_resolve hfollow, hn]

theorem isDir_of_dir {a : Attrs} {es : List (String × Node)} (h : resolve t false path = .ok p)
    (hn : nodeAt p t = some (.dir a es)) : isDir t path = true := by
  have hfollow : resolve t true path = .ok p := by
    refine resolve_true_of_ne_link h fun b target hlink => ?_
    rw [hn] at hlink
    cases hlink
  exact isDir_iff.2 ⟨a, es, by rw [stat_of_resolve hfollow, hn]⟩

theorem isDir_of_file {a : Attrs} {c : List UInt8} (h : resolve t false path = .ok p)
    (hn : nodeAt p t = some (.file a c)) : isDir t path = false := by
  rw [isDir, stat_of_file h hn]
  rfl

theorem lstat_ne_none_of_stat (h : stat t path ≠ none) : lstat t path ≠ none := by
  intro hnone
  refine h ?_
  unfold lstat at hnone
  cases hresolve : resolve t false path with
  | error e => rw [stat, resolve_error hresolve]
  | ok p =>
    rw [hresolve] at hnone
    have hp : nodeAt p t = none := hnone
    have hfollow : resolve t true path = .ok p := by
      refine resolve_true_of_ne_link hresolve fun a target hlink => ?_
      rw [hp] at hlink
      cases hlink
    rw [stat_of_resolve hfollow, hp]

end Stat

/-! What is made. -/

section Make
variable {t t' : Tree} {path up : List String} {p : Place} {n : Node} {x : String} {b : Bool}
  {umask : BitVec 12}

/-- What is put where nothing was is found there, and all else as before. -/
theorem insert_spec (h : resolve t b path = .ok p) (hp : nodeAt p t = none)
    (hn : b = false ∨ ∀ a target, n ≠ .link a target) :
    nodeAt p (update (fun _ => some n) p t) = some n ∧
      Within t (update (fun _ => some n) p t) ∧
      resolve (update (fun _ => some n) p t) b path = .ok p := by
  have hparent := hasParent_of_resolve h
  have hself : nodeAt p (update (fun _ => some n) p t) = some n := nodeAt_update_self hparent
  have hwithin : Within t (update (fun _ => some n) p t) := by
    refine update_within hparent ?_
    rw [hp]
    exact within_none
  refine ⟨hself, hwithin, resolve_mono h hwithin (.inr (hn.imp_right fun hlink => ?_))⟩
  intro target hview
  rw [view, hself, Option.map_some, Option.some.injEq] at hview
  rcases n with ⟨a, c⟩ | ⟨a, target'⟩ | ⟨a, es⟩
  · cases hview
  · exact hlink a target' rfl
  · cases hview

theorem resolve_true_of_absent (h : resolve t false path = .ok p) (hp : nodeAt p t = none) :
    resolve t true path = .ok p := by
  refine resolve_true_of_ne_link h fun a target hlink => ?_
  rw [hp] at hlink
  cases hlink

theorem stat_of_absent (h : resolve t false path = .ok p) (hp : nodeAt p t = none) :
    stat t path = none := by
  rw [stat_of_resolve (resolve_true_of_absent h hp), hp]

theorem stat_of_error {e : WalkError} (h : resolve t false path = .error e) :
    stat t path = none := by
  rw [stat, resolve_error h]

theorem isDir_of_stat_none (h : stat t path = none) : isDir t path = false := by
  rw [isDir, h]
  rfl

/-- What the directory gives in which the place of a path is. -/
def above (t : Tree) (path : List String) : Attrs :=
  match resolve t true path with
  | .ok p => attrsAbove t p
  | .error _ => ⟨0#12, 0, 0, false⟩

theorem above_of_resolve (h : resolve t true path = .ok p) : above t path = attrsAbove t p := by
  rw [above, h]

/-- The path leads to the node. -/
def LeadsTo (t : Tree) (path : List String) (n : Node) : Prop :=
  ∃ p, resolve t true path = .ok p ∧ nodeAt p t = some n

theorem mkdir_ok (h : mkdir umask t path = .ok t') :
    stat t path = none ∧ LeadsTo t' path (freshDir umask (above t path)) := by
  unfold mkdir at h
  cases hresolve : resolve t false path with
  | error e =>
    rw [hresolve] at h
    cases e with
    | notFound => cases h
    | notDirectory => cases h
    | loop => cases h
  | ok p =>
    rw [hresolve] at h
    dsimp only at h
    cases hp : nodeAt p t with
    | some n =>
      rw [hp] at h
      cases h
    | none =>
      rw [hp] at h
      rw [← Except.ok.inj h]
      have hfollow := resolve_true_of_absent hresolve hp
      obtain ⟨hself, -, hsame⟩ := insert_spec (n := freshDir umask (attrsAbove t p)) hfollow hp
        (.inr fun a target => nofun)
      rw [above_of_resolve hfollow]
      exact ⟨stat_of_absent hresolve hp, p, hsame, hself⟩

theorem resolve_of_mkdir_ok (h : mkdir umask t path = .ok t') :
    ∃ p, resolve t false path = .ok p := by
  unfold mkdir at h
  cases hresolve : resolve t false path with
  | ok p => exact ⟨p, rfl⟩
  | error e =>
    rw [hresolve] at h
    cases e with
    | notFound => cases h
    | notDirectory => cases h
    | loop => cases h

theorem mkdir_of_absent (umask : BitVec 12) (h : resolve t false path = .ok p)
    (hp : nodeAt p t = none) : ∃ t', mkdir umask t path = .ok t' := by
  rw [mkdir, h]
  dsimp only
  rw [hp]
  exact ⟨_, rfl⟩

theorem stat_of_mkdir_enoent (h : mkdir umask t path = .error .enoent) : stat t path = none := by
  unfold mkdir at h
  cases hresolve : resolve t false path with
  | error e => exact stat_of_error hresolve
  | ok p =>
    rw [hresolve] at h
    dsimp only at h
    cases hp : nodeAt p t with
    | some n =>
      rw [hp] at h
      cases h
    | none => exact stat_of_absent hresolve hp

/-- In a directory every name is found, or can be made. -/
theorem mkdir_ne_enoent_of_dir {d : Place} (hx : x ≠ "..") (h : resolve t true up = .ok d)
    (hd : view t d = some .dir) : mkdir umask t (up ++ [x]) ≠ .error .enoent := by
  rw [mkdir, resolve_concat hx h hd]
  dsimp only
  cases nodeAt (d ++ [x]) t with
  | some n => exact fun hno => nomatch hno
  | none => exact fun hno => nomatch hno

/-- Below what is no directory nothing is found. -/
theorem stat_concat_of_not_isDir (h : isDir t up = false) : stat t (up ++ [x]) = none := by
  rw [stat]
  cases hresolve : resolve t true (up ++ [x]) with
  | error e => rfl
  | ok p =>
    obtain ⟨d, hd, hdir⟩ := resolve_init hresolve
    obtain ⟨a, es, hn⟩ := view_eq_dir_iff.1 hdir
    have hup : isDir t up = true := isDir_iff.2 ⟨a, es, stat_eq_some_iff.2 ⟨d, hd, hn⟩⟩
    rw [h] at hup
    cases hup

/-- Either the directory was there, or it is new, or there is none after all. -/
theorem createDirs_cases (umask : BitVec 12) (t : Tree) {names : List String}
    (hnames : ".." ∉ names) :
    (isDir t names.reverse = true ∧ createDirs umask t names = (true, t)) ∨
    (stat t names.reverse = none ∧ ∃ t' a, createDirs umask t names = (true, t') ∧
      LeadsTo t' names.reverse (.dir a [])) ∨
    (isDir t names.reverse = false ∧ ∃ t', createDirs umask t names = (false, t') ∧
      isDir t' names.reverse = false) := by
  induction names generalizing t with
  | nil =>
    rw [createDirs, List.reverse_nil]
    cases hroot : isDir t [] with
    | true => exact .inl ⟨rfl, rfl⟩
    | false => exact .inr (.inr ⟨rfl, t, rfl, hroot⟩)
  | cons x up ih =>
    rw [List.mem_cons, not_or] at hnames
    have hx : x ≠ ".." := Ne.symm hnames.1
    rw [createDirs]
    cases hmkdir : mkdir umask t (x :: up).reverse with
    | ok t' =>
      obtain ⟨hnone, hmade⟩ := mkdir_ok hmkdir
      exact .inr (.inl ⟨hnone, t', _, rfl, hmade⟩)
    | error e =>
      cases e with
      | enoent =>
        have hnone := stat_of_mkdir_enoent hmkdir
        have hno := isDir_of_stat_none hnone
        dsimp only
        obtain ⟨hup, -⟩ | ⟨-, t', a, hcreate, p, hp, hfresh⟩ | ⟨-, t', hcreate, hup⟩ :=
          ih t hnames.2
        · -- the directory above is there: the name cannot be missing
          obtain ⟨a, es, hstat⟩ := isDir_iff.1 hup
          obtain ⟨d, hd, hn⟩ := stat_eq_some_iff.1 hstat
          rw [List.reverse_cons] at hmkdir
          exact absurd hmkdir
            (mkdir_ne_enoent_of_dir hx hd (view_eq_dir_iff.2 ⟨a, es, hn⟩))
        · have hdir : view t' p = some .dir := view_eq_dir_iff.2 ⟨_, _, hfresh⟩
          have hempty : nodeAt (p ++ [x]) t' = none := nodeAt_concat_of_dir hfresh
          obtain ⟨t'', hmade⟩ := mkdir_of_absent umask (resolve_concat hx hp hdir) hempty
          rw [hcreate, List.reverse_cons, hmade, ← List.reverse_cons]
          rw [← List.reverse_cons] at hmade
          exact .inr (.inl ⟨hnone, t'', _, rfl, (mkdir_ok hmade).2⟩)
        · rw [hcreate]
          refine .inr (.inr ⟨hno, t', rfl, ?_⟩)
          rw [List.reverse_cons]
          exact isDir_of_stat_none (stat_concat_of_not_isDir hup)
      | eexist =>
        cases hdir : isDir t (x :: up).reverse with
        | true => exact .inl ⟨rfl, rfl⟩
        | false => exact .inr (.inr ⟨rfl, t, rfl, hdir⟩)
      | other =>
        cases hdir : isDir t (x :: up).reverse with
        | true => exact .inl ⟨rfl, rfl⟩
        | false => exact .inr (.inr ⟨rfl, t, rfl, hdir⟩)

theorem createDirAll_of_isDir (h : isDir t path = true) :
    createDirAll umask t path = (true, t) := by
  have hsome : stat t path ≠ none := by
    intro hnone
    rw [isDir_of_stat_none hnone] at h
    cases h
  unfold createDirAll
  cases hnames : path.reverse with
  | nil =>
    rw [List.reverse_eq_nil_iff] at hnames
    rw [createDirs, ← hnames, h]
  | cons x up =>
    have hpath : (x :: up).reverse = path := by rw [← hnames, List.reverse_reverse]
    rw [createDirs, hpath]
    cases hmkdir : mkdir umask t path with
    | ok t' => exact absurd (mkdir_ok hmkdir).1 hsome
    | error e =>
      cases e with
      | enoent => exact absurd (stat_of_mkdir_enoent hmkdir) hsome
      | eexist => exact congrArg (·, t) h
      | other => exact congrArg (·, t) h

end Make

/-! What is changed in place. -/

/-- The way to all places goes by the two nodes alike. -/
def Alike (n n' : Node) : Prop := ∀ p, view (some n) p = view (some n') p

section Change
variable {t t' : Tree} {path path' : List String} {p q : Place} {n n' : Node} {b : Bool}
  {f : Node → Node}

theorem alike_mapAttrs (g : Attrs → Attrs) (n : Node) : Alike n (mapAttrs g n) := by
  intro p
  rcases n with ⟨a, c⟩ | ⟨a, target⟩ | ⟨a, es⟩
  · cases p with
    | nil => rfl
    | cons x p => rfl
  · cases p with
    | nil => rfl
    | cons x p => rfl
  · cases p with
    | nil => rfl
    | cons x p => rfl

theorem alike_setOwner (uid gid : Option ℕ) (n : Node) : Alike n (setOwner uid gid n) := by
  rcases n with ⟨a, c⟩ | ⟨a, target⟩ | ⟨a, es⟩
  · exact alike_mapAttrs (fun a => { a with
      mode := killPrivileges a.mode, uid := newId uid a.uid, gid := newId gid a.gid }) (.file a c)
  · exact alike_mapAttrs (fun a => { a with
      mode := killPrivileges a.mode, uid := newId uid a.uid, gid := newId gid a.gid })
      (.link a target)
  · exact alike_mapAttrs (fun a => { a with uid := newId uid a.uid, gid := newId gid a.gid })
      (.dir a es)

theorem alike_truncate (a : Attrs) (c : List UInt8) : Alike (.file a c) (.file a []) := by
  intro p
  cases p with
  | nil => rfl
  | cons x p => rfl

theorem Alike.trans {n'' : Node} (h : Alike n n') (h' : Alike n' n'') : Alike n n'' :=
  fun p => (h p).trans (h' p)

/-- A node that is replaced by one alike is found as before, and so is everything. -/
theorem change_spec (hn : nodeAt p t = some n) (h : Alike n n') :
    nodeAt p (update (fun _ => some n') p t) = some n' ∧
      ∀ b path q, resolve t b path = .ok q → view t q ≠ none →
        resolve (update (fun _ => some n') p t) b path = .ok q := by
  have hparent := hasParent_of_nodeAt hn
  refine ⟨nodeAt_update_self hparent, fun b path q hresolve hq => ?_⟩
  refine resolve_within hresolve (update_within hparent ?_) hq
  intro r s hr
  rw [hn] at hr
  rwa [← h r]

theorem changeNode_of_stat (hresolve : resolve t true path = .ok p) (hn : nodeAt p t = some n) :
    changeNode f t path = some (update (fun _ => some (f n)) p t) := by
  rw [changeNode, hresolve]
  dsimp only
  rw [hn]

theorem changeNode_of_stat_none (h : stat t path = none) : changeNode f t path = none := by
  unfold changeNode
  unfold stat at h
  cases hresolve : resolve t true path with
  | error e => rfl
  | ok p =>
    rw [hresolve] at h
    dsimp only at h ⊢
    rw [h]

theorem view_ne_none (h : nodeAt p t = some n) : view t p ≠ none := by
  rw [view_of_nodeAt h]
  exact Option.some_ne_none _

end Change

theorem symlink_eq_some {t t' : Tree} {path : List String} {target : String}
    (h : symlink t target path = some t') : ∃ p, resolve t false path = .ok p ∧
      nodeAt p t = none ∧
      t' = update (fun _ => some (freshLink target (attrsAbove t p))) p t := by
  unfold symlink at h
  split_ifs at h
  cases hresolve : resolve t false path with
  | error e =>
    rw [hresolve] at h
    cases h
  | ok p =>
    rw [hresolve] at h
    dsimp only at h
    cases hn : nodeAt p t with
    | some n =>
      rw [hn] at h
      cases h
    | none =>
      rw [hn] at h
      exact ⟨p, rfl, hn, (Option.some.inj h).symm⟩

/-! Files that are made or truncated. -/

/-- `if let Some(parent) = p.parent() { create_dir_all(parent).ok() }`. -/
def makeParent (umask : BitVec 12) (t : Tree) (path : List String) : Tree :=
  if path = [] then t else (createDirAll umask t path.dropLast).2

section Write
variable {t t' : Tree} {path up : List String} {p : Place} {n : Node} {x : String}
  {umask : BitVec 12}

theorem makeParent_concat_of_isDir (h : isDir t up = true) :
    makeParent umask t (up ++ [x]) = t := by
  rw [makeParent, if_neg (List.append_ne_nil_of_right_ne_nil _ (List.cons_ne_nil _ _)),
    List.dropLast_concat, createDirAll_of_isDir h]

theorem isDir_of_resolve_concat {b : Bool} (h : resolve t b (up ++ [x]) = .ok p) :
    isDir t up = true := by
  obtain ⟨d, hd, hdir⟩ := resolve_init h
  obtain ⟨a, es, hn⟩ := view_eq_dir_iff.1 hdir
  exact isDir_iff.2 ⟨a, es, stat_eq_some_iff.2 ⟨d, hd, hn⟩⟩

theorem makeParent_of_resolve {b : Bool} (h : resolve t b path = .ok p) :
    makeParent umask t path = t := by
  cases path using List.reverseRecOn with
  | nil => exact if_pos rfl
  | append_singleton up x => exact makeParent_concat_of_isDir (isDir_of_resolve_concat h)

theorem makeParent_of_stat (h : stat t path = some n) : makeParent umask t path = t := by
  obtain ⟨p, hresolve, -⟩ := stat_eq_some_iff.1 h
  exact makeParent_of_resolve hresolve

/-- A path without `..` leads to nothing new when the directories above it are made. -/
theorem stat_makeParent (hpath : ".." ∉ path) :
    stat (makeParent umask t path) path = stat t path := by
  cases hstat : stat t path with
  | some n => rw [makeParent_of_stat hstat, hstat]
  | none =>
    cases path using List.reverseRecOn with
    | nil => exact hstat
    | append_singleton up x =>
      rw [List.mem_append, not_or, List.mem_singleton] at hpath
      have hup : ".." ∉ up.reverse := by
        rw [List.mem_reverse]
        exact hpath.1
      rw [makeParent, if_neg (List.append_ne_nil_of_right_ne_nil _ (List.cons_ne_nil _ _)),
        List.dropLast_concat, createDirAll]
      have hcases := createDirs_cases umask t hup
      rw [List.reverse_reverse] at hcases
      obtain ⟨-, hcreate⟩ | ⟨-, t', a, hcreate, d, hd, hfresh⟩ | ⟨-, t', hcreate, hno⟩ := hcases
      · rw [hcreate, hstat]
      · rw [hcreate]
        have hdir : view t' d = some .dir := view_eq_dir_iff.2 ⟨_, _, hfresh⟩
        have hempty : nodeAt (d ++ [x]) t' = none := nodeAt_concat_of_dir hfresh
        exact stat_of_absent (resolve_concat (Ne.symm hpath.2) hd hdir) hempty
      · rw [hcreate]
        exact stat_concat_of_not_isDir hno

/-- Where nothing was, a directory is new, or the directories above it led to it. -/
theorem createDirAll_ok (hnone : stat t path = none)
    (h : createDirAll umask t path = (true, t')) :
    (stat (makeParent umask t path) path = none ∧
        LeadsTo t' path (freshDir umask (above (makeParent umask t path) path))) ∨
      (isDir t' path = true ∧ t' = makeParent umask t path) := by
  have hno := isDir_of_stat_none hnone
  cases path using List.reverseRecOn with
  | nil =>
    rw [createDirAll, List.reverse_nil, createDirs, hno, Prod.mk.injEq] at h
    exact Bool.noConfusion h.1
  | append_singleton up x =>
    rw [createDirAll, List.reverse_concat, createDirs, ← List.reverse_concat,
      List.reverse_reverse] at h
    cases hmkdir : mkdir umask t (up ++ [x]) with
    | ok t₁ =>
      obtain ⟨p, hp⟩ := resolve_of_mkdir_ok hmkdir
      rw [hmkdir, Prod.mk.injEq] at h
      rw [makeParent_of_resolve hp, ← h.2]
      exact .inl ⟨hnone, (mkdir_ok hmkdir).2⟩
    | error e =>
      rw [hmkdir] at h
      cases e with
      | enoent =>
        have hparent : makeParent umask t (up ++ [x]) = (createDirs umask t up.reverse).2 := by
          rw [makeParent, if_neg (List.append_ne_nil_of_right_ne_nil _ (List.cons_ne_nil _ _)),
            List.dropLast_concat, createDirAll]
        rw [hparent]
        dsimp only at h
        cases hup : (createDirs umask t up.reverse).1 with
        | false =>
          rw [hup, if_neg Bool.false_ne_true, Prod.mk.injEq] at h
          exact Bool.noConfusion h.1
        | true =>
          rw [hup, if_pos rfl] at h
          cases hagain : mkdir umask (createDirs umask t up.reverse).2 (up ++ [x]) with
          | ok t₂ =>
            rw [hagain, Prod.mk.injEq] at h
            rw [← h.2]
            exact .inl (mkdir_ok hagain)
          | error e =>
            rw [hagain, Prod.mk.injEq] at h
            rw [← h.2]
            exact .inr ⟨h.1, rfl⟩
      | eexist =>
        rw [hno, Prod.mk.injEq] at h
        exact Bool.noConfusion h.1
      | other =>
        rw [hno, Prod.mk.injEq] at h
        exact Bool.noConfusion h.1

/-- What `write` leaves is an empty file, new or with the attributes of the one that was there. -/
def Written (umask : BitVec 12) (t t' : Tree) (path : List String) : Prop :=
  ∃ a, LeadsTo t' path (.file a []) ∧
    ((stat t path = none ∧ Node.file a [] = freshFile umask (above t path)) ∨
      ∃ c, stat t path = some (.file a c))

theorem writeEmpty_ok (h : writeEmpty umask t path = some t') : Written umask t t' path := by
  unfold writeEmpty at h
  cases hresolve : resolve t true path with
  | error e =>
    rw [hresolve] at h
    cases h
  | ok p =>
    rw [hresolve] at h
    dsimp only at h
    rcases hp : nodeAt p t with _ | (⟨a, c⟩ | ⟨a, target⟩ | ⟨a, es⟩)
    · rw [hp] at h
      rw [← Option.some.inj h]
      obtain ⟨hself, -, hsame⟩ := insert_spec (n := freshFile umask (attrsAbove t p)) hresolve hp
        (.inr fun a target => nofun)
      refine ⟨_, ⟨p, hsame, hself⟩, .inl ⟨?_, ?_⟩⟩
      · rw [stat_of_resolve hresolve, hp]
      · rw [above_of_resolve hresolve, freshFile]
    · rw [hp] at h
      rw [← Option.some.inj h]
      obtain ⟨hself, hsame⟩ := change_spec hp (alike_truncate a c)
      refine ⟨a, ⟨p, hsame _ _ _ hresolve (view_ne_none hp), hself⟩, .inr ⟨c, ?_⟩⟩
      rw [stat_of_resolve hresolve, hp]
    · rw [hp] at h
      cases h
    · rw [hp] at h
      cases h

/-- An empty file that is truncated stays as it is. -/
theorem writeEmpty_of_empty (umask : BitVec 12) {a : Attrs} (hresolve : resolve t true path = .ok p)
    (hp : nodeAt p t = some (.file a [])) : writeEmpty umask t path = some t := by
  rw [writeEmpty, hresolve]
  dsimp only
  rw [hp]
  dsimp only
  rw [update_of_fixed (by rw [hp])]

end Write

/-! What is removed. -/

/-- A removal keeps the directories proper and adds nothing. -/
def Pruned (t t' : Tree) : Prop := Proper t → Proper t' ∧ Within t' t

section Remove
variable {t t' t'' : Tree} {path : List String} {p : Place} {n : Node} {a : Attrs}
  {es : List (String × Node)}

theorem Pruned.refl (t : Tree) : Pruned t t := fun h => ⟨h, Within.refl t⟩

theorem Pruned.trans (h : Pruned t t') (h' : Pruned t' t'') : Pruned t t'' := by
  intro hproper
  obtain ⟨hproper', hwithin⟩ := h hproper
  obtain ⟨hproper'', hwithin'⟩ := h' hproper'
  exact ⟨hproper'', hwithin'.trans hwithin⟩

theorem pruned_none (h : resolve t false path = .ok p) (hn : nodeAt p t = some n) :
    Pruned t (update (fun _ => none) p t) := by
  intro hproper
  refine ⟨proper_update hproper (by rw [hn]; exact Option.some_ne_none n) proper_none, ?_⟩
  exact within_update (hasParent_of_resolve h) within_none

/-- With its entries removed the directory stands as it was. -/
theorem pruned_entries (h : resolve t false path = .ok p) (hn : nodeAt p t = some (.dir a es)) :
    Pruned t (update (fun _ => some (.dir a (removeEntries es))) p t) := by
  intro hproper
  have hdir : (Node.dir a es).Proper := proper_nodeAt hproper _ hn
  obtain ⟨hnodup, hup, hes⟩ := hdir
  have hnames := names_removeEntries_sublist es
  constructor
  · refine proper_update hproper (by rw [hn]; exact Option.some_ne_none _) (proper_some.2 ?_)
    exact ⟨hnodup.sublist hnames, fun hmem => hup (hnames.subset hmem),
      properEntries_removeEntries es hes⟩
  · refine within_update (hasParent_of_resolve h) ?_
    rw [hn]
    exact within_dir (within_removeEntries es hnodup hes)

theorem pruned_removeFile (t : Tree) (path : List String) : Pruned t (removeFile t path) := by
  unfold removeFile
  cases hresolve : resolve t false path with
  | error e => exact Pruned.refl t
  | ok p =>
    dsimp only
    rcases hn : nodeAt p t with _ | (⟨a, c⟩ | ⟨a, target⟩ | ⟨a, es⟩)
    · exact Pruned.refl t
    · dsimp only
      split_ifs
      · exact Pruned.refl t
      · exact pruned_none hresolve hn
    · dsimp only
      split_ifs
      · exact Pruned.refl t
      · exact pruned_none hresolve hn
    · exact Pruned.refl t

theorem pruned_removeDir (t : Tree) (path : List String) : Pruned t (removeDir t path) := by
  unfold removeDir
  cases hresolve : resolve t false path with
  | error e => exact Pruned.refl t
  | ok p =>
    dsimp only
    rcases hn : nodeAt p t with _ | (⟨a, c⟩ | ⟨a, target⟩ | ⟨a, _ | ⟨e, es⟩⟩)
    · exact Pruned.refl t
    · exact Pruned.refl t
    · exact Pruned.refl t
    · dsimp only
      split_ifs
      · exact Pruned.refl t
      · exact pruned_none hresolve hn
    · exact Pruned.refl t

/-- What is left when the entries of the directory are gone, before the directory itself goes. -/
theorem removeDirAll_of_dir (h : resolve t false path = .ok p)
    (hn : nodeAt p t = some (.dir a es)) :
    removeDirAll t path =
      if (removeEntries es).isEmpty then
        removeDir (update (fun _ => some (.dir a (removeEntries es))) p t) path
      else update (fun _ => some (.dir a (removeEntries es))) p t := by
  rw [removeDirAll, h]
  dsimp only
  rw [hn]

theorem removeDirAll_of_link {target : String} (h : resolve t false path = .ok p)
    (hn : nodeAt p t = some (.link a target)) : removeDirAll t path = removeFile t path := by
  rw [removeDirAll, h]
  dsimp only
  rw [hn]

theorem pruned_removeDirAll_entries (h : resolve t false path = .ok p)
    (hn : nodeAt p t = some (.dir a es)) :
    Pruned (update (fun _ => some (.dir a (removeEntries es))) p t) (removeDirAll t path) := by
  rw [removeDirAll_of_dir h hn]
  split_ifs
  · exact pruned_removeDir _ path
  · exact Pruned.refl _

theorem pruned_removeDirAll (t : Tree) (path : List String) :
    Pruned t (removeDirAll t path) := by
  cases hresolve : resolve t false path with
  | error e =>
    rw [removeDirAll, hresolve]
    exact Pruned.refl t
  | ok p =>
    rcases hn : nodeAt p t with _ | (⟨a, c⟩ | ⟨a, target⟩ | ⟨a, es⟩)
    · rw [removeDirAll, hresolve]
      dsimp only
      rw [hn]
      exact Pruned.refl t
    · rw [removeDirAll, hresolve]
      dsimp only
      rw [hn]
      exact Pruned.refl t
    · rw [removeDirAll_of_link hresolve hn]
      exact pruned_removeFile t path
    · exact (pruned_entries hresolve hn).trans (pruned_removeDirAll_entries hresolve hn)

/-- Where less is there, and nothing at the place of the path, the path leads to nothing. -/
theorem lstat_of_within (h : resolve t false path = .ok p) (hw : Within t' t)
    (hp : resolve t' false path = .ok p → nodeAt p t' = none) : lstat t' path = none := by
  unfold lstat
  cases hresolve : resolve t' false path with
  | error e => rfl
  | ok q =>
    by_contra hq
    have hview : view t' q ≠ none := fun hnone => hq (view_eq_none_iff.1 hnone)
    have hsame : resolve t false path = .ok q := resolve_within hresolve hw hview
    rw [h, Except.ok.injEq] at hsame
    rw [hsame] at hp
    exact hq (hp hresolve)

theorem removeFile_eq (h : resolve t false path = .ok p) (hn : nodeAt p t = some n)
    (hdir : n.shape ≠ .dir) : removeFile t path = update (fun _ => n.remove) p t := by
  rw [removeFile, h]
  dsimp only
  rw [hn]
  rcases n with ⟨a, c⟩ | ⟨a, target⟩ | ⟨a, es⟩
  · dsimp only
    rw [Node.remove]
    split_ifs
    · rw [update_of_fixed hn.symm]
    · rfl
  · dsimp only
    rw [Node.remove]
    split_ifs
    · rw [update_of_fixed hn.symm]
    · rfl
  · exact absurd rfl hdir

/-- The whole directory is removed, if the path does not go by what is in it. -/
theorem removeDirAll_eq (h : resolve t false path = .ok p) (hn : nodeAt p t = some (.dir a es))
    (hreach : resolve (update (fun _ => some (.dir a (removeEntries es))) p t) false path =
      .ok p) : removeDirAll t path = update (fun _ => (Node.dir a es).remove) p t := by
  have hparent := hasParent_of_resolve h
  have hself := nodeAt_update_self (f := fun _ => some (.dir a (removeEntries es))) hparent
  rw [removeDirAll_of_dir h hn, Node.remove]
  cases hrest : removeEntries es with
  | cons e rest => rfl
  | nil =>
    rw [hrest] at hreach hself
    rw [removeDir]
    dsimp only [List.isEmpty_nil]
    rw [if_pos rfl, hreach]
    dsimp only
    rw [hself]
    dsimp only
    split_ifs
    · rfl
    · rw [update_update (Option.some_ne_none _)]
      rfl

end Remove

end Quantra.FileCalls
