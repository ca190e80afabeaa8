import Quantra.System.FileCalls

/-! The entries of `tmpfiles.d`: how one is applied, what it is for, and when it can be met. -/
namespace Quantra.Tmpfiles
open FileTree FileCalls

/-- What the files `passwd` and `group` hold when they are read, if they can be. -/
structure Database where
  passwd : Option String
  group : Option String

def resolveId (content : Option String) (name : String) : Option ℕ :=
  match Text.parseU32 name with
  | some n => some n
  | none => content.bind fun content => (Text.lines content).findSome? fun line =>
      match Text.split ':' line with
      | user :: _ :: id :: _ => if user = name then Text.parseU32 id else none
      | _ => none

def resolveUid (db : Database) (name : String) : Option ℕ := resolveId db.passwd name

def resolveGid (db : Database) (name : String) : Option ℕ := resolveId db.group name

inductive Directive
  | d | D | f | F | L | z | e | r | R
  deriving DecidableEq, Repr

def Directive.name : Directive → String
  | .d => "d"
  | .D => "D"
  | .f => "f"
  | .F => "F"
  | .L => "L"
  | .z => "z"
  | .e => "e"
  | .r => "r"
  | .R => "R"

def Directive.ofName? (ty : String) : Option Directive :=
  [.d, .D, .f, .F, .L, .z, .e, .r, .R].find? fun directive => directive.name = ty

/-- The fields of an entry after its type; the path by its names, from the root. -/
structure Entry where
  path : List String
  mode : Option ℕ
  user : String
  group : String
  arg : Option String

def display (path : List String) : String := "/" ++ "/".intercalate path

def octal (n : ℕ) : String := String.ofList (Nat.toDigits 8 n)

def Entry.uid (db : Database) (e : Entry) : Option ℕ :=
  if e.user = "-" ∨ e.user = "root" then none else resolveUid db e.user

def Entry.gid (db : Database) (e : Entry) : Option ℕ :=
  if e.group = "-" ∨ e.group = "root" then none else resolveGid db e.group

def Entry.chowns (db : Database) (e : Entry) : Bool := (e.uid db).isSome || (e.gid db).isSome

/-- What has become of the tree, and whether an error is reported. -/
abbrev Outcome := Except String Unit × Tree

def applyMode (e : Entry) (t : Tree) : Except String Tree :=
  match e.mode with
  | none => .ok t
  | some m =>
    if (stat t e.path).isNone then .error s!"metadata '{display e.path}'"
    else match setPermissions m t e.path with
      | some t' => .ok t'
      | none => .error s!"chmod '{display e.path}' to {octal m}"

def applyModeOwner (db : Database) (e : Entry) (t : Tree) : Outcome :=
  match applyMode e t with
  | .error err => (.error err, t)
  | .ok t' =>
    if e.chowns db then
      match chown (e.uid db) (e.gid db) t' e.path with
      | some t'' => (.ok (), t'')
      | none => (.error s!"chown '{display e.path}'", t')
    else (.ok (), t')

/-- The removal of what is in a directory, errors apart. -/
def removeEntry (t : Tree) (path : List String) : Tree :=
  if isDir t path then removeDirAll t path else removeFile t path

def removeNames (path names : List String) (t : Tree) : Tree :=
  names.foldl (fun t x => removeEntry t (path ++ [x])) t

def wipeDirectory (t : Tree) (path : List String) : Tree :=
  match stat t path with
  | some (.dir _ es) => removeNames path (es.map Prod.fst) t
  | _ => t

/-- `create_dir_all`, whose failure is reported. -/
def createDirectory (umask : BitVec 12) (db : Database) (e : Entry) (t : Tree) : Outcome :=
  match createDirAll umask t e.path with
  | (true, t') => applyModeOwner db e t'
  | (false, t') => (.error s!"mkdir '{display e.path}'", t')

def applyDirective (umask : BitVec 12) (db : Database) (e : Entry) (t : Tree) :
    Directive → Outcome
  | .d =>
    if pathExists t e.path then applyModeOwner db e t else createDirectory umask db e t
  | .D =>
    if pathExists t e.path then applyModeOwner db e (wipeDirectory t e.path)
    else createDirectory umask db e t
  | .f =>
    if pathExists t e.path then applyModeOwner db e t
    else match writeEmpty umask (makeParent umask t e.path) e.path with
      | some t' => applyModeOwner db e t'
      | none => (.error s!"create file '{display e.path}'", makeParent umask t e.path)
  | .F =>
    match writeEmpty umask (makeParent umask t e.path) e.path with
    | some t' => applyModeOwner db e t'
    | none => (.error s!"truncate file '{display e.path}'", makeParent umask t e.path)
  | .L =>
    match e.arg with
    | none => (.ok (), t)
    | some target =>
      let t' := if pathExists t e.path || (lstat t e.path).isSome then removeFile t e.path else t
      match symlink t' target e.path with
      | some t'' => (.ok (), t'')
      | none => (.error s!"symlink '{display e.path}' → '{target}'", t')
  | .z | .e => if pathExists t e.path then applyModeOwner db e t else (.ok (), t)
  | .r =>
    if isDir t e.path then (.ok (), removeDir t e.path)
    else if pathExists t e.path then (.ok (), removeFile t e.path)
    else (.ok (), t)
  | .R =>
    if isDir t e.path then (.ok (), removeDirAll t e.path)
    else if pathExists t e.path then (.ok (), removeFile t e.path)
    else (.ok (), t)

/-- An unsupported type is skipped. -/
def applyEntry (umask : BitVec 12) (db : Database) (ty : String) (e : Entry) (t : Tree) :
    Outcome :=
  match Directive.ofName? ty with
  | some directive => applyDirective umask db e t directive
  | none => (.ok (), t)

theorem ofName?_name (directive : Directive) :
    Directive.ofName? directive.name = some directive := by
  cases directive with
  | d => rfl
  | D => rfl
  | f => rfl
  | F => rfl
  | L => rfl
  | z => rfl
  | e => rfl
  | r => rfl
  | R => rfl

/-! What an entry is for. -/

/-- The owner of the name: `-` leaves it open. -/
def OwnerIs (named : Option ℕ) (name : String) (id : ℕ) : Prop :=
  if name = "-" then True else if name = "root" then id = 0 else named = some id

/-- The mode and the owner that the entry gives. -/
structure Entry.Given (db : Database) (e : Entry) (a : Attrs) : Prop where
  mode : ∀ m, e.mode = some m → a.mode = BitVec.ofNat 12 m
  user : OwnerIs (resolveUid db e.user) e.user a.uid
  group : OwnerIs (resolveGid db e.group) e.group a.gid

/-- The entry holds after `t` has become `t'`. -/
def Satisfies (db : Database) (e : Entry) (t t' : Tree) : Directive → Prop
  | .d => ∃ a es, stat t' e.path = some (.dir a es) ∧ e.Given db a
  | .D => ∃ a, stat t' e.path = some (.dir a []) ∧ e.Given db a
  | .f => ∃ a c, stat t' e.path = some (.file a c) ∧ e.Given db a
  | .F => ∃ a, stat t' e.path = some (.file a []) ∧ e.Given db a
  | .L => ∃ a target, e.arg = some target ∧ lstat t' e.path = some (.link a target)
  | .z | .e => ∀ n, stat t' e.path = some n → e.Given db n.attrs
  | .r => lstat t' e.path = none ∨
      (∃ a entry es, lstat t e.path = some (.dir a (entry :: es))) ∧ t' = t
  | .R => lstat t' e.path = none

/-! When it is. -/

/-- A change of owner brings the name's id about: `root` is never changed to, and the id of all ones
changes nothing. -/
def Settable (named : Option ℕ) (name : String) (old : ℕ) : Prop :=
  if name = "-" then True
  else if name = "root" then old = 0
  else ∃ n, named = some n ∧ (n = 4294967295 → old = n)

/-- Mode and owner can be given to the node as it is. The mode of what is no directory has to be one
that a change of owner keeps, if there is a change. -/
structure Entry.Fits (db : Database) (e : Entry) (n : Node) : Prop where
  mode : ∀ m, e.mode = some m → e.chowns db → n.shape ≠ .dir →
    killPrivileges (BitVec.ofNat 12 m) = BitVec.ofNat 12 m
  user : Settable (resolveUid db e.user) e.user n.attrs.uid
  group : Settable (resolveGid db e.group) e.group n.attrs.gid

/-- What the path leads to once the directories above it are made, or what is new there. -/
def found (fresh : BitVec 12 → Attrs → Node) (umask : BitVec 12) (t : Tree) (path : List String) :
    Node :=
  let t' := makeParent umask t path
  (stat t' path).getD (fresh umask (above t' path))

/-- A directory without its entries. -/
def emptied (a : Attrs) (p : Place) (t : Tree) : Tree := update (fun _ => some (.dir a [])) p t

/-- The path leads to the same directory when nothing is in the directory. -/
def Reaches (t : Tree) (path : List String) (a : Attrs) : Prop :=
  ∀ p, resolve t true path = .ok p → resolve (emptied a p t) true path = .ok p

/-- The path leads elsewhere when what can be removed of the directory is. -/
def Cut (t : Tree) (path : List String) (a : Attrs) (es : List (String × Node)) : Prop :=
  ∀ p, resolve t false path = .ok p →
    resolve (update (fun _ => some (.dir a (removeEntries es))) p t) false path ≠ .ok p

/-- The state of the tree and the entry are such that the entry will hold. -/
def Meets (umask : BitVec 12) (db : Database) (e : Entry) (t : Tree) : Directive → Prop
  | .d => ∃ a es, found freshDir umask t e.path = .dir a es ∧
      e.Fits db (.dir a es)
  | .D => ∃ a es, found freshDir umask t e.path = .dir a es ∧
      e.Fits db (.dir a es) ∧
      if pathExists t e.path then stuckEntries es = false ∧ Reaches t e.path a else es = []
  | .f | .F => ∃ a c, found freshFile umask t e.path = .file a c ∧
      e.Fits db (.file a c)
  | .L => e.arg ≠ none
  | .z | .e => ∀ n, stat t e.path = some n → e.Fits db n
  | .r =>
    match lstat t e.path with
    | none => True
    | some (.file a _) => a.busy = false
    | some (.link a _) => a.busy = false ∧ pathExists t e.path = true ∧ isDir t e.path = false
    | some (.dir a es) => es = [] → a.busy = false
  | .R =>
    match lstat t e.path with
    | none => True
    | some (.file a _) => a.busy = false
    | some (.link a _) => a.busy = false ∧ pathExists t e.path = true
    | some (.dir a es) => (Node.dir a es).stuck = false ∨ Cut t e.path a es

end Quantra.Tmpfiles
