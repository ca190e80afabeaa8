import Quantra.Lib.Effects
import Quantra.Lib.Text

/-! `switch.rs` and the part of `main` around it: from the mount of the root to the `execv` of the
init binary. -/
namespace Quantra.Switch
open Effects

inductive RdBreak
  | preMount
  | preOverlay
  | prePivot
  deriving DecidableEq, Repr

/-- The parameters that this part of the boot reads. -/
structure Cmdline where
  init : Option String := none
  rdBreak : Option RdBreak := none
  rdShell : Bool := false
  rdRescue : Bool := false
  deriving DecidableEq, Repr

/-- `str::split_whitespace`. -/
def splitWhitespace (s : String) : List String :=
  ((s.toList.splitOnP Text.isWhitespace).filter (· ≠ [])).map String.ofList

/-- One word of the command line; the last of several `init=` counts. -/
def parseToken (c : Cmdline) (tok : String) : Cmdline :=
  match Text.dropLead "init=" tok with
  | some v => { c with init := some v }
  | none =>
    match Text.dropLead "rd.break=" tok with
    | some v =>
      if v = "pre-mount" then { c with rdBreak := some .preMount }
      else if v = "pre-overlay" then { c with rdBreak := some .preOverlay }
      else if v = "pre-pivot" then { c with rdBreak := some .prePivot }
      else c
    | none =>
      if tok = "rd.shell" then { c with rdShell := true }
      else if tok = "rd.rescue" ∨ tok = "single" ∨ tok = "s" then { c with rdRescue := true }
      else c

def parse (raw : String) : Cmdline := (splitWhitespace raw).foldl parseToken {}

def overlayDisabledByCmdline (raw : String) : Bool :=
  (splitWhitespace raw).contains "zainium.overlay=off"

def mountTargets : List String := ["/zairoot", "/mnt/root", "/sysroot", "/newroot"]

def initFallbacks : List String :=
  ["/overlayer/syshub/engine/quantra", "/overlayer/syshub/engine/s6-quantra", "/sbin/init",
    "/usr/lib/systemd/systemd", "/lib/systemd/systemd", "/usr/sbin/init",
    "/overlayer/syshub/bin/fish", "/overlayer/syshub/bin/bash", "/overlayer/syshub/bin/zsh",
    "/overlayer/syshub/bin/sh"]

def mountMoveOrder : List String := ["/dev", "/proc", "/sys", "/run"]

/-- The paths that exist. -/
abbrev Paths := String → Bool

/-- A computation on the file system that may fail. -/
abbrev Fs (α : Type) := Eff Paths String α

/-- The path is the directory `dir` or lies in it. -/
def within (dir path : String) : Bool := path = dir || (dir ++ "/").toList.isPrefixOf path.toList

/-- What the kernel does at the calls of this part of the boot, each of which may fail. A directory
that was created exists, and so do those it lies in; a mount that is not moved changes only what
lies in its target. -/
structure Kernel where
  createDirAll : String → Fs Unit
  mount : (source target options : String) → Fs Unit
  mountRootAt : (target : String) → Fs Unit
  chdir : String → Fs Unit
  pivotRoot : (newRoot putOld : String) → Fs Unit
  chroot : String → Fs Unit
  created : ∀ {path dir}, within dir path →
    Triple (fun _ => True) (createDirAll path) (fun _ fs => fs dir) fun _ _ => True
  createDirAll_keeps : ∀ {path p},
    Triple (fun fs => fs p) (createDirAll path) (fun _ fs => fs p) fun _ fs => fs p
  mount_keeps : ∀ {source target options p}, options ≠ "move" →
    p = target ∨ within target p = false →
    Triple (fun fs => fs p) (mount source target options) (fun _ fs => fs p) fun _ fs => fs p
  mountRootAt_keeps : ∀ {target},
    Triple (fun fs => fs target) (mountRootAt target) (fun _ fs => fs target) fun _ fs => fs target

def exists_ (path : String) : Fs Bool := return (← get) path

section Boot
variable (k : Kernel)

/-! `overlay.rs`. -/

def createDirs (text : String → String) : List String → Fs Unit
  | [] => pure ()
  | dir :: rest => do
    mapErr (fun e => text dir ++ ": " ++ e) (k.createDirAll dir)
    createDirs text rest

def bindPersistentDir (zairoot name : String) : Fs Unit := do
  let src := zairoot ++ "/" ++ name
  let dest := "/new_root/" ++ name
  if ← exists_ src then
    ignore (k.createDirAll dest)
    mapErr (fun e => "bind mount /" ++ name ++ ": '" ++ src ++ "' → '" ++ dest ++ "': " ++ e)
      (k.mount src dest "bind")

def newRootDir : String := "/new_root"

def mergedDir : String := "/new_root/overlayer/syshub"

/-- The directories of the root around the overlay. -/
def rootDirs : List String := ["home", "root", "dev", "proc", "sys", "tmp"].map ("/new_root/" ++ ·)

def overlayOptions (zairoot : String) : String :=
  "lowerdir=" ++ zairoot ++ "/overlayer/syshub:" ++ zairoot ++ "/overlayer/zaisys,upperdir=" ++
    zairoot ++ "/overlayer/zexlib/union,workdir=" ++ zairoot ++ "/overlayer/zexlib/work"

def mountOverlay (zairoot : String) : Fs String := do
  if ← exists_ (zairoot ++ "/overlayer/syshub") then
    createDirs k (fun dir => "create overlay dir '" ++ dir ++ "'")
      [zairoot ++ "/overlayer/zexlib/union", zairoot ++ "/overlayer/zexlib/work"]
    createDirs k ("create " ++ ·) (mergedDir :: rootDirs)
    mapErr (fun e => "OverlayFS mount failed: " ++ e ++ " — is the 'overlay' kernel module loaded?")
      (k.mount "overlay" mergedDir (overlayOptions zairoot))
    bindPersistentDir k zairoot "home"
    bindPersistentDir k zairoot "root"
    return newRootDir
  else
    throw ("syshub not found in '" ++ zairoot ++
      "' — not a Zainium disk (overlayer/syshub missing)")

/-! `switch.rs`. -/

structure BootTarget where
  mountPoint : String
  initPath : String
  deriving DecidableEq, Repr

/-- The first target that can be created. -/
def createTarget : List String → Fs (Option String)
  | [] => pure none
  | target :: rest => do
    if ← succeeds (k.createDirAll target) then return some target else createTarget rest

def findMountTarget : Fs (Option String) := do
  match ← createTarget k mountTargets with
  | some target => return some target
  | none => return mountTargets.find? (← get)

def findInitBinary (fs : Paths) (newRoot : String) : Option String :=
  initFallbacks.find? fun candidate => fs (newRoot ++ candidate)

/-- `MOUNT_TARGETS` is asked again, for what exists by now. -/
def mountPoint (fs : Paths) : String := (mountTargets.find? fs).getD "/zairoot"

/-- An `init=` that is none of the known paths becomes the first of them. -/
def discoverBootTarget (fs : Paths) (cmdline : Cmdline) (newRoot : String) : BootTarget :=
  let discovered := ⟨mountPoint fs, (findInitBinary fs newRoot).getD "/bin/sh"⟩
  match cmdline.init with
  | some init =>
    if fs (newRoot ++ init) then
      ⟨mountPoint fs,
        (initFallbacks.find? (· = init)).getD "/overlayer/syshub/engine/quantra"⟩
    else discovered
  | none => discovered

def rescueShells : List String :=
  ["/overlayer/syshub/bin/bash", "/overlayer/syshub/bin/sh", "/overlayer/syshub/bin/fish",
    "/overlayer/syshub/bin/zsh"]

def rescueShell (fs : Paths) : String :=
  ((initFallbacks.filter rescueShells.contains).find? fun p => fs (newRootDir ++ p)).getD
    "/overlayer/syshub/bin/sh"

def rescueBootTarget (fs : Paths) : BootTarget := ⟨mountPoint fs, rescueShell fs⟩

def moveMounts (newRoot : String) : List String → Fs Unit
  | [] => pure ()
  | mp :: rest => do
    let dest := newRoot ++ mp
    ignore (k.createDirAll dest)
    mapErr (fun e => "MS_MOVE " ++ mp ++ " → " ++ dest ++ ": " ++ e) (k.mount mp dest "move")
    moveMounts newRoot rest

/-- Up to the `execv`: the root that it happens in, and the path that it is given. -/
def pivotToRoot (target : BootTarget) : Fs (String × String) := do
  let newRoot := if ← exists_ newRootDir then newRootDir else target.mountPoint
  moveMounts k newRoot mountMoveOrder
  mapErr (fun e => "chdir " ++ newRoot ++ ": " ++ e) (k.chdir newRoot)
  let oldRoot := newRoot ++ "/.old_root"
  ignore (k.createDirAll oldRoot)
  if ← succeeds (k.pivotRoot newRoot oldRoot) then
    mapErr (fun e => "chdir / post-pivot: " ++ e) (k.chdir "/")
  else
    mapErr (fun e => "chroot " ++ newRoot ++ ": " ++ e) (k.chroot newRoot)
    mapErr (fun e => "chdir / post-chroot: " ++ e) (k.chdir "/")
  return (newRoot, target.initPath)

/-! `main.rs`. -/

/-- What the boot has come to when it hands over: the mount of the root, whether the overlay is
mounted, the paths when the target was chosen, what was measured, and what is executed where. -/
structure Handover where
  zairoot : String
  overlay : Bool
  newRoot : String
  fs : Paths
  measured : String
  root : String
  init : String

/-- The overlay, or the root itself if it is disabled or fails. -/
def chooseRoot (raw zairoot : String) : Fs (Bool × String) :=
  if overlayDisabledByCmdline raw then pure (false, zairoot)
  else tryCatch (do return (true, ← mountOverlay k zairoot)) fun _ => pure (false, zairoot)

def chooseTarget (cmdline : Cmdline) (newRoot : String) (fs : Paths) : BootTarget :=
  if cmdline.rdRescue then rescueBootTarget fs else discoverBootTarget fs cmdline newRoot

/-- From the choice of the root on. -/
def handOver (raw zairoot : String) : Fs Handover := do
  let (overlay, newRoot) ← chooseRoot k raw zairoot
  let fs ← get
  let target := chooseTarget (parse raw) newRoot fs
  if (parse raw).rdBreak = some .prePivot then throw "rd.break=pre-pivot"
  else
    let (root, init) ← pivotToRoot k target
    return ⟨zairoot, overlay, newRoot, fs, newRoot ++ target.initPath, root, init⟩

/-- From the mount of the root to the `execv`. The emergency shell does not come back. -/
def main (raw : String) : Fs Handover := do
  if (parse raw).rdShell then throw "rd.shell"
  else if (parse raw).rdBreak = some .preMount then throw "rd.break=pre-mount"
  else
    match ← findMountTarget k with
    | none => throw "no mount target"
    | some zairoot =>
      k.mountRootAt zairoot
      if (parse raw).rdBreak = some .preOverlay then throw "rd.break=pre-overlay"
      else handOver k raw zairoot

end Boot

/-- What is measured is executed, and an `init=` that exists is. -/
structure MeasuredRuns (raw : String) (h : Handover) : Prop where
  measured : h.root ++ h.init = h.measured
  honoured : ∀ init, (parse raw).init = some init → h.fs (h.newRoot ++ init) → h.init = init

/-- The overlay is mounted, or there is no `/new_root` and no mount target before the one in use. An
`init=` that exists is a known path, or the rescue shell if that is asked for. -/
structure ChoicesAgree (raw : String) (h : Handover) : Prop where
  root : h.overlay ∨
    (h.fs newRootDir = false ∧ ∀ t ∈ mountTargets.takeWhile (· ≠ h.zairoot), h.fs t = false)
  init : ∀ init, (parse raw).init = some init → h.fs (h.newRoot ++ init) →
    if (parse raw).rdRescue then init = rescueShell h.fs else init ∈ initFallbacks

section Kept
variable {k : Kernel} {p zairoot name text : String}

/-- The computation leaves the path in place. -/
def Keeps {α : Type} (p : String) (x : Fs α) : Prop :=
  Triple (fun fs => fs p) x (fun _ fs => fs p) fun _ fs => fs p

theorem keeps_pure {α : Type} (a : α) : Keeps p (pure a : Fs α) := triple_pure fun _ h => h

theorem keeps_throw {α : Type} (e : String) : Keeps p (throw e : Fs α) := triple_throw fun _ h => h

theorem keeps_bind {α β : Type} {x : Fs α} {f : α → Fs β} (hx : Keeps p x)
    (hf : ∀ a, Keeps p (f a)) : Keeps p (x >>= f) :=
  triple_bind hx hf

theorem keeps_mapErr {α : Type} {x : Fs α} {f : String → String} (hx : Keeps p x) :
    Keeps p (mapErr f x) :=
  triple_mapErr hx fun _ _ h => h

theorem keeps_exists (path : String) : Keeps p (exists_ path) :=
  triple_bind (triple_get (Q := fun _ fs => fs p) fun _ h => h) fun _ => triple_pure fun _ h => h

theorem overlayOptions_ne_move (zairoot : String) : overlayOptions zairoot ≠ "move" := by
  intro h
  have hlength : (overlayOptions zairoot).length = 4 := by rw [h]; rfl
  have hfirst : "lowerdir=".length = 9 := rfl
  unfold overlayOptions at hlength
  repeat rw [String.length_append] at hlength
  omega

theorem keeps_createDirs {text : String → String} (dirs : List String) : Keeps p (createDirs k text dirs) := by
  induction dirs with
  | nil => exact keeps_pure _
  | cons dir dirs ih => exact keeps_bind (keeps_mapErr k.createDirAll_keeps) fun _ => ih

/-- A mount in `/new_root` hides nothing outside of it. -/
theorem keeps_bindPersistentDir (h : within ("/new_root/" ++ name) p = false) :
    Keeps p (bindPersistentDir k zairoot name) := by
  refine keeps_bind (keeps_exists _) fun there => triple_ite (fun _ => ?_) fun _ => keeps_pure _
  exact keeps_bind (triple_ignore k.createDirAll_keeps) fun _ =>
    keeps_mapErr (k.mount_keeps (by decide) (.inr h))

theorem keeps_mountOverlay (hmerged : within mergedDir p = false)
    (hhome : within ("/new_root/" ++ "home") p = false)
    (hroot : within ("/new_root/" ++ "root") p = false) : Keeps p (mountOverlay k zairoot) := by
  refine keeps_bind (keeps_exists _) fun there => triple_ite (fun _ => ?_) fun _ => keeps_throw _
  refine keeps_bind (keeps_createDirs _) fun _ => keeps_bind (keeps_createDirs _) fun _ => ?_
  refine keeps_bind (keeps_mapErr (k.mount_keeps (overlayOptions_ne_move _) (.inr hmerged))) fun _ => ?_
  refine keeps_bind (keeps_bindPersistentDir hhome) fun _ => ?_
  exact keeps_bind (keeps_bindPersistentDir hroot) fun _ => keeps_pure _

/-- An overlay that is mounted lies in a `/new_root` that exists. -/
theorem mountOverlay_spec : Triple (fun _ => True) (mountOverlay k zairoot)
    (fun r fs => r = newRootDir ∧ fs newRootDir) fun _ _ => True := by
  have hall : ∀ {α : Type} {x : Fs α}, Keeps newRootDir x →
      Triple (fun fs => fs newRootDir) x (fun _ fs => fs newRootDir) fun _ _ => True :=
    fun h => h.mono (fun _ h => h) (fun _ _ h => h) fun _ _ _ => trivial
  have hmerged : Triple (fun _ => True) (createDirs k ("create " ++ ·) (mergedDir :: rootDirs))
      (fun _ fs => fs newRootDir) fun _ _ => True :=
    triple_bind (triple_mapErr (k.created (by decide)) fun _ _ _ => trivial) fun _ =>
      hall (keeps_createDirs _)
  refine triple_bind (triple_true _) fun there => triple_ite (fun _ => ?_) fun _ =>
    triple_throw fun _ h => h
  refine triple_bind (triple_true _) fun _ => triple_bind hmerged fun _ => ?_
  have hmount : Keeps newRootDir (k.mount "overlay" mergedDir (overlayOptions zairoot)) :=
    k.mount_keeps (overlayOptions_ne_move zairoot) (.inr (by decide))
  refine triple_bind (hall (keeps_mapErr hmount)) fun _ => ?_
  refine triple_bind (hall (keeps_bindPersistentDir (by decide))) fun _ => ?_
  refine triple_bind (hall (keeps_bindPersistentDir (by decide))) fun _ => ?_
  exact triple_pure fun fs h => ⟨rfl, h⟩

theorem createTarget_spec (targets : List String) :
    Triple (fun _ => True) (createTarget k targets)
      (fun r fs => ∀ z, r = some z → z ∈ targets ∧ fs z) fun _ _ => True := by
  induction targets with
  | nil => exact triple_pure fun _ _ z hz => by cases hz
  | cons target rest ih =>
    have hhere : within target target := by
      unfold within
      simp
    refine triple_bind (triple_succeeds (S := fun ok fs => ok → fs target) ?_) fun ok => ?_
    · exact (k.created hhere).mono (fun _ h => h) (fun _ _ h _ => h) fun _ _ _ h => by cases h
    · refine triple_ite (fun hok => ?_) fun _ => ?_
      · refine triple_pure fun fs h z hz => ?_
        cases hz
        exact ⟨List.mem_cons_self, h hok⟩
      · refine ih.mono (fun _ _ => trivial) (fun r fs h z hz => ?_) fun _ _ _ => trivial
        exact ⟨List.mem_cons_of_mem _ (h z hz).1, (h z hz).2⟩

theorem findMountTarget_spec : Triple (fun _ => True) (findMountTarget k)
    (fun r fs => ∀ z, r = some z → z ∈ mountTargets ∧ fs z) fun _ _ => True := by
  refine triple_bind (createTarget_spec _) fun r => ?_
  cases r with
  | some target => exact triple_pure fun fs h z hz => h z hz
  | none =>
    refine triple_bind (triple_get (Q := fun r fs => r = fs) fun _ _ => rfl) fun seen => ?_
    refine triple_pure fun fs h z hz => ?_
    subst h
    exact ⟨List.mem_of_find?_eq_some hz, List.find?_some hz⟩

theorem chooseRoot_spec {raw : String} (hz : zairoot ∈ mountTargets) :
    Triple (fun fs => fs zairoot) (chooseRoot k raw zairoot)
      (fun r fs => fs zairoot ∧ (r.1 → r.2 = newRootDir ∧ fs newRootDir) ∧
        (r.1 = false → r.2 = zairoot)) fun _ _ => True := by
  have hmerged : ∀ z ∈ mountTargets, within mergedDir z = false := by decide
  have hhome : ∀ z ∈ mountTargets, within ("/new_root/" ++ "home") z = false := by decide
  have hroot : ∀ z ∈ mountTargets, within ("/new_root/" ++ "root") z = false := by decide
  have hself : Triple (fun fs => fs zairoot) (pure (false, zairoot) : Fs (Bool × String))
      (fun r fs => fs zairoot ∧ (r.1 → r.2 = newRootDir ∧ fs newRootDir) ∧
        (r.1 = false → r.2 = zairoot)) fun _ _ => True :=
    triple_pure fun fs h => ⟨h, fun hf => absurd hf Bool.false_ne_true, fun _ => rfl⟩
  refine triple_ite (fun _ => hself) fun _ => ?_
  have hkeeps : Keeps zairoot (mountOverlay k zairoot) :=
    keeps_mountOverlay (hmerged _ hz) (hhome _ hz) (hroot _ hz)
  have hboth := hkeeps.and mountOverlay_spec fun _ _ => trivial
  refine triple_tryCatch (triple_bind hboth fun r => ?_) fun e => ?_
  · exact triple_pure fun fs h => ⟨h.1, fun _ => h.2, fun hf => absurd hf.symm Bool.false_ne_true⟩
  · exact hself.mono (fun fs h => h.1) (fun _ _ h => h) fun _ _ h => h

/-- The root that is switched to is chosen anew. -/
theorem pivotToRoot_spec {fs : Paths} {target : BootTarget} :
    Triple (fun s => s = fs) (pivotToRoot k target)
      (fun r _ => r = (if fs newRootDir then newRootDir else target.mountPoint, target.initPath))
      fun _ _ => True := by
  refine triple_bind (Q := fun there _ => there = fs newRootDir) ?_ fun there => ?_
  · exact triple_bind (triple_get (Q := fun s _ => s = fs) fun _ h => h) fun s =>
      triple_pure fun _ h => by rw [h]
  · intro s hthere
    subst hthere
    refine triple_bind (P := fun _ => True) (triple_true _) (fun _ => ?_) s trivial
    refine triple_bind (triple_true _) fun _ => triple_bind (triple_true _) fun _ => ?_
    refine triple_bind (triple_true _) fun _ => triple_ite (fun _ => ?_) fun _ => ?_
    · exact triple_bind (triple_true _) fun _ => triple_pure fun _ _ => rfl
    · exact triple_bind (triple_true _) fun _ => triple_bind (triple_true _) fun _ =>
        triple_pure fun _ _ => rfl

/-- What is known at the handover. -/
structure Handed (raw : String) (h : Handover) : Prop where
  zairoot : h.zairoot ∈ mountTargets
  there : h.fs h.zairoot
  mounted : h.overlay → h.newRoot = newRootDir ∧ h.fs newRootDir
  unmounted : h.overlay = false → h.newRoot = h.zairoot
  measured : h.measured = h.newRoot ++ h.init
  root : h.root = if h.fs newRootDir then newRootDir else mountPoint h.fs
  init : h.init = (chooseTarget (parse raw) h.newRoot h.fs).initPath

theorem mountPoint_chooseTarget (cmdline : Cmdline) (newRoot : String) (fs : Paths) :
    (chooseTarget cmdline newRoot fs).mountPoint = mountPoint fs := by
  unfold chooseTarget
  by_cases hrescue : cmdline.rdRescue
  · rw [if_pos hrescue]
    rfl
  · rw [if_neg hrescue]
    unfold discoverBootTarget
    cases cmdline.init with
    | none => rfl
    | some init =>
      dsimp only
      by_cases hinit : fs (newRoot ++ init)
      · rw [if_pos hinit]
      · rw [if_neg hinit]

theorem handOver_spec {raw : String} (hz : zairoot ∈ mountTargets) :
    Triple (fun fs => fs zairoot) (handOver k raw zairoot) (fun h _ => Handed raw h)
      fun _ _ => True := by
  refine triple_bind (chooseRoot_spec hz) fun r => ?_
  refine triple_bind (triple_get (Q := fun seen fs => seen = fs ∧ _) fun fs h => ⟨rfl, h⟩)
    fun seen => triple_ite (fun _ => triple_throw fun _ _ => trivial) fun _ => ?_
  intro fs h
  obtain ⟨rfl, hthere, hmounted, hunmounted⟩ := h
  refine triple_bind pivotToRoot_spec (fun r => ?_) seen rfl
  refine triple_pure fun _ hr => ?_
  subst hr
  exact ⟨hz, hthere, hmounted, hunmounted, rfl, by rw [mountPoint_chooseTarget], rfl⟩

theorem main_spec (raw : String) :
    Triple (fun _ => True) (main k raw) (fun h _ => Handed raw h) fun _ _ => True := by
  refine triple_ite (fun _ => triple_throw fun _ h => h) fun _ =>
    triple_ite (fun _ => triple_throw fun _ h => h) fun _ => triple_bind findMountTarget_spec ?_
  intro r
  cases r with
  | none => exact triple_throw fun _ _ => trivial
  | some zairoot =>
    intro fs h
    obtain ⟨hz, hthere⟩ := h zairoot rfl
    have hmount : Triple (fun fs => fs zairoot) (k.mountRootAt zairoot)
        (fun _ fs => fs zairoot) fun _ _ => True :=
      k.mountRootAt_keeps.mono (fun _ h => h) (fun _ _ h => h) fun _ _ _ => trivial
    refine triple_bind hmount (fun _ => ?_) fs hthere
    exact triple_ite (fun _ => triple_throw fun _ _ => trivial) fun _ => handOver_spec hz

end Kept

section Agreement
variable {raw : String} {h : Handover}

/-- A target that exists is the first that does exactly if none before it does. -/
theorem find?_eq_iff {targets : List String} {fs : Paths} {z : String} (hz : z ∈ targets)
    (hthere : fs z) :
    targets.find? fs = some z ↔ ∀ t ∈ targets.takeWhile (· ≠ z), fs t = false := by
  induction targets with
  | nil => cases hz
  | cons target rest ih =>
    by_cases htarget : target = z
    · subst htarget
      rw [List.find?_cons_of_pos hthere, List.takeWhile_cons_of_neg (by simp)]
      exact iff_of_true rfl fun t ht => absurd ht List.not_mem_nil
    · have hrest := List.mem_of_ne_of_mem (Ne.symm htarget) hz
      rw [List.takeWhile_cons_of_pos (by simpa using htarget), List.forall_mem_cons]
      cases hfs : fs target with
      | true =>
        rw [List.find?_cons_of_pos hfs]
        exact iff_of_false (fun heq => htarget (Option.some.inj heq))
          fun hf => absurd hf.1.symm Bool.false_ne_true
      | false =>
        rw [List.find?_cons_of_neg (by rw [hfs]; exact Bool.false_ne_true), ih hrest]
        exact (and_iff_right rfl).symm

/-- A path is mapped to itself exactly if it is a known one. -/
theorem known_eq_iff (init : String) :
    (initFallbacks.find? (· = init)).getD "/overlayer/syshub/engine/quantra" = init ↔
      init ∈ initFallbacks := by
  cases hfind : initFallbacks.find? (· = init) with
  | some known =>
    have hknown : known = init := by simpa using List.find?_some hfind
    exact iff_of_true hknown (hknown ▸ List.mem_of_find?_eq_some hfind)
  | none =>
    have hnone : init ∉ initFallbacks := fun hmem => by
      simpa using List.find?_eq_none.1 hfind init hmem
    refine iff_of_false (fun heq => hnone ?_) hnone
    rw [Option.getD_none] at heq
    rw [← heq]
    exact List.mem_cons_self

theorem append_left_iff {a b c : String} : a ++ c = b ++ c ↔ a = b := by
  constructor
  · intro heq
    have hlists := congrArg String.toList heq
    rw [String.toList_append, String.toList_append] at hlists
    exact String.toList_inj.1 (List.append_cancel_right hlists)
  · intro heq
    rw [heq]

/-- The root that is switched to is the one that was searched. -/
theorem root_iff (hh : Handed raw h) : h.root = h.newRoot ↔ h.overlay ∨
    (h.fs newRootDir = false ∧ ∀ t ∈ mountTargets.takeWhile (· ≠ h.zairoot), h.fs t = false) := by
  have hroot := hh.root
  cases hoverlay : h.overlay with
  | true =>
    obtain ⟨hnew, hthere⟩ := hh.mounted hoverlay
    rw [if_pos hthere] at hroot
    exact iff_of_true (hroot.trans hnew.symm) (.inl rfl)
  | false =>
    rw [hh.unmounted hoverlay, or_iff_right Bool.false_ne_true]
    cases hnew : h.fs newRootDir with
    | true =>
      rw [hnew, if_pos rfl] at hroot
      have hne : ∀ z ∈ mountTargets, newRootDir ≠ z := by decide
      exact iff_of_false (fun heq => hne _ hh.zairoot (hroot.symm.trans heq))
        fun hf => absurd hf.1.symm Bool.false_ne_true
    | false =>
      rw [hnew, if_neg Bool.false_ne_true] at hroot
      rw [hroot, and_iff_right rfl, ← find?_eq_iff hh.zairoot hh.there]
      unfold mountPoint
      cases hfind : mountTargets.find? h.fs with
      | some t => exact Option.some_inj.symm
      | none => exact absurd hh.there (List.find?_eq_none.1 hfind _ hh.zairoot)

/-- The path that is executed for an `init=` that exists. -/
theorem init_iff (hh : Handed raw h) {init : String} (hinit : (parse raw).init = some init)
    (hthere : h.fs (h.newRoot ++ init)) :
    h.init = init ↔
      if (parse raw).rdRescue then init = rescueShell h.fs else init ∈ initFallbacks := by
  rw [hh.init]
  unfold chooseTarget
  by_cases hrescue : (parse raw).rdRescue
  · rw [if_pos hrescue, if_pos hrescue]
    exact eq_comm
  · rw [if_neg hrescue, if_neg hrescue, ← known_eq_iff]
    unfold discoverBootTarget
    simp only [hinit, hthere, if_true]

theorem measuredRuns_iff (hh : Handed raw h) : MeasuredRuns raw h ↔ ChoicesAgree raw h := by
  have hmeasured : h.root ++ h.init = h.measured ↔ h.root = h.newRoot := by
    rw [hh.measured, append_left_iff]
  constructor
  · intro hlaw
    refine ⟨(root_iff hh).1 (hmeasured.1 hlaw.measured), fun init hinit hthere => ?_⟩
    exact (init_iff hh hinit hthere).1 (hlaw.honoured init hinit hthere)
  · intro hagree
    refine ⟨hmeasured.2 ((root_iff hh).2 hagree.root), fun init hinit hthere => ?_⟩
    exact (init_iff hh hinit hthere).2 (hagree.init init hinit hthere)

end Agreement

/-- A kernel on which all comes through, except for the mount of the overlay where it is not
there. -/
def plainKernel (overlay : Bool) : Kernel where
  createDirAll path := modify fun fs p => fs p || within p path
  mount source _ _ :=
    if source = "overlay" ∧ overlay = false then throw "No such device" else pure ()
  mountRootAt _ := pure ()
  chdir _ := pure ()
  pivotRoot _ _ := pure ()
  chroot _ := pure ()
  created h := triple_modify fun fs _ => by simp [h]
  createDirAll_keeps := triple_modify fun fs h => by simp [h]
  mount_keeps _ _ := triple_ite (fun _ => triple_throw fun _ h => h) fun _ => triple_pure fun _ h => h
  mountRootAt_keeps := triple_pure fun _ h => h

/-- A disk with the system on it, and a program of the user's. -/
def zainiumDisk (path : String) : Bool :=
  path ∈ ["/zairoot/overlayer/syshub", "/zairoot/overlayer/syshub/engine/quantra",
    "/new_root/overlayer/syshub/engine/quantra", "/new_root/bin/custom"]

theorem exists_handover (k : Kernel) (raw : String) (fs : Paths) (check : Handover → Bool)
    (h : (outcome (main k raw) fs).1.toOption.any check) :
    ∃ ho fs', outcome (main k raw) fs = (.ok ho, fs') ∧ check ho := by
  cases hmain : outcome (main k raw) fs with
  | mk r fs' =>
    rw [hmain] at h
    cases r with
    | error e => cases h
    | ok ho => exact ⟨ho, fs', rfl, h⟩

end Quantra.Switch
