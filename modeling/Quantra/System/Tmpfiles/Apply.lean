import Quantra.System.Tmpfiles.ModeOwner
import Quantra.System.Tmpfiles.Wipe

/-! `apply_entry`: what the entries leave, by their types, and what applying them again changes. -/
namespace Quantra.Tmpfiles
open FileTree FileCalls

section Directives
variable {umask : BitVec 12} {db : Database} {e : Entry} {t t' : Tree} {p : Place} {n : Node}
  {a : Attrs} {c : List UInt8} {es : List (String × Node)}

theorem found_of_stat {fresh : BitVec 12 → Attrs → Node} (h : stat t e.path = some n) :
    found fresh umask t e.path = n := by
  dsimp only [found]
  rw [makeParent_of_stat h, h, Option.getD_some]

theorem fits_content (c c' : List UInt8) : e.Fits db (.file a c) ↔ e.Fits db (.file a c') :=
  ⟨fun h => ⟨h.mode, h.user, h.group⟩, fun h => ⟨h.mode, h.user, h.group⟩⟩

theorem given_iff (kind : Attrs → Node) (hmap : ∀ g a, mapAttrs g (kind a) = kind (g a))
    (hattrs : ∀ a, (kind a).attrs = a) (hresolve : resolve t' true e.path = .ok p)
    (hn : nodeAt p t' = some (e.adjust db n)) :
    (∃ a, stat t' e.path = some (kind a) ∧ e.Given db a) ↔
      ∃ a, n = kind a ∧ e.Fits db (kind a) := by
  have hkind : ∀ {a}, e.adjust db n = kind a ↔ ∃ a₀, n = kind a₀ ∧ a = (e.adjust db n).attrs :=
    adjust_eq_iff kind hmap hattrs
  rw [stat_of_resolve hresolve, hn]
  constructor
  · intro h
    obtain ⟨a, hnew, hgiven⟩ := h
    obtain ⟨a₀, hnode, ha⟩ := hkind.1 (Option.some.inj hnew)
    rw [ha, given_adjust_iff, hnode] at hgiven
    exact ⟨a₀, hnode, hgiven⟩
  · intro h
    obtain ⟨a₀, hnode, hfits⟩ := h
    rw [← hnode] at hfits
    exact ⟨_, congrArg some (hkind.2 ⟨a₀, hnode, rfl⟩), given_adjust_iff.2 hfits⟩

theorem given_dir_iff (hresolve : resolve t' true e.path = .ok p)
    (hn : nodeAt p t' = some (e.adjust db n)) :
    (∃ a, stat t' e.path = some (.dir a es) ∧ e.Given db a) ↔
      ∃ a, n = .dir a es ∧ e.Fits db (.dir a es) :=
  given_iff (fun a => .dir a es) (fun _ _ => rfl) (fun _ => rfl) hresolve hn

theorem given_file_iff (hresolve : resolve t' true e.path = .ok p)
    (hn : nodeAt p t' = some (e.adjust db n)) :
    (∃ a, stat t' e.path = some (.file a c) ∧ e.Given db a) ↔
      ∃ a, n = .file a c ∧ e.Fits db (.file a c) :=
  given_iff (fun a => .file a c) (fun _ _ => rfl) (fun _ => rfl) hresolve hn

/-- Mode and owner were applied to the node to which the path leads in a tree in between. -/
def Applied (db : Database) (e : Entry) (t' : Tree) (n : Node) : Prop :=
  ∃ t p, resolve t true e.path = .ok p ∧ nodeAt p t = some n ∧
    applyModeOwner db e t = (.ok (), t')

theorem Applied.spec (h : Applied db e t' n) : ∃ p, resolve t' true e.path = .ok p ∧
    nodeAt p t' = some (e.adjust db n) ∧ applyModeOwner db e t' = (.ok (), t') := by
  obtain ⟨t, p, hresolve, hn, hok⟩ := h
  exact ⟨p, applied_spec hresolve hn hok⟩

theorem Applied.exists (h : Applied db e t' n) : pathExists t' e.path = true := by
  obtain ⟨p, hresolve, hn, -⟩ := h.spec
  rw [pathExists, stat_of_resolve hresolve, hn]
  rfl

theorem applied_of_stat (hstat : stat t e.path = some n)
    (h : applyModeOwner db e t = (.ok (), t')) : Applied db e t' n := by
  obtain ⟨p, hresolve, hn⟩ := stat_eq_some_iff.1 hstat
  exact ⟨t, p, hresolve, hn, h⟩

theorem pathExists_of_stat (h : stat t e.path = some n) : pathExists t e.path = true := by
  rw [pathExists, h]
  rfl

theorem pathExists_of_stat_none (h : stat t e.path = none) : pathExists t e.path = false := by
  rw [pathExists, h]
  rfl

/-- Where nothing was, the entry was applied to the directory that there is now. -/
theorem applied_of_createDirectory (hnone : stat t e.path = none)
    (h : createDirectory umask db e t = (.ok (), t')) : ∃ a es,
      found freshDir umask t e.path = .dir a es ∧
      Applied db e t' (.dir a es) := by
  unfold createDirectory at h
  cases hcreate : createDirAll umask t e.path with
  | mk made t₁ =>
    rw [hcreate] at h
    cases made with
    | false => cases h
    | true =>
      obtain ⟨habsent, p, hresolve, hn⟩ | ⟨hdir, hparent⟩ := createDirAll_ok hnone hcreate
      · refine ⟨_, _, ?_, t₁, p, hresolve, hn, h⟩
        dsimp only [found]
        rw [habsent, Option.getD_none, freshDir]
      · obtain ⟨a, es, hstat⟩ := isDir_iff.1 hdir
        refine ⟨a, es, ?_, applied_of_stat hstat h⟩
        dsimp only [found]
        rw [← hparent, hstat, Option.getD_some]

theorem createDir_iff (h : applyDirective umask db e t .d = (.ok (), t')) :
    (Satisfies db e t t' .d ∧ applyDirective umask db e t' .d = (.ok (), t')) ↔
      Meets umask db e t .d := by
  rw [applyDirective] at h
  have happlied : Applied db e t' (found freshDir umask t e.path) := by
    cases hstat : stat t e.path with
    | some n =>
      rw [pathExists_of_stat hstat, if_pos rfl] at h
      rw [found_of_stat hstat]
      exact applied_of_stat hstat h
    | none =>
      rw [pathExists_of_stat_none hstat, if_neg Bool.false_ne_true] at h
      obtain ⟨a, es, hfound, happlied⟩ := applied_of_createDirectory hstat h
      rwa [hfound]
  obtain ⟨p, hresolve, hn, hagain⟩ := happlied.spec
  have hsame : applyDirective umask db e t' .d = (.ok (), t') := by
    rw [applyDirective, happlied.exists, if_pos rfl, hagain]
  rw [and_iff_left hsame, Satisfies, Meets, exists_comm]
  conv_rhs => rw [exists_comm]
  exact exists_congr fun es => given_dir_iff hresolve hn

/-- Where the file was written, the entry was applied to it, empty. -/
theorem applied_of_writeEmpty {t₁ : Tree}
    (hwrite : writeEmpty umask (makeParent umask t e.path) e.path = some t₁)
    (h : applyModeOwner db e t₁ = (.ok (), t')) : ∃ a c,
      found freshFile umask t e.path = .file a c ∧
      Applied db e t' (.file a []) := by
  obtain ⟨a, ⟨p, hresolve, hn⟩, ⟨habsent, hfresh⟩ | ⟨c, hstat⟩⟩ := writeEmpty_ok hwrite
  · refine ⟨a, [], ?_, t₁, p, hresolve, hn, h⟩
    dsimp only [found]
    rw [habsent, hfresh, Option.getD_none]
  · refine ⟨a, c, ?_, t₁, p, hresolve, hn, h⟩
    dsimp only [found]
    rw [hstat, Option.getD_some]

theorem fits_file_iff (c' : List UInt8) (hn : n = .file a c) :
    (∃ a c, n = .file a c ∧ e.Fits db (.file a c)) ↔ e.Fits db (.file a c') := by
  rw [hn, fits_content c' c]
  constructor
  · intro h
    obtain ⟨a₁, c₁, hfile, hfits⟩ := h
    rwa [← hfile] at hfits
  · exact fun h => ⟨a, c, rfl, h⟩

theorem createFile_iff (h : applyDirective umask db e t .f = (.ok (), t')) :
    (Satisfies db e t t' .f ∧ applyDirective umask db e t' .f = (.ok (), t')) ↔
      Meets umask db e t .f := by
  have hagain : ∀ {n}, Applied db e t' n → applyDirective umask db e t' .f = (.ok (), t') := by
    intro n happlied
    obtain ⟨p, -, -, hagain⟩ := happlied.spec
    rw [applyDirective, happlied.exists, if_pos rfl, hagain]
  have hsatisfies : ∀ {n}, Applied db e t' n →
      (Satisfies db e t t' .f ↔ ∃ a c, n = .file a c ∧ e.Fits db (.file a c)) := by
    intro n happlied
    obtain ⟨p, hresolve, hn, -⟩ := happlied.spec
    rw [Satisfies, exists_comm]
    conv_rhs => rw [exists_comm]
    exact exists_congr fun c => given_file_iff hresolve hn
  rw [applyDirective] at h
  rw [Meets]
  cases hstat : stat t e.path with
  | some n =>
    rw [pathExists_of_stat hstat, if_pos rfl] at h
    have happlied := applied_of_stat hstat h
    rw [and_iff_left (hagain happlied), hsatisfies happlied, found_of_stat hstat]
  | none =>
    rw [pathExists_of_stat_none hstat, if_neg Bool.false_ne_true] at h
    cases hwrite : writeEmpty umask (makeParent umask t e.path) e.path with
    | none =>
      rw [hwrite] at h
      cases h
    | some t₁ =>
      rw [hwrite] at h
      obtain ⟨a, c, hfound, happlied⟩ := applied_of_writeEmpty hwrite h
      rw [and_iff_left (hagain happlied), hsatisfies happlied, fits_file_iff [] rfl,
        fits_file_iff [] hfound]

theorem truncateFile_iff (h : applyDirective umask db e t .F = (.ok (), t')) :
    (Satisfies db e t t' .F ∧ applyDirective umask db e t' .F = (.ok (), t')) ↔
      Meets umask db e t .F := by
  rw [applyDirective] at h
  cases hwrite : writeEmpty umask (makeParent umask t e.path) e.path with
  | none =>
    rw [hwrite] at h
    cases h
  | some t₁ =>
    rw [hwrite] at h
    obtain ⟨a, c, hfound, happlied⟩ := applied_of_writeEmpty hwrite h
    obtain ⟨p, hresolve, hn, hagain⟩ := happlied.spec
    have hsame : applyDirective umask db e t' .F = (.ok (), t') := by
      have hempty := writeEmpty_of_empty umask hresolve (adjust_file ▸ hn)
      rw [applyDirective, makeParent_of_resolve hresolve, hempty]
      exact hagain
    rw [and_iff_left hsame, Satisfies, Meets, given_file_iff hresolve hn,
      fits_file_iff [] hfound]
    constructor
    · intro h
      obtain ⟨a₁, hfile, hfits⟩ := h
      rwa [← hfile] at hfits
    · exact fun h => ⟨a, rfl, h⟩

theorem setOwner_iff {directive : Directive} (hz : directive = .z ∨ directive = .e)
    (h : applyDirective umask db e t directive = (.ok (), t')) :
    (Satisfies db e t t' directive ∧ applyDirective umask db e t' directive = (.ok (), t')) ↔
      Meets umask db e t directive := by
  have hiff : (∀ n, stat t' e.path = some n → e.Given db n.attrs) ∧
      (if pathExists t' e.path then applyModeOwner db e t' else (.ok (), t')) = (.ok (), t') ↔
      ∀ n, stat t e.path = some n → e.Fits db n := by
    have h' : (if pathExists t e.path then applyModeOwner db e t else (.ok (), t)) =
        (.ok (), t') := by
      obtain rfl | rfl := hz
      · exact h
      · exact h
    cases hstat : stat t e.path with
    | none =>
      rw [pathExists_of_stat_none hstat, if_neg Bool.false_ne_true, Prod.mk.injEq] at h'
      rw [← h'.2, hstat, pathExists_of_stat_none hstat, if_neg Bool.false_ne_true]
      exact iff_of_true ⟨fun _ hno => (nomatch hno), rfl⟩ fun _ hno => nomatch hno
    | some n =>
      rw [pathExists_of_stat hstat, if_pos rfl] at h'
      have happlied := applied_of_stat hstat h'
      obtain ⟨p, hresolve, hn, hagain⟩ := happlied.spec
      rw [happlied.exists, if_pos rfl, and_iff_left hagain, stat_of_resolve hresolve, hn]
      constructor
      · intro hall m hm
        cases hm
        exact given_adjust_iff.1 (hall _ rfl)
      · intro hall m hm
        cases hm
        exact given_adjust_iff.2 (hall n rfl)
  obtain rfl | rfl := hz
  · exact hiff
  · exact hiff

theorem symlink_iff (h : applyDirective umask db e t .L = (.ok (), t')) :
    (Satisfies db e t t' .L ∧ applyDirective umask db e t' .L = (.ok (), t')) ↔
      Meets umask db e t .L := by
  rw [Satisfies, Meets]
  cases harg : e.arg with
  | none => exact iff_of_false (fun ⟨⟨_, _, hno, _⟩, _⟩ => nomatch hno) fun hno => hno rfl
  | some target =>
    refine iff_of_true ?_ (Option.some_ne_none target)
    rw [applyDirective, harg] at h
    dsimp only at h
    generalize (if (pathExists t e.path || (lstat t e.path).isSome) = true
      then removeFile t e.path else t) = t₁ at h
    cases hlink : symlink t₁ target e.path with
    | none =>
      rw [hlink] at h
      cases h
    | some t₂ =>
      rw [hlink, Prod.mk.injEq] at h
      obtain ⟨-, rfl⟩ := h
      obtain ⟨p, hresolve, hn, hlink'⟩ := symlink_eq_some hlink
      obtain ⟨hself, -, hsame⟩ := insert_spec (n := freshLink target (attrsAbove t₁ p)) hresolve hn
        (.inl rfl)
      rw [← hlink'] at hself hsame
      have hlstat : lstat t₂ e.path = some (freshLink target (attrsAbove t₁ p)) := by
        rw [lstat_of_resolve hsame, hself]
      refine ⟨⟨_, target, rfl, hlstat⟩, ?_⟩
      -- the link is removed and made again
      have hremove : removeFile t₂ e.path = t₁ := by
        rw [removeFile_eq hsame hself Shape.noConfusion, hlink',
          update_update (Option.some_ne_none _)]
        exact update_of_fixed hn.symm
      rw [applyDirective, harg, hlstat]
      dsimp only
      rw [Option.isSome_some, Bool.or_true, if_pos rfl, hremove, hlink]

theorem fits_entries (es es' : List (String × Node)) :
    e.Fits db (.dir a es) ↔ e.Fits db (.dir a es') :=
  ⟨fun h => ⟨h.mode, h.user, h.group⟩, fun h => ⟨h.mode, h.user, h.group⟩⟩

theorem satisfies_of_applied (happlied : Applied db e t' n) :
    Satisfies db e t t' .D ↔ ∃ a, n = .dir a [] ∧ e.Fits db (.dir a []) := by
  obtain ⟨p, hresolve, hn, -⟩ := happlied.spec
  exact given_dir_iff hresolve hn

theorem wipe_again (happlied : Applied db e t' n) (h : Satisfies db e t t' .D) :
    applyDirective umask db e t' .D = (.ok (), t') := by
  obtain ⟨a, hstat, -⟩ := h
  obtain ⟨p, -, -, hagain⟩ := happlied.spec
  have hwipe : wipeDirectory t' e.path = t' := by
    rw [wipeDirectory, hstat]
    rfl
  rw [applyDirective, happlied.exists, if_pos rfl, hwipe, hagain]

theorem wipe_iff_of_absent (hnone : stat t e.path = none)
    (h : createDirectory umask db e t = (.ok (), t')) :
    (Satisfies db e t t' .D ∧ applyDirective umask db e t' .D = (.ok (), t')) ↔
      Meets umask db e t .D := by
  obtain ⟨a, es, hfound, happlied⟩ := applied_of_createDirectory hnone h
  rw [and_iff_left_of_imp (wipe_again happlied), satisfies_of_applied happlied, Meets, hfound,
    pathExists_of_stat_none hnone]
  constructor
  · intro h
    obtain ⟨a₁, hdir, hfits⟩ := h
    exact ⟨a₁, [], hdir, hfits, rfl⟩
  · intro h
    obtain ⟨a₁, es₁, hdir, hfits, hempty⟩ := h
    have hnil : es₁ = [] := hempty
    rw [hnil] at hdir hfits
    exact ⟨a₁, hdir, hfits⟩

theorem applied_of_satisfies {t₁ : Tree} (h : applyModeOwner db e t₁ = (.ok (), t'))
    (hsat : Satisfies db e t t' .D) : ∃ n, stat t₁ e.path = some n ∧ Applied db e t' n := by
  cases hstat : stat t₁ e.path with
  | none =>
    obtain ⟨a, hdir, -⟩ := hsat
    rw [applyModeOwner_of_stat_none hstat h, hstat] at hdir
    cases hdir
  | some n => exact ⟨n, rfl, applied_of_stat hstat h⟩

/-- The entry holds after the wiping of what the path led to if and only if that was a directory
which could be wiped, and fit. -/
theorem satisfies_wiped_iff (hproper : Proper t) (hstat : stat t e.path = some n)
    (h : applyModeOwner db e (wipeDirectory t e.path) = (.ok (), t')) :
    Satisfies db e t t' .D ↔ ∃ a es, n = .dir a es ∧ e.Fits db (.dir a es) ∧
      stuckEntries es = false ∧ Reaches t e.path a := by
  obtain ⟨p, hresolve, hn⟩ := stat_eq_some_iff.1 hstat
  constructor
  · intro hsat
    obtain ⟨n₁, hstat₁, happlied⟩ := applied_of_satisfies h hsat
    obtain ⟨b, hnode, hfits⟩ := (satisfies_of_applied happlied).1 hsat
    rw [hnode] at hstat₁
    rcases n with ⟨a, c⟩ | ⟨a, target⟩ | ⟨a, es⟩
    · rw [wipeDirectory, hstat] at hstat₁
      dsimp only at hstat₁
      rw [hstat] at hstat₁
      cases hstat₁
    · rw [wipeDirectory, hstat] at hstat₁
      dsimp only at hstat₁
      rw [hstat] at hstat₁
      cases hstat₁
    · obtain ⟨q, hq, hnq⟩ := stat_eq_some_iff.1 hstat₁
      obtain ⟨hstuck, hreach⟩ := reaches_of_wiped hproper hresolve hn hq hnq
      have hwiped := wipeDirectory_of_reaches hproper hresolve hn hstuck hreach
      rw [hwiped, stat_of_resolve hreach, emptied, nodeAt_update_self (hasParent_of_nodeAt hn),
        Option.some.injEq, Node.dir.injEq] at hstat₁
      rw [← hstat₁.1, fits_entries [] es] at hfits
      refine ⟨a, es, rfl, hfits, hstuck, fun r hr => ?_⟩
      rw [hresolve, Except.ok.injEq] at hr
      rwa [← hr]
  · intro hmeets
    obtain ⟨a, es, hnode, hfits, hstuck, hreach⟩ := hmeets
    rw [hnode] at hn
    rw [wipeDirectory_of_reaches hproper hresolve hn hstuck (hreach p hresolve)] at h
    have happlied : Applied db e t' (.dir a []) :=
      ⟨_, p, hreach p hresolve, nodeAt_update_self (hasParent_of_nodeAt hn), h⟩
    rw [satisfies_of_applied happlied]
    exact ⟨a, rfl, (fits_entries es []).1 hfits⟩

theorem wipe_iff (hproper : Proper t) (h : applyDirective umask db e t .D = (.ok (), t')) :
    (Satisfies db e t t' .D ∧ applyDirective umask db e t' .D = (.ok (), t')) ↔
      Meets umask db e t .D := by
  rw [applyDirective] at h
  cases hstat : stat t e.path with
  | none =>
    rw [pathExists_of_stat_none hstat, if_neg Bool.false_ne_true] at h
    exact wipe_iff_of_absent hstat h
  | some n =>
    rw [pathExists_of_stat hstat, if_pos rfl] at h
    have hagain : Satisfies db e t t' .D → applyDirective umask db e t' .D = (.ok (), t') := by
      intro hsat
      obtain ⟨n₁, -, happlied⟩ := applied_of_satisfies h hsat
      exact wipe_again happlied hsat
    rw [and_iff_left_of_imp hagain, satisfies_wiped_iff hproper hstat h, Meets,
      found_of_stat hstat, pathExists_of_stat hstat]
    exact Iff.rfl

/-! Removals. -/

theorem stat_of_lstat_none (h : lstat t e.path = none) : stat t e.path = none := by
  by_contra hsome
  exact lstat_ne_none_of_stat hsome h

theorem isDir_of_pathExists_false (h : pathExists t e.path = false) :
    isDir t e.path = false := by
  rw [pathExists, Option.isSome_eq_false_iff, Option.isNone_iff_eq_none] at h
  exact isDir_of_stat_none h

theorem remove_of_absent {directive : Directive} (hr : directive = .r ∨ directive = .R)
    (h : lstat t e.path = none) : applyDirective umask db e t directive = (.ok (), t) := by
  have hexists := pathExists_of_stat_none (stat_of_lstat_none h)
  have hdir := isDir_of_pathExists_false hexists
  obtain rfl | rfl := hr
  · rw [applyDirective, hdir, hexists, if_neg Bool.false_ne_true, if_neg Bool.false_ne_true]
  · rw [applyDirective, hdir, hexists, if_neg Bool.false_ne_true, if_neg Bool.false_ne_true]

theorem lstat_removeFile_iff (hproper : Proper t) (hresolve : resolve t false e.path = .ok p)
    (hn : nodeAt p t = some n) (hdir : n.shape ≠ .dir) :
    lstat (removeFile t e.path) e.path = none ↔ n.attrs.busy = false := by
  have hremove := removeFile_eq hresolve hn hdir
  have hwithin := (pruned_removeFile t e.path hproper).2
  have hbusy : n.remove = if n.attrs.busy then some n else none := by
    cases n with
    | file a c => rfl
    | link a target => rfl
    | dir a es => exact absurd rfl hdir
  rw [hremove] at hwithin ⊢
  cases hcase : n.attrs.busy with
  | true =>
    rw [hbusy, hcase, if_pos rfl, update_of_fixed hn.symm, lstat_of_resolve hresolve, hn]
    exact iff_of_false (Option.some_ne_none n) fun hno => Bool.noConfusion hno
  | false =>
    rw [hcase, if_neg Bool.false_ne_true] at hbusy
    refine iff_of_true (lstat_of_within hresolve hwithin fun _ => ?_) rfl
    rw [nodeAt_update_self (hasParent_of_nodeAt hn), hbusy]

theorem remove_eq_of_stuck (h : (Node.dir a es).stuck = true) :
    (Node.dir a es).remove = some (.dir a (removeEntries es)) := by
  obtain ⟨n, hn, -⟩ := (Node.dir a es).stuck_remove h
  rw [Node.remove] at hn ⊢
  cases hrest : removeEntries es with
  | cons entry rest => rfl
  | nil =>
    rw [hrest] at hn
    dsimp only at hn ⊢
    split_ifs at hn ⊢
    rfl

theorem lstat_removeDirAll_iff (hproper : Proper t) (hresolve : resolve t false e.path = .ok p)
    (hn : nodeAt p t = some (.dir a es)) :
    lstat (removeDirAll t e.path) e.path = none ↔
      (Node.dir a es).stuck = false ∨ Cut t e.path a es := by
  have hwithin := (pruned_removeDirAll t e.path hproper).2
  have hparent := hasParent_of_nodeAt hn
  by_cases hreach : resolve (update (fun _ => some (.dir a (removeEntries es))) p t) false e.path =
      .ok p
  · have hremove := removeDirAll_eq hresolve hn hreach
    have hcut : ¬ Cut t e.path a es := fun hcut => hcut p hresolve hreach
    rw [or_iff_left hcut]
    rw [hremove] at hwithin ⊢
    cases hstuck : (Node.dir a es).stuck with
    | true =>
      rw [remove_eq_of_stuck hstuck, lstat_of_resolve hreach, nodeAt_update_self hparent]
      exact iff_of_false (Option.some_ne_none _) fun hno => Bool.noConfusion hno
    | false =>
      refine iff_of_true (lstat_of_within hresolve hwithin fun _ => ?_) rfl
      rw [nodeAt_update_self hparent, Node.remove_of_not_stuck _ hstuck]
  · refine iff_of_true (lstat_of_within hresolve hwithin fun hleft => ?_) (.inr fun q hq => ?_)
    · by_contra hne
      obtain ⟨hmid, -⟩ := pruned_entries hresolve hn hproper
      have hinner := (pruned_removeDirAll_entries hresolve hn hmid).2
      exact hreach (resolve_within hleft hinner fun hnone => hne (view_eq_none_iff.1 hnone))
    · rw [hresolve, Except.ok.injEq] at hq
      rw [← hq]
      exact hreach

/-- `remove_dir` takes an empty directory and nothing else. -/
theorem lstat_removeDir_iff (hproper : Proper t) (h : lstat t e.path = some n) :
    lstat (removeDir t e.path) e.path = none ↔ ∃ a, n = .dir a [] ∧ a.busy = false := by
  obtain ⟨p, hresolve, hn⟩ := lstat_eq_some_iff.1 h
  have hwithin := (pruned_removeDir t e.path hproper).2
  have hkeep : removeDir t e.path = t → (∀ a, n = .dir a [] → a.busy = true) →
      (lstat (removeDir t e.path) e.path = none ↔ ∃ a, n = .dir a [] ∧ a.busy = false) := by
    intro hsame hbusy
    rw [hsame, h]
    refine iff_of_false (Option.some_ne_none n) fun hremoved => ?_
    obtain ⟨a, hdir, hfree⟩ := hremoved
    rw [hbusy a hdir] at hfree
    cases hfree
  rcases n with ⟨a, c⟩ | ⟨a, target⟩ | ⟨a, _ | ⟨entry, es⟩⟩
  · refine hkeep ?_ fun b hb => by cases hb
    rw [removeDir, hresolve]
    dsimp only
    rw [hn]
  · refine hkeep ?_ fun b hb => by cases hb
    rw [removeDir, hresolve]
    dsimp only
    rw [hn]
  · have hremove : removeDir t e.path = if a.busy then t else update (fun _ => none) p t := by
      rw [removeDir, hresolve]
      dsimp only
      rw [hn]
    cases hbusy : a.busy with
    | true =>
      rw [hbusy, if_pos rfl] at hremove
      refine hkeep hremove fun b hb => ?_
      rw [Node.dir.injEq] at hb
      rw [← hb.1, hbusy]
    | false =>
      rw [hbusy, if_neg Bool.false_ne_true] at hremove
      rw [hremove] at hwithin ⊢
      refine iff_of_true (lstat_of_within hresolve hwithin fun _ => ?_) ⟨a, rfl, hbusy⟩
      exact nodeAt_update_self (hasParent_of_nodeAt hn)
  · refine hkeep ?_ fun b hb => by cases hb
    rw [removeDir, hresolve]
    dsimp only
    rw [hn]

theorem removeRecursively_iff (hproper : Proper t)
    (h : applyDirective umask db e t .R = (.ok (), t')) :
    (Satisfies db e t t' .R ∧ applyDirective umask db e t' .R = (.ok (), t')) ↔
      Meets umask db e t .R := by
  have hagain : Satisfies db e t t' .R → applyDirective umask db e t' .R = (.ok (), t') :=
    fun hgone => remove_of_absent (.inr rfl) hgone
  rw [and_iff_left_of_imp hagain, Satisfies, Meets]
  cases hl : lstat t e.path with
  | none =>
    rw [remove_of_absent (.inr rfl) hl, Prod.mk.injEq] at h
    rw [← h.2, hl]
    exact iff_of_true rfl trivial
  | some n =>
    obtain ⟨p, hresolve, hn⟩ := lstat_eq_some_iff.1 hl
    rw [applyDirective] at h
    rcases n with ⟨a, c⟩ | ⟨a, target⟩ | ⟨a, es⟩
    · rw [isDir_of_file hresolve hn, pathExists_of_stat (stat_of_file hresolve hn),
        if_neg Bool.false_ne_true, if_pos rfl, Prod.mk.injEq] at h
      rw [← h.2]
      exact lstat_removeFile_iff hproper hresolve hn Shape.noConfusion
    · have hfile : lstat (removeFile t e.path) e.path = none ↔ a.busy = false :=
        lstat_removeFile_iff hproper hresolve hn Shape.noConfusion
      dsimp only
      cases hexists : pathExists t e.path with
      | false =>
        rw [isDir_of_pathExists_false hexists, hexists, if_neg Bool.false_ne_true,
          if_neg Bool.false_ne_true, Prod.mk.injEq] at h
        rw [← h.2, hl]
        exact iff_of_false (Option.some_ne_none _) fun hno => Bool.noConfusion hno.2
      | true =>
        rw [hexists, removeDirAll_of_link hresolve hn, if_pos rfl, ite_self, Prod.mk.injEq] at h
        rw [← h.2, hfile, and_iff_left rfl]
    · rw [isDir_of_dir hresolve hn, if_pos rfl, Prod.mk.injEq] at h
      rw [← h.2]
      exact lstat_removeDirAll_iff hproper hresolve hn

theorem remove_iff (hproper : Proper t) (h : applyDirective umask db e t .r = (.ok (), t')) :
    (Satisfies db e t t' .r ∧ applyDirective umask db e t' .r = (.ok (), t')) ↔
      Meets umask db e t .r := by
  have hagain : Satisfies db e t t' .r → applyDirective umask db e t' .r = (.ok (), t') := by
    intro hsat
    obtain hgone | ⟨-, hsame⟩ := hsat
    · exact remove_of_absent (.inl rfl) hgone
    · rw [hsame] at h ⊢
      exact h
  rw [and_iff_left_of_imp hagain, Satisfies, Meets]
  cases hl : lstat t e.path with
  | none =>
    rw [remove_of_absent (.inl rfl) hl, Prod.mk.injEq] at h
    rw [← h.2, hl]
    exact iff_of_true (.inl rfl) trivial
  | some n =>
    obtain ⟨p, hresolve, hn⟩ := lstat_eq_some_iff.1 hl
    rw [applyDirective] at h
    rcases n with ⟨a, c⟩ | ⟨a, target⟩ | ⟨a, es⟩
    · rw [isDir_of_file hresolve hn, pathExists_of_stat (stat_of_file hresolve hn),
        if_neg Bool.false_ne_true, if_pos rfl, Prod.mk.injEq] at h
      rw [← h.2, or_iff_left fun ⟨⟨_, _, _, hdir⟩, _⟩ => nomatch hdir]
      exact lstat_removeFile_iff hproper hresolve hn Shape.noConfusion
    · rw [or_iff_left fun ⟨⟨_, _, _, hdir⟩, _⟩ => nomatch hdir]
      dsimp only
      cases hdir : isDir t e.path with
      | true =>
        rw [hdir, if_pos rfl, Prod.mk.injEq] at h
        rw [← h.2, lstat_removeDir_iff hproper hl]
        exact iff_of_false (fun ⟨_, hno, _⟩ => nomatch hno) fun hno => Bool.noConfusion hno.2.2
      | false =>
        rw [hdir, if_neg Bool.false_ne_true] at h
        cases hexists : pathExists t e.path with
        | false =>
          rw [hexists, if_neg Bool.false_ne_true, Prod.mk.injEq] at h
          rw [← h.2, hl]
          exact iff_of_false (Option.some_ne_none _) fun hno => Bool.noConfusion hno.2.1
        | true =>
          rw [hexists, if_pos rfl, Prod.mk.injEq] at h
          rw [← h.2, and_iff_left ⟨rfl, rfl⟩]
          exact lstat_removeFile_iff hproper hresolve hn Shape.noConfusion
    · rw [isDir_of_dir hresolve hn, if_pos rfl, Prod.mk.injEq] at h
      rw [← h.2, lstat_removeDir_iff hproper hl]
      cases es with
      | nil =>
        rw [or_iff_left fun ⟨⟨_, _, _, hdir⟩, _⟩ => nomatch hdir]
        constructor
        · intro hremoved _
          obtain ⟨b, hb, hfree⟩ := hremoved
          rw [Node.dir.injEq] at hb
          rwa [hb.1]
        · exact fun hfree => ⟨a, rfl, hfree rfl⟩
      | cons entry es =>
        refine iff_of_true (.inr ⟨⟨a, entry, es, rfl⟩, ?_⟩) fun hno => nomatch hno
        rw [removeDir, hresolve]
        dsimp only
        rw [hn]

end Directives

/-! Postcondition and idempotence. -/

/-- All there is, from a root that is not removed. -/
structure FileSystem where
  root : Node
  proper : root.Proper
  busy : root.attrs.busy = true

/-- Where applying an entry succeeds, the entry holds and applying it again changes nothing if and
only if it could be met. -/
theorem entry_holds_iff (umask : BitVec 12) (db : Database) (directive : Directive) (e : Entry)
    (fs : FileSystem) {t' : Tree}
    (h : applyEntry umask db directive.name e (some fs.root) = (.ok (), t')) :
    (Satisfies db e (some fs.root) t' directive ∧
      applyEntry umask db directive.name e t' = (.ok (), t')) ↔
    Meets umask db e (some fs.root) directive := by
  have hproper : Proper (some fs.root) := proper_some.2 fs.proper
  have happly : ∀ t, applyEntry umask db directive.name e t =
      applyDirective umask db e t directive := by
    intro t
    rw [applyEntry, ofName?_name]
  rw [happly] at h ⊢
  cases directive with
  | d => exact createDir_iff h
  | D => exact wipe_iff hproper h
  | f => exact createFile_iff h
  | F => exact truncateFile_iff h
  | L => exact symlink_iff h
  | z => exact setOwner_iff (.inl rfl) h
  | e => exact setOwner_iff (.inr rfl) h
  | r => exact remove_iff hproper h
  | R => exact removeRecursively_iff hproper h

/-- A directory `/run` with the entries. -/
def runDir (entries : List (String × Node)) : Node :=
  .dir ⟨0o755#12, 0, 0, true⟩ [("run", .dir ⟨0o755#12, 0, 0, true⟩ entries)]

/-- The built-in entry for `/run/dbus`. -/
def dbusEntry : Entry := ⟨["run", "dbus"], some 0o755, "root", "root", none⟩

theorem dbus_created :
    Satisfies ⟨none, none⟩ dbusEntry (some (runDir []))
      (some (runDir [("dbus", .dir ⟨0o755#12, 0, 0, false⟩ [])])) .d ∧
    applyEntry 0o022#12 ⟨none, none⟩ Directive.d.name dbusEntry
      (some (runDir [("dbus", .dir ⟨0o755#12, 0, 0, false⟩ [])])) =
      (.ok (), some (runDir [("dbus", .dir ⟨0o755#12, 0, 0, false⟩ [])])) := by
  have happly : applyEntry 0o022#12 ⟨none, none⟩ Directive.d.name dbusEntry (some (runDir [])) =
      (.ok (), some (runDir [("dbus", .dir ⟨0o755#12, 0, 0, false⟩ [])])) := rfl
  have hfound : found freshDir 0o022#12 (some (runDir [])) dbusEntry.path =
      .dir ⟨0o755#12, 0, 0, false⟩ [] := rfl
  exact (entry_holds_iff 0o022#12 ⟨none, none⟩ .d dbusEntry
    ⟨runDir [], ⟨by decide, by decide, ⟨List.nodup_nil, List.not_mem_nil, trivial⟩, trivial⟩, rfl⟩
    happly).2 ⟨_, _, hfound, fun _ _ _ hdir => absurd rfl hdir, rfl, rfl⟩

/-- Where `/run/dbus` is a file, the entry for a directory succeeds on it. -/
theorem dbus_stays_file :
    ¬ ∀ (umask : BitVec 12) (db : Database) (directive : Directive) (e : Entry) (fs : FileSystem)
      (t' : Tree), applyEntry umask db directive.name e (some fs.root) = (.ok (), t') →
      Satisfies db e (some fs.root) t' directive ∧
        applyEntry umask db directive.name e t' = (.ok (), t') := by
  intro hall
  obtain ⟨⟨a, es, hdir, -⟩, -⟩ := hall 0o022#12 ⟨none, none⟩ .d dbusEntry
    ⟨runDir [("dbus", .file ⟨0o644#12, 0, 0, false⟩ [])],
      ⟨by decide, by decide, ⟨by decide, by decide, trivial, trivial⟩, trivial⟩, rfl⟩
    (some (runDir [("dbus", .file ⟨0o755#12, 0, 0, false⟩ [])])) rfl
  have hfile : stat (some (runDir [("dbus", .file ⟨0o755#12, 0, 0, false⟩ [])])) dbusEntry.path =
      some (.file ⟨0o755#12, 0, 0, false⟩ []) := rfl
  rw [hfile] at hdir
  cases hdir

end Quantra.Tmpfiles
