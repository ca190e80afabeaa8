import Quantra.System.Tmpfiles.Entry

/-! `apply_mode_owner`: mode and owner of what a path leads to. -/
namespace Quantra.Tmpfiles
open FileTree FileCalls

/-- What a node becomes. -/
def Entry.adjust (db : Database) (e : Entry) (n : Node) : Node :=
  let n := match e.mode with
    | some m => setMode m n
    | none => n
  if e.chowns db then setOwner (e.uid db) (e.gid db) n else n

section Adjust
variable {db : Database} {e : Entry} {n : Node} {t t' : Tree} {p : Place} {a : Attrs}
  {c : List UInt8} {es : List (String × Node)}

theorem newId_newId (named : Option ℕ) (id : ℕ) :
    newId named (newId named id) = newId named id := by
  cases named with
  | none => rfl
  | some n =>
    rw [newId, newId]
    split_ifs
    · rfl
    · rfl

theorem killPrivileges_twice (mode : BitVec 12) :
    killPrivileges (killPrivileges mode) = killPrivileges mode := by
  have hexec : 0o3777#12 &&& 0o0010#12 = 0o0010#12 := by decide
  have hexec' : 0o1777#12 &&& 0o0010#12 = 0o0010#12 := by decide
  by_cases h : mode &&& 0o0010#12 = 0
  · have hkill : killPrivileges mode = mode &&& 0o3777#12 := if_pos h
    rw [hkill, killPrivileges, BitVec.and_assoc, hexec, if_pos h, BitVec.and_assoc,
      BitVec.and_self]
  · have hkill : killPrivileges mode = mode &&& 0o1777#12 := if_neg h
    rw [hkill, killPrivileges, BitVec.and_assoc, hexec', if_neg h, BitVec.and_assoc,
      BitVec.and_self]

theorem chowns_eq_false_iff : e.chowns db = false ↔ e.uid db = none ∧ e.gid db = none := by
  rw [Entry.chowns, Bool.or_eq_false_iff, Option.isSome_eq_false_iff, Option.isSome_eq_false_iff,
    Option.isNone_iff_eq_none, Option.isNone_iff_eq_none]

theorem alike_adjust (db : Database) (e : Entry) (n : Node) : Alike n (e.adjust db n) := by
  have hmode : Alike n (match e.mode with | some m => setMode m n | none => n) := by
    cases e.mode with
    | none => exact fun p => rfl
    | some m => exact alike_mapAttrs _ n
  unfold Entry.adjust
  dsimp only
  split_ifs
  · exact hmode.trans (alike_setOwner _ _ _)
  · exact hmode

theorem adjust_adjust : e.adjust db (e.adjust db n) = e.adjust db n := by
  unfold Entry.adjust
  cases hm : e.mode with
  | none =>
    dsimp only
    split_ifs
    · cases n with
      | file a c => simp only [setOwner, mapAttrs, newId_newId, killPrivileges_twice]
      | link a target => simp only [setOwner, mapAttrs, newId_newId, killPrivileges_twice]
      | dir a es => simp only [setOwner, newId_newId]
    · rfl
  | some m =>
    dsimp only
    split_ifs
    · cases n with
      | file a c => simp only [setOwner, setMode, mapAttrs, newId_newId]
      | link a target => simp only [setOwner, setMode, mapAttrs, newId_newId]
      | dir a es => simp only [setOwner, setMode, mapAttrs, newId_newId]
    · cases n with
      | file a c => rfl
      | link a target => rfl
      | dir a es => rfl

/-- Only the attributes change. -/
theorem adjust_eq (db : Database) (e : Entry) (n : Node) :
    e.adjust db n = mapAttrs (fun _ => (e.adjust db n).attrs) n := by
  unfold Entry.adjust
  cases e.mode with
  | none =>
    dsimp only
    split_ifs
    · cases n <;> rfl
    · cases n <;> rfl
  | some m =>
    dsimp only
    split_ifs
    · cases n <;> rfl
    · cases n <;> rfl

theorem adjust_file : e.adjust db (.file a c) = .file (e.adjust db (.file a c)).attrs c :=
  adjust_eq db e (.file a c)

theorem uid_adjust : (e.adjust db n).attrs.uid = newId (e.uid db) n.attrs.uid := by
  unfold Entry.adjust
  cases hchown : e.chowns db with
  | true =>
    rw [if_pos rfl]
    cases e.mode with
    | none => cases n <;> rfl
    | some m => cases n <;> rfl
  | false =>
    rw [if_neg Bool.false_ne_true, (chowns_eq_false_iff.1 hchown).1]
    cases e.mode with
    | none => rfl
    | some m => cases n <;> rfl

theorem gid_adjust : (e.adjust db n).attrs.gid = newId (e.gid db) n.attrs.gid := by
  unfold Entry.adjust
  cases hchown : e.chowns db with
  | true =>
    rw [if_pos rfl]
    cases e.mode with
    | none => cases n <;> rfl
    | some m => cases n <;> rfl
  | false =>
    rw [if_neg Bool.false_ne_true, (chowns_eq_false_iff.1 hchown).2]
    cases e.mode with
    | none => rfl
    | some m => cases n <;> rfl

theorem mode_adjust {m : ℕ} (hm : e.mode = some m) : (e.adjust db n).attrs.mode =
    if e.chowns db = true ∧ n.shape ≠ .dir then killPrivileges (BitVec.ofNat 12 m)
    else BitVec.ofNat 12 m := by
  unfold Entry.adjust
  rw [hm]
  dsimp only
  cases e.chowns db with
  | true =>
    cases n with
    | file a c => exact (if_pos ⟨rfl, Shape.noConfusion⟩).symm
    | link a target => exact (if_pos ⟨rfl, Shape.noConfusion⟩).symm
    | dir a es => exact (if_neg fun h => h.2 rfl).symm
  | false =>
    rw [if_neg Bool.false_ne_true, if_neg fun h => Bool.noConfusion h.1]
    cases n <;> rfl

theorem ownerIs_newId (named : Option ℕ) (name : String) (old : ℕ) :
    OwnerIs named name (newId (if name = "-" ∨ name = "root" then none else named) old) ↔
      Settable named name old := by
  unfold OwnerIs Settable
  by_cases hdash : name = "-"
  · rw [if_pos hdash, if_pos hdash]
  · rw [if_neg hdash, if_neg hdash]
    by_cases hroot : name = "root"
    · rw [if_pos hroot, if_pos hroot, if_pos (.inr hroot)]
      exact Iff.rfl
    · rw [if_neg hroot, if_neg hroot, if_neg fun h => h.elim hdash hroot]
      cases named with
      | none => exact iff_of_false (fun h => nomatch h) fun ⟨n, h, _⟩ => nomatch h
      | some n =>
        rw [newId]
        constructor
        · intro h
          refine ⟨n, rfl, fun hn => ?_⟩
          rw [if_pos hn, Option.some.injEq] at h
          rw [← h, hn]
        · intro h
          obtain ⟨k, hk, hall⟩ := h
          cases hk
          split_ifs with hn
          · rw [hall hn, hn]
          · rfl

/-- The entry's mode and owner are there if and only if the node was fit for them. -/
theorem given_adjust_iff : e.Given db (e.adjust db n).attrs ↔ e.Fits db n := by
  have huser := ownerIs_newId (resolveUid db e.user) e.user n.attrs.uid
  have hgroup := ownerIs_newId (resolveGid db e.group) e.group n.attrs.gid
  rw [← Entry.uid, ← uid_adjust] at huser
  rw [← Entry.gid, ← gid_adjust] at hgroup
  constructor
  · intro h
    refine ⟨fun m hm hchown hdir => ?_, huser.1 h.user, hgroup.1 h.group⟩
    have hmode := h.mode m hm
    rwa [mode_adjust hm, if_pos ⟨hchown, hdir⟩] at hmode
  · intro h
    refine ⟨fun m hm => ?_, huser.2 h.user, hgroup.2 h.group⟩
    rw [mode_adjust hm]
    split_ifs with hchown
    · exact h.mode m hm hchown.1 hchown.2
    · rfl

/-- The node was of the same kind, where a kind is what attributes make a node. -/
theorem adjust_eq_iff (kind : Attrs → Node) (hmap : ∀ g a, mapAttrs g (kind a) = kind (g a))
    (hattrs : ∀ a, (kind a).attrs = a) : e.adjust db n = kind a ↔
      ∃ a₀, n = kind a₀ ∧ a = (e.adjust db n).attrs := by
  constructor
  · intro h
    have hback : n = mapAttrs (fun _ => n.attrs) (e.adjust db n) := by
      rw [adjust_eq]
      cases n <;> rfl
    refine ⟨n.attrs, ?_, by rw [h, hattrs]⟩
    rw [h, hmap] at hback
    exact hback
  · intro h
    obtain ⟨a₀, hn, ha⟩ := h
    have hmapped : mapAttrs (fun _ => (e.adjust db n).attrs) n = kind (e.adjust db n).attrs := by
      generalize (e.adjust db n).attrs = b
      rw [hn, hmap]
    rw [ha, ← hmapped]
    exact adjust_eq db e n

/-- What the path leads to is changed, and nothing else. -/
theorem applyModeOwner_of_resolve (hresolve : resolve t true e.path = .ok p)
    (hn : nodeAt p t = some n) :
    applyModeOwner db e t = (.ok (), update (fun _ => some (e.adjust db n)) p t) := by
  have hsome : (stat t e.path).isNone = false := by
    rw [stat_of_resolve hresolve, hn]
    rfl
  unfold applyModeOwner applyMode Entry.adjust
  cases e.mode with
  | none =>
    dsimp only
    split_ifs
    · rw [chown, changeNode_of_stat hresolve hn]
    · rw [update_of_fixed hn.symm]
  | some m =>
    dsimp only
    rw [hsome, if_neg Bool.false_ne_true, setPermissions, changeNode_of_stat hresolve hn]
    dsimp only
    split_ifs
    · have halike : Alike n (setMode m n) := alike_mapAttrs _ n
      obtain ⟨hself, hsame⟩ := change_spec hn halike
      have hagain := hsame _ _ _ hresolve (view_ne_none hn)
      rw [chown, changeNode_of_stat hagain hself]
      dsimp only
      rw [update_update (Option.some_ne_none _)]
      rfl
    · rfl

/-- Where the path leads to nothing, success means that nothing was to be done. -/
theorem applyModeOwner_of_stat_none (hnone : stat t e.path = none)
    (h : applyModeOwner db e t = (.ok (), t')) : t' = t := by
  unfold applyModeOwner applyMode at h
  cases hm : e.mode with
  | some m =>
    rw [hm] at h
    dsimp only at h
    rw [hnone, Option.isNone_none, if_pos rfl] at h
    cases h
  | none =>
    rw [hm] at h
    dsimp only at h
    split_ifs at h
    · rw [chown, changeNode_of_stat_none hnone] at h
      cases h
    · rw [Prod.mk.injEq] at h
      exact h.2.symm

/-- A node that the entry was applied to, and where the path leads to now. -/
theorem applied_spec (hresolve : resolve t true e.path = .ok p) (hn : nodeAt p t = some n)
    (h : applyModeOwner db e t = (.ok (), t')) :
    resolve t' true e.path = .ok p ∧ nodeAt p t' = some (e.adjust db n) ∧
      applyModeOwner db e t' = (.ok (), t') := by
  rw [applyModeOwner_of_resolve hresolve hn, Prod.mk.injEq] at h
  rw [← h.2]
  obtain ⟨hself, hsame⟩ := change_spec hn (alike_adjust db e n)
  have hagain := hsame _ _ _ hresolve (view_ne_none hn)
  refine ⟨hagain, hself, ?_⟩
  rw [applyModeOwner_of_resolve hagain hself, adjust_adjust,
    update_update (Option.some_ne_none _)]
  rfl

end Adjust

end Quantra.Tmpfiles
