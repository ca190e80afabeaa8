import Quantra.System.Tmpfiles.Entry

/-! `wipe_directory`: the removal of what is in a directory, through a path that may go by it. -/
namespace Quantra.Tmpfiles
open FileTree FileCalls

section Wipe
variable {t low : Tree} {path names : List String} {p : Place} {n : Node} {a : Attrs}
  {x : String} {es : List (String × Node)}

theorem pruned_removeEntry (t : Tree) (path : List String) : Pruned t (removeEntry t path) := by
  unfold removeEntry
  split_ifs
  · exact pruned_removeDirAll t path
  · exact pruned_removeFile t path

theorem pruned_removeNames (path names : List String) (t : Tree) :
    Pruned t (removeNames path names t) := by
  induction names generalizing t with
  | nil => exact Pruned.refl t
  | cons x names ih => exact (pruned_removeEntry t _).trans (ih (removeEntry t (path ++ [x])))

theorem removeEntry_eq (h : resolve t false path = .ok p) (hn : nodeAt p t = some n)
    (hreach : ∀ a es, n = .dir a es →
      resolve (update (fun _ => some (.dir a (removeEntries es))) p t) false path = .ok p) :
    removeEntry t path = update (fun _ => n.remove) p t := by
  unfold removeEntry
  rcases n with ⟨a, c⟩ | ⟨a, target⟩ | ⟨a, es⟩
  · rw [isDir_of_file h hn, if_neg Bool.false_ne_true]
    exact removeFile_eq h hn Shape.noConfusion
  · have hfile := removeFile_eq h hn (Shape.noConfusion : Shape.link target ≠ .dir)
    rw [removeDirAll_of_link h hn, ite_self]
    exact hfile
  · rw [if_pos (isDir_of_dir h hn)]
    exact removeDirAll_eq h hn (hreach a es rfl)

/-- The entry of a directory is removed, if the path leads to the directory in some tree that stays
within while it is. -/
theorem removeEntry_child (hx : x ≠ "..") (hp : nodeAt p t = some (.dir a es))
    (hn : lookup x es = some n) (hlow : resolve low true path = .ok p)
    (hdir : view low p = some .dir) (hwithin : Within low t)
    (hmid : ∀ b entries, n = .dir b entries →
      Within low (update (fun _ => some (.dir b (removeEntries entries))) (p ++ [x]) t)) :
    removeEntry t (path ++ [x]) =
      update (fun _ => some (.dir a (updateEntry x (fun _ => n.remove) es))) p t := by
  have hview : view low p ≠ none := by
    rw [hdir]
    exact Option.some_ne_none _
  have hresolve : resolve t false (path ++ [x]) = .ok (p ++ [x]) :=
    resolve_concat hx (resolve_within hlow hwithin hview) (hwithin _ _ hdir)
  have hchild : nodeAt (p ++ [x]) t = some n := by rw [nodeAt_concat_of_dir hp, hn]
  have hremove := removeEntry_eq hresolve hchild fun b entries hb =>
    resolve_concat hx (resolve_within hlow (hmid b entries hb) hview) (hmid b entries hb _ _ hdir)
  rw [hremove, update_append]
  exact update_congr (by rw [hp]; rfl)

theorem emptied_within (hp : nodeAt p t = some (.dir a es)) : Within (emptied a p t) t := by
  refine within_update (hasParent_of_nodeAt hp) ?_
  rw [hp]
  exact within_dir fun x => within_none

theorem emptied_update {f : Tree → Tree} (hf : f (nodeAt p t) ≠ none) :
    emptied a p (update f p t) = emptied a p t := by
  rw [emptied, update_update hf]
  rfl

/-- A directory without its entries is within the one where an entry has been changed. -/
theorem emptied_within_child (hp : nodeAt p t = some (.dir a es)) :
    Within (emptied a p t) (update (fun _ => some n) (p ++ [x]) t) := by
  rw [update_append]
  have hdir : update (fun _ => some n) [x] (nodeAt p t) =
      some (.dir a (updateEntry x (fun _ => some n) es)) := by
    rw [hp]
    rfl
  have hself := nodeAt_update_self (f := update (fun _ => some n) [x]) (hasParent_of_nodeAt hp)
  rw [hdir] at hself
  have hsame : emptied a p (update (update (fun _ => some n) [x]) p t) = emptied a p t :=
    emptied_update (by rw [hdir]; exact Option.some_ne_none _)
  rw [← hsame]
  exact emptied_within hself

theorem names_proper (hproper : Proper t) (hp : nodeAt p t = some (.dir a es)) :
    (es.map Prod.fst).Nodup ∧ ".." ∉ es.map Prod.fst := by
  have hdir : (Node.dir a es).Proper := proper_nodeAt hproper _ hp
  exact ⟨hdir.1, hdir.2.1⟩

/-- Where the path does not go by the entries and none of them is stuck, all are removed. -/
theorem removeNames_of_reaches (hproper : Proper t) (hp : nodeAt p t = some (.dir a es))
    (hstuck : stuckEntries es = false) (hreach : resolve (emptied a p t) true path = .ok p) :
    removeNames path (es.map Prod.fst) t = emptied a p t := by
  induction es generalizing t with
  | nil => exact (update_of_fixed hp.symm).symm
  | cons entry es ih =>
    obtain ⟨x, n⟩ := entry
    obtain ⟨hnodup, hup⟩ := names_proper hproper hp
    rw [List.map_cons, List.nodup_cons] at hnodup
    rw [List.map_cons, List.mem_cons, not_or] at hup
    rw [stuckEntries, Bool.or_eq_false_iff] at hstuck
    have hdir : view (emptied a p t) p = some .dir :=
      view_eq_dir_iff.2 ⟨a, [], nodeAt_update_self (hasParent_of_nodeAt hp)⟩
    have hstep := removeEntry_child (Ne.symm hup.1) hp (if_pos rfl) hreach hdir
      (emptied_within hp) fun b entries hb => emptied_within_child hp
    have hrest : updateEntry x (fun _ => n.remove) ((x, n) :: es) = es := by
      have habsent : lookup x es = none := by
        by_contra hne
        exact hnodup.1 (mem_names_iff.2 hne)
      rw [n.remove_of_not_stuck hstuck.1]
      show dropEntry x ((x, n) :: es) = es
      rw [dropEntry_cons_self, dropEntry_of_lookup habsent]
    rw [hrest] at hstep
    have hself := nodeAt_update_self (f := fun _ => some (.dir a es)) (hasParent_of_nodeAt hp)
    have hproper' := (pruned_removeEntry t (path ++ [x]) hproper).1
    rw [hstep] at hproper'
    have hsame : emptied a p (update (fun _ => some (.dir a es)) p t) = emptied a p t :=
      emptied_update (Option.some_ne_none _)
    have hall := ih hproper' hself hstuck.2 (by rw [hsame]; exact hreach)
    rw [hsame] at hall
    rw [List.map_cons, removeNames, List.foldl_cons, hstep]
    exact hall

theorem pruned_removeEntry_entries (h : resolve t false path = .ok p)
    (hn : nodeAt p t = some (.dir a es)) :
    Pruned (update (fun _ => some (.dir a (removeEntries es))) p t) (removeEntry t path) := by
  rw [removeEntry, if_pos (isDir_of_dir h hn)]
  exact pruned_removeDirAll_entries h hn

/-- If the path still leads to the directory at the end, each name has been removed as far as it can
be. -/
theorem removeNames_spec (hproper : Proper t) (hp : nodeAt p t = some (.dir a es))
    (hnodup : names.Nodup) (hup : ".." ∉ names) (hnames : ∀ x ∈ names, lookup x es ≠ none)
    (hreach : resolve (removeNames path names t) true path = .ok p)
    (hdir : view (removeNames path names t) p = some .dir) :
    ∃ es', removeNames path names t = update (fun _ => some (.dir a es')) p t ∧
      (∀ y, y ∉ names → lookup y es' = lookup y es) ∧
      ∀ y ∈ names, ∀ n, lookup y es = some n → lookup y es' = n.remove := by
  induction names generalizing t es with
  | nil => exact ⟨es, (update_of_fixed hp.symm).symm, fun _ _ => rfl, fun _ hmem => nomatch hmem⟩
  | cons x names ih =>
    rw [List.nodup_cons] at hnodup
    rw [List.mem_cons, not_or] at hup
    obtain ⟨n, hn⟩ := Option.ne_none_iff_exists'.1 (hnames x List.mem_cons_self)
    have hfinal : removeNames path (x :: names) t =
      removeNames path names (removeEntry t (path ++ [x])) := rfl
    rw [hfinal] at hreach hdir ⊢
    obtain ⟨hproper', hstep⟩ := pruned_removeEntry t (path ++ [x]) hproper
    have hrest := (pruned_removeNames path names _ hproper').2
    have hwithin := hrest.trans hstep
    have hview : view (removeNames path names (removeEntry t (path ++ [x]))) p ≠ none := by
      rw [hdir]
      exact Option.some_ne_none _
    have hresolve : resolve t false (path ++ [x]) = .ok (p ++ [x]) :=
      resolve_concat (Ne.symm hup.1) (resolve_within hreach hwithin hview) (hwithin _ _ hdir)
    have hchild : nodeAt (p ++ [x]) t = some n := by rw [nodeAt_concat_of_dir hp, hn]
    have hremove := removeEntry_child (Ne.symm hup.1) hp hn hreach hdir hwithin
      fun b entries hb => by
        rw [hb] at hchild
        have hmid := (pruned_entries hresolve hchild hproper).1
        exact hrest.trans (pruned_removeEntry_entries hresolve hchild hmid).2
    rw [hremove] at hproper' hreach hdir ⊢
    have hself := nodeAt_update_self (f := fun _ =>
      some (.dir a (updateEntry x (fun _ => n.remove) es))) (hasParent_of_nodeAt hp)
    have hother : ∀ y, y ≠ x → lookup y (updateEntry x (fun _ => n.remove) es) = lookup y es :=
      fun y hy => lookup_updateEntry_ne hy
    obtain ⟨es', hall, hkept, hgone⟩ := ih hproper' hself hnodup.2 hup.2
      (fun y hy => by
        rw [hother y fun hyx => hnodup.1 (hyx ▸ hy)]
        exact hnames y (List.mem_cons_of_mem _ hy)) hreach hdir
    refine ⟨es', ?_, fun y hy => ?_, fun y hy m hm => ?_⟩
    · rw [hall, update_update (Option.some_ne_none _)]
      rfl
    · rw [List.mem_cons, not_or] at hy
      rw [hkept y hy.2, hother y hy.1]
    · rw [List.mem_cons] at hy
      by_cases hyx : y = x
      · rw [hyx] at hm ⊢
        rw [hn, Option.some.injEq] at hm
        rw [hkept x hnodup.1, lookup_updateEntry_self, hm]
      · exact hgone y (hy.resolve_left hyx) m (by rw [hother y hyx, hm])

theorem lookup_of_stuckEntries (hnodup : (es.map Prod.fst).Nodup) (h : stuckEntries es = true) :
    ∃ x n, lookup x es = some n ∧ n.stuck = true := by
  induction es with
  | nil => cases h
  | cons entry es ih =>
    obtain ⟨y, m⟩ := entry
    rw [List.map_cons, List.nodup_cons] at hnodup
    rw [stuckEntries, Bool.or_eq_true] at h
    obtain hm | hes := h
    · exact ⟨y, m, if_pos rfl, hm⟩
    · obtain ⟨x, n, hn, hstuck⟩ := ih hnodup.2 hes
      refine ⟨x, n, ?_, hstuck⟩
      rw [lookup]
      split_ifs with hyx
      · dsimp only at hyx
        have hmem : x ∈ es.map Prod.fst := mem_names_iff.2 (by rw [hn]; exact Option.some_ne_none n)
        rw [← hyx] at hmem
        exact absurd hmem hnodup.1
      · exact hn

theorem wipeDirectory_of_reaches (hproper : Proper t) (hresolve : resolve t true path = .ok p)
    (hp : nodeAt p t = some (.dir a es)) (hstuck : stuckEntries es = false)
    (hreach : resolve (emptied a p t) true path = .ok p) :
    wipeDirectory t path = emptied a p t := by
  rw [wipeDirectory, stat_of_resolve hresolve, hp]
  exact removeNames_of_reaches hproper hp hstuck hreach

/-- If the directory is empty after its wiping, the path did not go by its entries and none of them
was stuck. -/
theorem reaches_of_wiped {q : Place} {b : Attrs} (hproper : Proper t)
    (hresolve : resolve t true path = .ok p) (hp : nodeAt p t = some (.dir a es))
    (hq : resolve (wipeDirectory t path) true path = .ok q)
    (hn : nodeAt q (wipeDirectory t path) = some (.dir b [])) :
    stuckEntries es = false ∧ resolve (emptied a p t) true path = .ok p := by
  have hwipe : wipeDirectory t path = removeNames path (es.map Prod.fst) t := by
    rw [wipeDirectory, stat_of_resolve hresolve, hp]
  obtain ⟨hnodup, hup⟩ := names_proper hproper hp
  rw [hwipe] at hq hn
  have hdir : view (removeNames path (es.map Prod.fst) t) q = some .dir :=
    view_eq_dir_iff.2 ⟨b, [], hn⟩
  have hsame : resolve t true path = .ok q :=
    resolve_within hq (pruned_removeNames path _ t hproper).2 (view_ne_none hn)
  rw [hresolve, Except.ok.injEq] at hsame
  rw [← hsame] at hq hn hdir
  obtain ⟨es', hall, -, hgone⟩ :=
    removeNames_spec hproper hp hnodup hup (fun x hx => mem_names_iff.1 hx) hq hdir
  rw [hall] at hq hn
  rw [nodeAt_update_self (hasParent_of_nodeAt hp), Option.some.injEq, Node.dir.injEq] at hn
  rw [hn.2] at hq hgone
  refine ⟨?_, hq⟩
  by_contra hstuck
  rw [Bool.not_eq_false] at hstuck
  obtain ⟨x, n, hx, hn'⟩ := lookup_of_stuckEntries hnodup hstuck
  obtain ⟨n', hleft, -⟩ := n.stuck_remove hn'
  have hmem : x ∈ es.map Prod.fst := mem_names_iff.2 (by rw [hx]; exact Option.some_ne_none n)
  have hnone : none = n.remove := hgone x hmem n hx
  rw [hleft] at hnone
  cases hnone

end Wipe

end Quantra.Tmpfiles
