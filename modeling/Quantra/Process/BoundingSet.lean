import Quantra.Process.Capabilities
import Mathlib.Data.Finset.SDiff
import Mathlib.Data.Finset.Dedup

/-! `capability_bounding_set`: what a list of the option asks for, and what the loop of the child
makes of the bounding set. -/
namespace Quantra.Process
open Calls Calls.Prog Quantra.Sandbox Quantra.Services

/-- The loop of `apply_child_hardening` over the numbers that `resolve_bounding_set` has made. -/
def dropOutside (keep : List ℕ) : Launching :=
  when (keep ≠ []) (each ((List.range 40).filter (· ∉ keep)) fun cap =>
    regardless (.capbsetDrop cap))

theorem applyChildHardening_eq (cfg : ServiceLaunch) : applyChildHardening cfg = inTurn [
    when cfg.noNewPrivileges (orExit .setNoNewPrivs hardeningFailed),
    when cfg.nonDumpable (orExit .setDumpable hardeningFailed),
    when cfg.clearAmbientCaps (orExit .ambientClearAll hardeningFailed),
    dropOutside cfg.capabilityBoundingSet,
    each cfg.dropCapabilities fun cap => orExit (.capbsetDrop cap) hardeningFailed,
    each cfg.ambientCapabilities fun cap => (ask (.ambientRaise cap)).check (fun _ => done) fun _ =>
      regardless (.report "[zai-init] ambient cap raise failed (non-fatal)\n")] := rfl

/-! What is documented. -/

/-- An entry that names what is not to be kept. -/
def IsInverted (entry : String) : Prop := entry.toList.head? = some '~'

instance (entry : String) : Decidable (IsInverted entry) := inferInstanceAs (Decidable (_ = _))

/-- The capability of an entry, with or without a tilde before it. -/
def capabilityOf (entry : String) : Option ℕ :=
  capabilityNameToNumber (Text.trimStartMatches '~' entry)

def namedCapabilities (names : List String) : Finset ℕ :=
  allCapabilities.filter fun cap => ∃ entry ∈ names, capabilityOf entry = some cap

/-- The bounding set that a list of plain names or one of inverted names is to leave. A list that
has both is not documented, and the empty list changes nothing. -/
structure Bounds (names : List String) (before after : Finset ℕ) : Prop where
  plain : names ≠ [] → (∀ entry ∈ names, ¬ IsInverted entry) →
    after = before ∩ namedCapabilities names
  inverted : (∀ entry ∈ names, IsInverted entry) → after = before \ namedCapabilities names

/-- The child after its loop over the list. -/
def AfterLoop (names : List String) (k k' : Creds) : Prop :=
  (dropOutside (resolveBoundingSet names)).run performLaunch k = some (.ok (), k')

/-- A name that is not known gives the child nothing that it would not have without the name. -/
def UnknownHarmless (names : List String) (k k' : Creds) : Prop :=
  ∀ front entry back k'', names = front ++ entry :: back → capabilityOf entry = none →
    AfterLoop (front ++ back) k k'' → k'.bounding ⊆ k''.bounding

/-- The lists that the loop does right by: a plain one has a known name, and has the last capability
unless the process is without; an inverted one has no known name. A process whose bounding set is
as good as empty may have others. -/
structure Respected (names : List String) (before : Finset ℕ) : Prop where
  plain : names ≠ [] → (∀ entry ∈ names, ¬ IsInverted entry) →
    (namedCapabilities names = ∅ → before = ∅) ∧
      (capLast ∈ before → capLast ∈ namedCapabilities names)
  inverted : (∀ entry ∈ names, IsInverted entry) →
    namedCapabilities names = ∅ ∨ before ⊆ {capLast} \ namedCapabilities names

/-! The loop. -/

section Loop
variable {k : Creds} {names : List String}

theorem mem_resolveBoundingSet {cap : ℕ} :
    cap ∈ resolveBoundingSet names ↔ cap ∈ namedCapabilities names := by
  rw [namedCapabilities, Finset.mem_filter, resolveBoundingSet, List.mem_filterMap]
  constructor
  · intro h
    obtain ⟨entry, hentry, hcap⟩ := h
    have hle := capabilityNameToNumber_le hcap
    exact ⟨Finset.mem_range.2 (Nat.lt_succ_of_le hle), entry, hentry, hcap⟩
  · exact And.right

theorem resolveBoundingSet_eq_nil_iff :
    resolveBoundingSet names = [] ↔ namedCapabilities names = ∅ := by
  rw [List.eq_nil_iff_forall_not_mem, Finset.eq_empty_iff_forall_notMem]
  exact forall_congr' fun cap => not_congr mem_resolveBoundingSet

theorem run_eachDrop (caps : List ℕ) (hcaps : ∀ cap ∈ caps, cap ≤ capLast)
    (hk : capSetpcap ∈ k.effective) :
    (each caps fun cap => regardless (.capbsetDrop cap)).run performLaunch k =
      some (.ok (), { k with bounding := k.bounding \ caps.toFinset }) := by
  induction caps generalizing k with
  | nil => simp
  | cons cap caps ih =>
    have hcap : cap ≤ capLast := hcaps cap (List.mem_cons_self ..)
    have hdrop : performLaunch (.capbsetDrop cap) k =
        some (.ok 0, { k with bounding := k.bounding.erase cap }) := by
      simp only [performLaunch, if_pos hcap, Creds.need, if_pos hk]
    have hrest := ih (k := { k with bounding := k.bounding.erase cap })
      (fun c hc => hcaps c (List.mem_cons_of_mem cap hc)) hk
    rw [each_cons, run_andThen, run_regardless hdrop, Option.bind_some]
    refine hrest.trans ?_
    have hset : k.bounding.erase cap \ caps.toFinset = k.bounding \ (cap :: caps).toFinset := by
      ext c
      simp only [Finset.mem_sdiff, Finset.mem_erase, List.mem_toFinset, List.mem_cons]
      tauto
    rw [hset]

/-- What the loop leaves: the last capability is not among those that it looks at. -/
def leftOver (names : List String) (before : Finset ℕ) : Finset ℕ :=
  if namedCapabilities names = ∅ then before
  else before.filter fun cap => cap ∈ namedCapabilities names ∨ 40 ≤ cap

theorem run_dropOutside (hk : capSetpcap ∈ k.effective) :
    (dropOutside (resolveBoundingSet names)).run performLaunch k =
      some (.ok (), { k with bounding := leftOver names k.bounding }) := by
  unfold dropOutside leftOver
  by_cases hnil : resolveBoundingSet names = []
  · rw [if_pos (resolveBoundingSet_eq_nil_iff.1 hnil), hnil]
    rfl
  · have hle : ∀ cap ∈ (List.range 40).filter (· ∉ resolveBoundingSet names), cap ≤ capLast := by
      intro cap hcap
      exact Nat.le_of_lt (List.mem_range.1 (List.mem_filter.1 hcap).1)
    have hset : k.bounding \ ((List.range 40).filter (· ∉ resolveBoundingSet names)).toFinset =
        k.bounding.filter fun cap => cap ∈ namedCapabilities names ∨ 40 ≤ cap := by
      ext cap
      simp only [Finset.mem_sdiff, List.mem_toFinset, List.mem_filter, List.mem_range,
        decide_eq_true_eq, mem_resolveBoundingSet, Finset.mem_filter]
      constructor
      · intro h
        refine ⟨h.1, ?_⟩
        by_contra hno
        rw [not_or] at hno
        exact h.2 ⟨Nat.lt_of_not_le hno.2, hno.1⟩
      · intro h
        refine ⟨h.1, fun hdropped => ?_⟩
        obtain hnamed | hlast := h.2
        · exact hdropped.2 hnamed
        · exact absurd hlast (Nat.not_le_of_lt hdropped.1)
    rw [if_neg (mt resolveBoundingSet_eq_nil_iff.2 hnil), Prog.when, if_pos (by simpa using hnil),
      run_eachDrop _ hle hk, hset]

theorem afterLoop_iff (hk : capSetpcap ∈ k.effective) {k' : Creds} :
    AfterLoop names k k' ↔ k' = { k with bounding := leftOver names k.bounding } := by
  unfold AfterLoop
  rw [run_dropOutside hk]
  constructor
  · intro h
    exact (congrArg Prod.snd (Option.some.inj h)).symm
  · intro h
    rw [h]

/-- An entry that names nothing might as well not be there. -/
theorem namedCapabilities_of_unknown {front back : List String} {entry : String}
    (h : capabilityOf entry = none) :
    namedCapabilities (front ++ entry :: back) = namedCapabilities (front ++ back) := by
  unfold namedCapabilities
  refine Finset.filter_congr fun cap _ => ?_
  constructor
  · intro hnamed
    obtain ⟨e, he, hcap⟩ := hnamed
    have hne : e ≠ entry := by
      intro heq
      rw [heq, h] at hcap
      cases hcap
    refine ⟨e, ?_, hcap⟩
    rw [List.mem_append, List.mem_cons] at he
    rw [List.mem_append]
    exact he.imp_right fun htail => htail.resolve_left hne
  · intro hnamed
    obtain ⟨e, he, hcap⟩ := hnamed
    refine ⟨e, ?_, hcap⟩
    rw [List.mem_append] at he
    rw [List.mem_append, List.mem_cons]
    exact he.imp_right .inr

theorem unknownHarmless (hk : capSetpcap ∈ k.effective) {k' : Creds}
    (h : AfterLoop names k k') : UnknownHarmless names k k' := by
  intro front entry back k'' hnames hunknown hwithout
  rw [afterLoop_iff hk] at h hwithout
  have hsame : leftOver names k.bounding = leftOver (front ++ back) k.bounding := by
    unfold leftOver
    rw [hnames, namedCapabilities_of_unknown hunknown]
  rw [h, hwithout, hsame]

/-! When what is left over is what was to be left. -/

variable {before : Finset ℕ}

theorem leftOver_eq_inter_iff (hbefore : before ⊆ allCapabilities) :
    leftOver names before = before ∩ namedCapabilities names ↔
      (namedCapabilities names = ∅ → before = ∅) ∧
        (capLast ∈ before → capLast ∈ namedCapabilities names) := by
  unfold leftOver
  split_ifs with hnone
  · rw [hnone, Finset.inter_empty]
    constructor
    · intro h
      rw [h]
      exact ⟨fun _ => rfl, fun hlast => absurd hlast (Finset.notMem_empty _)⟩
    · intro h
      exact h.1 rfl
  · constructor
    · intro h
      refine ⟨fun hnamed => absurd hnamed hnone, fun hlast => ?_⟩
      have hleft : capLast ∈ before.filter fun cap => cap ∈ namedCapabilities names ∨ 40 ≤ cap :=
        Finset.mem_filter.2 ⟨hlast, .inr (Nat.le_refl 40)⟩
      rw [h] at hleft
      exact (Finset.mem_inter.1 hleft).2
    · intro h
      ext cap
      rw [Finset.mem_filter, Finset.mem_inter]
      refine and_congr_right fun hcap => ⟨fun hleft => ?_, .inl⟩
      obtain hnamed | hlast := hleft
      · exact hnamed
      · have hlt : cap < capLast + 1 := Finset.mem_range.1 (hbefore hcap)
        have heq : cap = capLast := by
          unfold capLast at hlt ⊢
          omega
        rw [heq] at hcap ⊢
        exact h.2 hcap

theorem leftOver_eq_sdiff_iff (hbefore : before ⊆ allCapabilities) :
    leftOver names before = before \ namedCapabilities names ↔
      namedCapabilities names = ∅ ∨ before ⊆ {capLast} \ namedCapabilities names := by
  unfold leftOver
  split_ifs with hnone
  · rw [hnone, Finset.sdiff_empty]
    exact iff_of_true rfl (.inl rfl)
  · rw [or_iff_right hnone]
    constructor
    · intro h cap hcap
      have hiff := Finset.ext_iff.1 h cap
      rw [Finset.mem_filter, Finset.mem_sdiff, and_congr_right_iff] at hiff
      have hnamed : cap ∉ namedCapabilities names :=
        fun hnamed => (hiff hcap).1 (.inl hnamed) hnamed
      have hlast : 40 ≤ cap := ((hiff hcap).2 hnamed).resolve_left hnamed
      have hlt : cap < capLast + 1 := Finset.mem_range.1 (hbefore hcap)
      have heq : cap = capLast := by
        unfold capLast at hlt ⊢
        omega
      exact Finset.mem_sdiff.2 ⟨Finset.mem_singleton.2 heq, hnamed⟩
    · intro h
      ext cap
      rw [Finset.mem_filter, Finset.mem_sdiff]
      refine and_congr_right fun hcap => ?_
      obtain ⟨hlast, hnamed⟩ := Finset.mem_sdiff.1 (h hcap)
      refine iff_of_true (.inr ?_) hnamed
      rw [Finset.mem_singleton.1 hlast]
      exact Nat.le_refl 40

theorem bounds_leftOver_iff (hbefore : before ⊆ allCapabilities) :
    Bounds names before (leftOver names before) ↔ Respected names before := by
  constructor
  · intro h
    exact ⟨fun hne hplain => (leftOver_eq_inter_iff hbefore).1 (h.plain hne hplain),
      fun hinv => (leftOver_eq_sdiff_iff hbefore).1 (h.inverted hinv)⟩
  · intro h
    exact ⟨fun hne hplain => (leftOver_eq_inter_iff hbefore).2 (h.plain hne hplain),
      fun hinv => (leftOver_eq_sdiff_iff hbefore).2 (h.inverted hinv)⟩

theorem exists_afterLoop_iff (hk : capSetpcap ∈ k.effective) :
    (∃ k', AfterLoop names k k' ∧ Bounds names k.bounding k'.bounding ∧
      UnknownHarmless names k k') ↔
        Bounds names k.bounding (leftOver names k.bounding) := by
  constructor
  · intro h
    obtain ⟨k', hafter, hbounds, -⟩ := h
    rw [(afterLoop_iff hk).1 hafter] at hbounds
    exact hbounds
  · intro h
    have hafter : AfterLoop names k { k with bounding := leftOver names k.bounding } :=
      (afterLoop_iff hk).2 rfl
    exact ⟨_, hafter, h, unknownHarmless hk hafter⟩

end Loop

/-- The loop of a process with `CAP_SETPCAP` leaves what is documented exactly for the lists that it
does right by; a name that is not known never does harm. -/
theorem bounding_set_iff (names : List String) (k : Creds)
    (hk : capSetpcap ∈ k.effective) (hbefore : k.bounding ⊆ allCapabilities) :
    (∃ k', AfterLoop names k k' ∧ Bounds names k.bounding k'.bounding ∧
      UnknownHarmless names k k') ↔ Respected names k.bounding := by
  rw [exists_afterLoop_iff hk]
  exact bounds_leftOver_iff hbefore

/-- Two capabilities kept, the last one among them. -/
theorem bounding_set_two :
    ∃ k', AfterLoop ["CAP_CHOWN", "checkpoint_restore"] pid1Creds k' ∧
      Bounds ["CAP_CHOWN", "checkpoint_restore"] pid1Creds.bounding k'.bounding ∧
      UnknownHarmless ["CAP_CHOWN", "checkpoint_restore"] pid1Creds k' := by
  refine (bounding_set_iff _ pid1Creds (by decide) (by decide)).2 ⟨fun _ _ => ?_, fun h => ?_⟩
  · have hlast : capLast ∈ namedCapabilities ["CAP_CHOWN", "checkpoint_restore"] := by
      decide +kernel
    exact ⟨fun hnone => absurd (hnone ▸ hlast) (Finset.notMem_empty _), fun _ => hlast⟩
  · exact absurd (h "CAP_CHOWN" (List.mem_cons_self ..)) (by decide)

/-- "All but `CAP_SYS_ADMIN`" keeps `CAP_SYS_ADMIN` and loses the others, a plain list keeps the
last capability as well, and one of unknown names keeps all. -/
theorem bounding_set_wrong :
    (¬ ∃ k', AfterLoop ["~CAP_SYS_ADMIN"] pid1Creds k' ∧
      Bounds ["~CAP_SYS_ADMIN"] pid1Creds.bounding k'.bounding ∧
      UnknownHarmless ["~CAP_SYS_ADMIN"] pid1Creds k') ∧
    (¬ ∃ k', AfterLoop ["CAP_CHOWN"] pid1Creds k' ∧
      Bounds ["CAP_CHOWN"] pid1Creds.bounding k'.bounding ∧
      UnknownHarmless ["CAP_CHOWN"] pid1Creds k') ∧
    ¬ ∃ k', AfterLoop ["CAP_TYPO"] pid1Creds k' ∧
      Bounds ["CAP_TYPO"] pid1Creds.bounding k'.bounding ∧
      UnknownHarmless ["CAP_TYPO"] pid1Creds k' := by
  have hk : capSetpcap ∈ pid1Creds.effective := by decide
  simp only [exists_afterLoop_iff hk]
  refine ⟨fun h => ?_, fun h => ?_, fun h => ?_⟩
  · have hinverted : ¬ leftOver ["~CAP_SYS_ADMIN"] pid1Creds.bounding =
      pid1Creds.bounding \ namedCapabilities ["~CAP_SYS_ADMIN"] := by decide +kernel
    exact hinverted (h.inverted (by decide))
  · have hlast : ¬ leftOver ["CAP_CHOWN"] pid1Creds.bounding =
      pid1Creds.bounding ∩ namedCapabilities ["CAP_CHOWN"] := by decide +kernel
    exact hlast (h.plain (by decide) (by decide))
  · have hunknown : ¬ leftOver ["CAP_TYPO"] pid1Creds.bounding =
      pid1Creds.bounding ∩ namedCapabilities ["CAP_TYPO"] := by decide +kernel
    exact hunknown (h.plain (by decide) (by decide))

end Quantra.Process
