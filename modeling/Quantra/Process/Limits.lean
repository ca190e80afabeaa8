import Quantra.Process.Capabilities
import Quantra.Services.Parser

/-! The resource limits of a service from its file to the kernel: what `validate_service` accepts,
and which of it `set_rlimit` puts in force. -/
namespace Quantra.Process
open Calls Calls.Prog Quantra.Sandbox Quantra.Services

/-- The entries of a table, in the order in which they are applied. -/
def configured (rl : ResourceLimits) : List (Resource × Option (ℕ × ℕ)) :=
  [(.nofile, rl.nofile), (.nproc, rl.nproc), (.fsize, rl.fsize), (.stack, rl.stack),
    (.memlock, rl.memlock), (.core, rl.core)]

theorem applyLimits_eq (rl : ResourceLimits) :
    applyLimits (some rl) = each (configured rl) fun p => setRlimit p.1 p.2 := rfl

/-! The kernel. -/

/-- `RLIM_INFINITY`. -/
def rlimInfinity : ℕ := 2 ^ 64 - 1

def rlimValue (limit : Option ℕ) : ℕ := limit.getD rlimInfinity

/-- The limits of a process, whether it may raise them, and the bound of `fs.nr_open`. -/
structure Limits where
  limit : Resource → ℕ × ℕ
  mayRaise : Bool
  nrOpen : ℕ

def Limits.setrlimit (k : Limits) (resource : Resource) (cur max : ℕ) : Outcome × Limits :=
  if max < cur then (einval, k)
  else if resource = .nofile ∧ k.nrOpen < max then (notPermitted, k)
  else if (k.limit resource).2 < max ∧ k.mayRaise = false then (notPermitted, k)
  else (.ok 0, { k with limit := fun r => if r = resource then (cur, max) else k.limit r })

def performLimits : ChildCall → Limits → Option (Outcome × Limits)
  | .lib (.setrlimit resource soft hard), k =>
    some (k.setrlimit resource (rlimValue soft) (rlimValue hard))
  | _, k => some (.ok 0, k)

/-! What is asked for. -/

/-- The structure that `set_rlimit` builds for a pair. -/
def rlimOf (pair : ℕ × ℕ) : ℕ × ℕ := (rlimValue (toRlim pair.1), rlimValue (toRlim pair.2))

def Asks (rl : ResourceLimits) (resource : Resource) (pair : ℕ × ℕ) : Prop :=
  (resource, some pair) ∈ configured rl

/-- The values of the table are of type `u64`. -/
def InRange (rl : ResourceLimits) : Prop :=
  ∀ resource pair, Asks rl resource pair → pair.1 < 2 ^ 64 ∧ pair.2 < 2 ^ 64

/-- Each structure is in order, and each limit is the one of the process. -/
structure LimitsInForce (rl : ResourceLimits) (after : Limits) : Prop where
  ordered : ∀ resource pair, Asks rl resource pair → (rlimOf pair).1 ≤ (rlimOf pair).2
  inForce : ∀ resource pair, Asks rl resource pair → after.limit resource = rlimOf pair

/-- An unlimited soft value has an unlimited hard one beside it, and the process may have the hard
value that is asked for. -/
structure Attainable (rl : ResourceLimits) (before : Limits) : Prop where
  unlimited : ∀ resource pair, Asks rl resource pair → pair.1 = 0 →
    pair.2 = 0 ∨ pair.2 = rlimInfinity
  files : ∀ pair, Asks rl .nofile pair →
    (rlimOf pair).2 ≤ before.nrOpen ∨ before.limit .nofile = rlimOf pair
  raise : ∀ resource pair, Asks rl resource pair → before.mayRaise = false →
    (rlimOf pair).2 ≤ (before.limit resource).2

/-! What the parser has seen to. -/

theorem forM_ok {α : Type} {f : α → Except String Unit} {as : List α} (h : as.forM f = .ok ()) :
    ∀ a ∈ as, f a = .ok () := by
  induction as with
  | nil => exact fun a ha => absurd ha List.not_mem_nil
  | cons a as ih =>
    have hcons : (a :: as).forM f = (f a).bind fun _ => as.forM f := rfl
    rw [hcons] at h
    cases hfirst : f a with
    | error e =>
      rw [hfirst] at h
      cases h
    | ok u =>
      rw [hfirst] at h
      intro a' ha'
      obtain rfl | ha' := List.mem_cons.1 ha'
      · exact hfirst
      · exact ih h a' ha'

section Accepted
variable {isAlphanumeric : Char → Bool} {svc : Service} {rl : ResourceLimits} {pair : ℕ × ℕ}

theorem le_of_validateLimit {limit : String} (h : validateLimit svc limit (some pair) = .ok ()) :
    pair.2 = 0 ∨ pair.1 ≤ pair.2 := by
  unfold validateLimit at h
  split at h
  · rename_i soft hard heq
    rw [Option.some.injEq] at heq
    subst heq
    split at h
    · cases h
    · rename_i hfine
      dsimp only
      omega
  · rename_i heq
    cases heq

theorem le_of_validateLimits {resource : Resource} (h : validateLimits svc rl = .ok ())
    (hasks : Asks rl resource pair) : pair.2 = 0 ∨ pair.1 ≤ pair.2 := by
  have hall := forM_ok h
  have hvalue : some pair ∈ (configured rl).map Prod.snd := List.mem_map.2 ⟨_, hasks, rfl⟩
  have hnames : (configured rl).map Prod.snd = [("nofile", rl.nofile), ("nproc", rl.nproc),
      ("fsize", rl.fsize), ("stack", rl.stack), ("memlock", rl.memlock),
      ("core", rl.core)].map Prod.snd := rfl
  rw [hnames] at hvalue
  obtain ⟨entry, hentry, hpair⟩ := List.mem_map.1 hvalue
  have hok := hall entry hentry
  rw [hpair] at hok
  exact le_of_validateLimit hok

theorem validateLimits_of_accepted (h : validateService isAlphanumeric svc = .ok ())
    (hrl : svc.rlimit = some rl) : validateLimits svc rl = .ok () := by
  unfold validateService at h
  rw [hrl] at h
  split_ifs at h
  cases hlimits : validateLimits svc rl with
  | ok u => rfl
  | error e =>
    have hfails : (some rl).forM (validateLimits svc) = .error e := hlimits
    rw [hfails] at h
    cases h

end Accepted

theorem rlimOf_le_iff {pair : ℕ × ℕ} (hvalid : pair.2 = 0 ∨ pair.1 ≤ pair.2)
    (hsoft : pair.1 < 2 ^ 64) (hhard : pair.2 < 2 ^ 64) : (rlimOf pair).1 ≤ (rlimOf pair).2 ↔
      (pair.1 = 0 → pair.2 = 0 ∨ pair.2 = rlimInfinity) := by
  obtain ⟨soft, hard⟩ := pair
  dsimp only at hvalid hsoft hhard
  unfold rlimOf toRlim rlimValue rlimInfinity
  dsimp only
  split_ifs <;> simp only [Option.getD_none, Option.getD_some] <;> omega

/-! The calls. -/

def Limits.apply (k : Limits) (p : Resource × Option (ℕ × ℕ)) : Limits :=
  match p.2 with
  | none => k
  | some pair => (k.setrlimit p.1 (rlimOf pair).1 (rlimOf pair).2).2

def Limits.applyAll (k : Limits) (ps : List (Resource × Option (ℕ × ℕ))) : Limits :=
  ps.foldl Limits.apply k

/-- The kernel takes the values. -/
structure Limits.Grants (k : Limits) (resource : Resource) (v : ℕ × ℕ) : Prop where
  ordered : v.1 ≤ v.2
  files : resource = .nofile → v.2 ≤ k.nrOpen
  raise : k.mayRaise = false → v.2 ≤ (k.limit resource).2

section Calls
variable {k : Limits} {resource : Resource} {pair : ℕ × ℕ} {ps : List (Resource × Option (ℕ × ℕ))}

theorem setrlimit_of_grants {v : ℕ × ℕ} (h : k.Grants resource v) :
    (k.setrlimit resource v.1 v.2).2 =
      { k with limit := fun r => if r = resource then v else k.limit r } := by
  unfold Limits.setrlimit
  have hordered := h.ordered
  have hfiles : ¬ (resource = .nofile ∧ k.nrOpen < v.2) := fun hno =>
    absurd (h.files hno.1) (Nat.not_le_of_lt hno.2)
  have hraise : ¬ ((k.limit resource).2 < v.2 ∧ k.mayRaise = false) := fun hno =>
    absurd (h.raise hno.2) (Nat.not_le_of_lt hno.1)
  rw [if_neg (Nat.not_lt_of_le hordered), if_neg hfiles, if_neg hraise]

theorem setrlimit_of_not_grants {v : ℕ × ℕ} (h : ¬ k.Grants resource v) :
    (k.setrlimit resource v.1 v.2).2 = k := by
  unfold Limits.setrlimit
  split_ifs with hordered hfiles hraise
  · rfl
  · rfl
  · rfl
  · refine absurd ⟨Nat.le_of_not_lt hordered, fun hr => ?_, fun hm => ?_⟩ h
    · exact Nat.le_of_not_lt fun hlt => hfiles ⟨hr, hlt⟩
    · exact Nat.le_of_not_lt fun hlt => hraise ⟨hlt, hm⟩

theorem run_setRlimit (p : Resource × Option (ℕ × ℕ)) :
    (setRlimit p.1 p.2).run performLimits k = some (.ok (), k.apply p) := by
  obtain ⟨resource, limit⟩ := p
  cases limit with
  | none => rfl
  | some pair => rfl

theorem run_applyLimits (rl : ResourceLimits) :
    (applyLimits (some rl)).run performLimits k = some (.ok (), k.applyAll (configured rl)) := by
  rw [applyLimits_eq]
  generalize configured rl = ps
  induction ps generalizing k with
  | nil => rfl
  | cons p ps ih =>
    rw [each_cons, run_andThen, run_setRlimit]
    exact ih

theorem apply_some : k.apply (resource, some pair) =
    (k.setrlimit resource (rlimOf pair).1 (rlimOf pair).2).2 := rfl

/-- A limit is put in force for its resource, or nothing changes. -/
theorem Limits.apply_cases (k : Limits) (p : Resource × Option (ℕ × ℕ)) : k.apply p = k ∨
    ∃ v, k.apply p = { k with limit := fun r => if r = p.1 then v else k.limit r } := by
  obtain ⟨resource, limit⟩ := p
  cases limit with
  | none => exact .inl rfl
  | some pair =>
    rw [apply_some]
    by_cases h : k.Grants resource (rlimOf pair)
    · exact .inr ⟨rlimOf pair, setrlimit_of_grants h⟩
    · exact .inl (setrlimit_of_not_grants h)

@[simp] theorem mayRaise_apply (p : Resource × Option (ℕ × ℕ)) :
    (k.apply p).mayRaise = k.mayRaise := by
  obtain h | ⟨v, h⟩ := k.apply_cases p
  · rw [h]
  · rw [h]

@[simp] theorem nrOpen_apply (p : Resource × Option (ℕ × ℕ)) :
    (k.apply p).nrOpen = k.nrOpen := by
  obtain h | ⟨v, h⟩ := k.apply_cases p
  · rw [h]
  · rw [h]

theorem limit_apply_of_ne {p : Resource × Option (ℕ × ℕ)} (h : resource ≠ p.1) :
    (k.apply p).limit resource = k.limit resource := by
  obtain hsame | ⟨v, hset⟩ := k.apply_cases p
  · rw [hsame]
  · rw [hset]
    exact if_neg h

theorem limit_apply_self_iff : (k.apply (resource, some pair)).limit resource = rlimOf pair ↔
    k.Grants resource (rlimOf pair) ∨ k.limit resource = rlimOf pair := by
  rw [apply_some]
  by_cases hgrants : k.Grants resource (rlimOf pair)
  · rw [setrlimit_of_grants hgrants]
    exact iff_of_true (if_pos rfl) (.inl hgrants)
  · rw [setrlimit_of_not_grants hgrants, or_iff_right hgrants]

/-- What is granted for one resource does not hang on the limits of another. -/
theorem grants_apply_iff {p : Resource × Option (ℕ × ℕ)} (h : resource ≠ p.1) {v : ℕ × ℕ} :
    (k.apply p).Grants resource v ↔ k.Grants resource v := by
  constructor
  · intro hgrants
    have hfiles := hgrants.files
    have hraise := hgrants.raise
    rw [nrOpen_apply] at hfiles
    rw [mayRaise_apply, limit_apply_of_ne h] at hraise
    exact ⟨hgrants.ordered, hfiles, hraise⟩
  · intro hgrants
    constructor
    case ordered => exact hgrants.ordered
    case files => rw [nrOpen_apply]; exact hgrants.files
    case raise => rw [mayRaise_apply, limit_apply_of_ne h]; exact hgrants.raise

theorem limit_applyAll_of_not_mem (h : resource ∉ ps.map Prod.fst) :
    (k.applyAll ps).limit resource = k.limit resource := by
  induction ps generalizing k with
  | nil => rfl
  | cons p ps ih =>
    rw [List.map_cons, List.mem_cons, not_or] at h
    show ((k.apply p).applyAll ps).limit resource = _
    rw [ih h.2, limit_apply_of_ne h.1]

theorem limit_applyAll_iff (hnodup : (ps.map Prod.fst).Nodup)
    (hmem : (resource, some pair) ∈ ps) : (k.applyAll ps).limit resource = rlimOf pair ↔
      k.Grants resource (rlimOf pair) ∨ k.limit resource = rlimOf pair := by
  induction ps generalizing k with
  | nil => exact absurd hmem List.not_mem_nil
  | cons p ps ih =>
    rw [List.map_cons, List.nodup_cons] at hnodup
    show ((k.apply p).applyAll ps).limit resource = _ ↔ _
    obtain hhead | htail := List.mem_cons.1 hmem
    · subst hhead
      rw [limit_applyAll_of_not_mem hnodup.1]
      exact limit_apply_self_iff
    · have hne : resource ≠ p.1 := by
        intro heq
        rw [← heq] at hnodup
        exact hnodup.1 (List.mem_map.2 ⟨_, htail, rfl⟩)
      rw [ih hnodup.2 htail, grants_apply_iff hne, limit_apply_of_ne hne]

end Calls

theorem nodup_configured (rl : ResourceLimits) : ((configured rl).map Prod.fst).Nodup := by
  show [Resource.nofile, .nproc, .fsize, .stack, .memlock, .core].Nodup
  decide

/-- The limits of an accepted table are in order and in force after the child has applied them
exactly if they are attainable. -/
theorem limits_in_force_iff (isAlphanumeric : Char → Bool) (svc : Service) (rl : ResourceLimits)
    (before : Limits) (haccepted : validateService isAlphanumeric svc = .ok ())
    (hrl : svc.rlimit = some rl) (hrange : InRange rl) :
    (∃ after, (applyLimits svc.rlimit).run performLimits before = some (.ok (), after) ∧
      LimitsInForce rl after) ↔ Attainable rl before := by
  have hvalid := validateLimits_of_accepted haccepted hrl
  have hordered : ∀ resource pair, Asks rl resource pair →
      ((rlimOf pair).1 ≤ (rlimOf pair).2 ↔
        (pair.1 = 0 → pair.2 = 0 ∨ pair.2 = rlimInfinity)) := by
    intro resource pair hasks
    obtain ⟨hsoft, hhard⟩ := hrange resource pair hasks
    exact rlimOf_le_iff (le_of_validateLimits hvalid hasks) hsoft hhard
  have hlimit : ∀ resource pair, Asks rl resource pair →
      ((before.applyAll (configured rl)).limit resource = rlimOf pair ↔
        before.Grants resource (rlimOf pair) ∨ before.limit resource = rlimOf pair) :=
    fun resource pair hasks => limit_applyAll_iff (nodup_configured rl) hasks
  rw [hrl]
  constructor
  · intro h
    obtain ⟨after, hrun, hforce⟩ := h
    rw [run_applyLimits, Option.some.injEq, Prod.mk.injEq] at hrun
    have hafter : after = before.applyAll (configured rl) := hrun.2.symm
    subst hafter
    constructor
    case unlimited =>
      exact fun resource pair hasks => (hordered resource pair hasks).1
        (hforce.ordered resource pair hasks)
    case files =>
      intro pair hasks
      obtain hgrants | hsame := (hlimit _ pair hasks).1 (hforce.inForce _ pair hasks)
      · exact .inl (hgrants.files rfl)
      · exact .inr hsame
    case raise =>
      intro resource pair hasks hmay
      obtain hgrants | hsame := (hlimit _ pair hasks).1 (hforce.inForce _ pair hasks)
      · exact hgrants.raise hmay
      · rw [hsame]
  · intro h
    refine ⟨_, run_applyLimits rl, ?_, ?_⟩
    · exact fun resource pair hasks => (hordered resource pair hasks).2
        (h.unlimited resource pair hasks)
    · intro resource pair hasks
      rw [hlimit resource pair hasks]
      have hle := (hordered resource pair hasks).2 (h.unlimited resource pair hasks)
      by_cases hfile : resource = .nofile
      · subst hfile
        obtain hfits | hsame := h.files pair hasks
        · exact .inl ⟨hle, fun _ => hfits, h.raise _ pair hasks⟩
        · exact .inr hsame
      · exact .inl ⟨hle, fun hno => absurd hno hfile, h.raise _ pair hasks⟩

/-- A service with a table of limits, and the process that starts it. -/
def limitedService (rl : ResourceLimits) : Service where
  name := "web"
  command := "/usr/bin/web"
  rlimit := some rl

def pid1Limits : Limits := ⟨fun _ => (1024, 4096), true, 1048576⟩

theorem limits_in_force_two :
    ∃ after, (applyLimits (limitedService
        { nofile := some (1024, 8192), stack := some (8388608, 0) }).rlimit).run performLimits
          pid1Limits = some (.ok (), after) ∧
      LimitsInForce { nofile := some (1024, 8192), stack := some (8388608, 0) } after := by
  have hasks : ∀ resource pair,
      Asks { nofile := some (1024, 8192), stack := some (8388608, 0) } resource pair →
        (resource = .nofile ∧ pair = (1024, 8192)) ∨ (resource = .stack ∧ pair = (8388608, 0)) := by
    intro resource pair h
    simpa [Asks, configured] using h
  refine (limits_in_force_iff Char.isAlphanum _ _ pid1Limits (by decide) rfl ?_).2 ⟨?_, ?_, ?_⟩
  · intro resource pair h
    obtain ⟨-, rfl⟩ | ⟨-, rfl⟩ := hasks resource pair h <;> decide
  · intro resource pair h hzero
    obtain ⟨-, rfl⟩ | ⟨-, rfl⟩ := hasks resource pair h <;> cases hzero
  · intro pair h
    obtain ⟨-, rfl⟩ | ⟨hno, -⟩ := hasks _ pair h
    · exact .inl (by decide)
    · cases hno
  · exact fun resource pair h hmay => absurd hmay (by decide)

/-- `nproc = [0, 256]` is accepted: no soft limit below a hard one, which the kernel refuses. -/
theorem limits_refused :
    validateService Char.isAlphanum (limitedService { nproc := some (0, 256) }) = .ok () ∧
    pid1Limits.setrlimit .nproc (rlimOf (0, 256)).1 (rlimOf (0, 256)).2 = (einval, pid1Limits) ∧
    ¬ ∃ after, (applyLimits (limitedService { nproc := some (0, 256) }).rlimit).run performLimits
        pid1Limits = some (.ok (), after) ∧
      LimitsInForce { nproc := some (0, 256) } after := by
  refine ⟨by decide, if_pos (by decide), fun h => ?_⟩
  obtain ⟨after, -, hforce⟩ := h
  have hle := hforce.ordered .nproc (0, 256) (by simp [Asks, configured])
  exact absurd hle (by decide)

end Quantra.Process
