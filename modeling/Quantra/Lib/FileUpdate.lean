import Quantra.Lib.Runs
import Mathlib.Data.List.Perm.Basic

/-! Calls that update one file without a lock: each reads the file, computes new contents, truncates
the file, writes them and finishes. Any step of any other call may come in between. -/
namespace FileUpdate

/-- What a call does with the file. `valid` contents are those a call can use; `truncated` are those
of a file that was opened for writing. -/
structure Protocol (κ γ : Type*) where
  /-- The contents a call writes after it saw `seen` (`none` if the read failed), or its refusal. -/
  compute : γ → Option κ → Option κ
  valid : κ → Bool
  truncated : κ
  not_valid_truncated : valid truncated = false

/-- Where a call stands after its read. -/
inductive Phase (κ : Type*)
  | pending (new : κ)
  | opened (new : κ)
  | written
  | returned (ok : Bool)
  deriving DecidableEq

/-- A call, what it has read, and whether it has opened the file for writing. -/
structure Op (κ γ : Type*) where
  call : γ
  seen : Option κ
  phase : Phase κ
  touched : Bool

structure State (κ γ : Type*) where
  file : κ
  ops : List (Op κ γ)

inductive Event (κ γ : Type*)
  /-- A call reads the file; with `io` off the read fails. -/
  | read (call : γ) (io : Bool)
  | opened (i : ℕ) (ok : Bool)
  /-- The contents are written. In a file that is not empty because another call has written since,
  they end up in some mixture. -/
  | wrote (i : ℕ) (mixed : κ)
  | writeFailed (i : ℕ) (left : κ)
  | finished (i : ℕ) (ok : Bool)

variable {κ γ : Type*}

def start (file : κ) : State κ γ := ⟨file, []⟩

namespace Protocol

variable (P : Protocol κ γ)

/-- The call on its own, from contents that it can use. -/
def run (k : κ) (call : γ) : Option κ := if P.valid k then P.compute call (some k) else none

/-- One call after the other. -/
def runAll (k : κ) (order : List γ) : Option κ := order.foldlM P.run k

/-- A call that gives up after its read has returned at once. -/
def begin (call : γ) (seen : Option κ) : Op κ γ :=
  match P.compute call seen with
  | some new => ⟨call, seen, .pending new, false⟩
  | none => ⟨call, seen, .returned false, false⟩

end Protocol

namespace Op

def setPhase (op : Op κ γ) (phase : Phase κ) : Op κ γ := { op with phase := phase }

def touch (op : Op κ γ) (new : κ) : Op κ γ := { op with phase := .opened new, touched := true }

/-- The call, once its contents are in the file. -/
def effect (op : Op κ γ) : Option γ :=
  match op.phase with
  | .written => some op.call
  | .returned true => some op.call
  | _ => none

/-- The call, once it returned `Ok`. -/
def okCall (op : Op κ γ) : Option γ :=
  match op.phase with
  | .returned true => some op.call
  | _ => none

def isReturned (op : Op κ γ) : Bool :=
  match op.phase with
  | .returned _ => true
  | _ => false

/-- Before it opened the file, or after it failed. -/
def isIdle (op : Op κ γ) : Bool :=
  match op.phase with
  | .pending _ => true
  | .returned ok => !ok
  | _ => false

def isOpened (op : Op κ γ) : Bool :=
  match op.phase with
  | .opened _ => true
  | _ => false

end Op

namespace State

def setOp (s : State κ γ) (i : ℕ) (op : Op κ γ) : State κ γ := { s with ops := s.ops.set i op }

def setFile (s : State κ γ) (file : κ) : State κ γ := { s with file := file }

end State

/-- One step of one call. -/
def step [DecidableEq κ] (P : Protocol κ γ) (s : State κ γ) : Event κ γ → Option (State κ γ)
  | .read call io =>
    some { s with ops := s.ops ++ [P.begin call (if io then some s.file else none)] }
  | .opened i ok => (s.ops[i]?).bind fun op =>
    match op.phase, ok with
    | .pending new, true => some ((s.setOp i (op.touch new)).setFile P.truncated)
    | .pending _, false => some (s.setOp i (op.setPhase (.returned false)))
    | _, _ => none
  | .wrote i mixed => (s.ops[i]?).bind fun op =>
    match op.phase with
    | .opened new =>
      let left := if s.file = P.truncated then new else mixed
      some ((s.setOp i (op.setPhase .written)).setFile left)
    | _ => none
  | .writeFailed i left => (s.ops[i]?).bind fun op =>
    match op.phase with
    | .opened _ => some ((s.setOp i (op.setPhase (.returned false))).setFile left)
    | _ => none
  | .finished i ok => (s.ops[i]?).bind fun op =>
    match op.phase with
    | .written => some (s.setOp i (op.setPhase (.returned ok)))
    | _ => none

/-- What makes a step safe: a call opens the file only while it is what the call has read and can
use, and a call that has opened it succeeds. -/
def Isolated (P : Protocol κ γ) (s : State κ γ) : Event κ γ → Prop
  | .opened i true => ∀ op ∈ s.ops[i]?, op.seen = some s.file ∧ P.valid s.file
  | .writeFailed _ _ => False
  | .finished _ ok => ok
  | _ => True

instance [DecidableEq κ] (P : Protocol κ γ) (s : State κ γ) (e : Event κ γ) :
    Decidable (Isolated P s e) :=
  match e with
  | .opened _ true => inferInstanceAs (Decidable (∀ _ ∈ _, _))
  | .finished _ _ => inferInstanceAs (Decidable (_ = true))
  | .writeFailed _ _ => inferInstanceAs (Decidable False)
  | .read _ _ => inferInstanceAs (Decidable True)
  | .opened _ false => inferInstanceAs (Decidable True)
  | .wrote _ _ => inferInstanceAs (Decidable True)

/-- No update is lost: when no call is under way the file is what the calls that returned `Ok` make
of it, one after the other in some order. The contents always meet `Good`, and a call that has read
contents it cannot use neither succeeds nor touches the file. -/
structure Lossless (P : Protocol κ γ) (Good : κ → Prop) (k₀ : κ) (s : State κ γ) : Prop where
  serial : (∀ op ∈ s.ops, op.isReturned) →
    ∃ order, order.Perm (s.ops.filterMap Op.okCall) ∧ P.runAll k₀ order = some s.file
  good : Good s.file
  refused : ∀ op ∈ s.ops, ∀ k, op.seen = some k → P.valid k = false →
    op.touched = false ∧ op.okCall = none

/-! The order is that of the writes. -/

theorem filterMap_set {α β : Type*} (f : α → Option β) {l : List α} {i : ℕ} {a : α}
    (h : l[i]? = some a) (b : α) : (l.set i b).filterMap f =
      (l.take i).filterMap f ++ ((f b).toList ++ (l.drop (i + 1)).filterMap f) := by
  obtain ⟨hi, -⟩ := List.getElem?_eq_some_iff.1 h
  rw [List.set_eq_take_append_cons_drop, if_pos hi, List.filterMap_append, List.filterMap_cons]
  cases f b <;> rfl

/-- A replaced element that counts as before. -/
theorem filterMap_set_of_eq {α β : Type*} {f : α → Option β} {l : List α} {i : ℕ} {a b : α}
    (h : l[i]? = some a) (hf : f b = f a) : (l.set i b).filterMap f = l.filterMap f := by
  obtain ⟨hi, rfl⟩ := List.getElem?_eq_some_iff.1 h
  have hself := filterMap_set f h l[i]
  rw [List.set_getElem_self] at hself
  rw [hself, filterMap_set f h, hf]

/-- A replaced element that did not count and counts now. -/
theorem perm_filterMap_set {α β : Type*} {f : α → Option β} {l : List α} {i : ℕ} {a b : α} {c : β}
    (h : l[i]? = some a) (ha : f a = none) (hb : f b = some c) :
    (l.filterMap f ++ [c]).Perm ((l.set i b).filterMap f) := by
  obtain ⟨hi, rfl⟩ := List.getElem?_eq_some_iff.1 h
  have hself := filterMap_set f h l[i]
  rw [List.set_getElem_self, ha] at hself
  rw [filterMap_set f h, hb, hself]
  have hmiddle : ((l.take i).filterMap f ++ c :: (l.drop (i + 1)).filterMap f).Perm
      (c :: ((l.take i).filterMap f ++ (l.drop (i + 1)).filterMap f)) := List.perm_middle
  exact (List.perm_append_singleton c _).trans hmiddle.symm

variable {P : Protocol κ γ} {k k₀ : κ} {s t : State κ γ} {i : ℕ} {op op' : Op κ γ} {new : κ}

/-- What holds of every call: what it is about to write it has computed, and it goes no further with
contents that it cannot use. -/
def OpInv (P : Protocol κ γ) (op : Op κ γ) : Prop :=
  (∀ new, op.phase = .pending new → P.compute op.call op.seen = some new) ∧
    ∀ k, op.seen = some k → P.valid k = false → op.touched = false ∧ op.isIdle

/-- The file holds `k`, or one call has opened it to write what it makes of `k`. -/
def Between (P : Protocol κ γ) (s : State κ γ) (k : κ) : Prop :=
  (s.file = k ∧ ∀ op ∈ s.ops, op.isOpened = false) ∨
    ∃ (i : ℕ) (op : Op κ γ) (new : κ), s.ops[i]? = some op ∧ op.phase = .opened new ∧
      P.run k op.call = some new ∧ s.file = P.truncated ∧
      ∀ (j : ℕ) (op' : Op κ γ), s.ops[j]? = some op' → op'.isOpened → j = i

structure Inv (P : Protocol κ γ) (k₀ : κ) (s : State κ γ) : Prop where
  serial : ∃ order k, order.Perm (s.ops.filterMap Op.effect) ∧ P.runAll k₀ order = some k ∧
    Between P s k
  ops : ∀ op ∈ s.ops, OpInv P op

theorem forall_mem_set {Q : Op κ γ → Prop} {l : List (Op κ γ)} (hl : ∀ op ∈ l, Q op)
    (hop : Q op') : ∀ op ∈ l.set i op', Q op := by
  intro op hmem
  obtain hmem | rfl := List.mem_or_eq_of_mem_set hmem
  · exact hl op hmem
  · exact hop

theorem isOpened_of_phase (h : op.phase = .opened new) : op.isOpened := by
  unfold Op.isOpened
  rw [h]

/-- A call that has not opened the file and does not now. -/
theorem Between.set (h : Between P s k) (hop : s.ops[i]? = some op) (hold : op.isOpened = false)
    (hnew : op'.isOpened = false) : Between P (s.setOp i op') k := by
  obtain ⟨hfile, hnone⟩ | ⟨j, opener, new, hj, hphase, hrun, hfile, honly⟩ := h
  · exact .inl ⟨hfile, forall_mem_set hnone hnew⟩
  · have hne : i ≠ j := by
      rintro rfl
      rw [hop] at hj
      cases hj
      rw [isOpened_of_phase hphase] at hold
      cases hold
    refine .inr ⟨j, opener, new, ?_, hphase, hrun, hfile, ?_⟩
    · exact (List.getElem?_set_ne hne).trans hj
    · intro l op'' hl hopened
      by_cases hil : i = l
      · subst hil
        have hget : (s.setOp i op').ops[i]? = some op' := by
          obtain ⟨hlt, -⟩ := List.getElem?_eq_some_iff.1 hop
          exact List.getElem?_set_self hlt
        rw [hget] at hl
        cases hl
        rw [hnew] at hopened
        cases hopened
      · exact honly l op'' ((List.getElem?_set_ne hil).symm.trans hl) hopened

/-- A call opens the file that it has read. -/
theorem Between.open (h : Between P s k) (hop : s.ops[i]? = some op) (hvalid : P.valid s.file)
    (hrun : P.run s.file op.call = some new) :
    Between P ((s.setOp i (op.touch new)).setFile P.truncated) k := by
  obtain ⟨hfile, hnone⟩ | ⟨j, opener, new', hj, hphase, hrun', hfile, honly⟩ := h
  · have hlt : i < s.ops.length := (List.getElem?_eq_some_iff.1 hop).1
    rw [hfile] at hrun
    refine .inr ⟨i, op.touch new, new, List.getElem?_set_self hlt, rfl, hrun, rfl, ?_⟩
    intro j op' hj hopened
    by_contra hne
    have hmem : op' ∈ s.ops :=
      List.mem_of_getElem? ((List.getElem?_set_ne (Ne.symm hne)).symm.trans hj)
    rw [hnone op' hmem] at hopened
    cases hopened
  · -- a file that another call has opened is not valid
    rw [hfile, P.not_valid_truncated] at hvalid
    cases hvalid

/-- The call that has opened the file writes. -/
theorem Between.close (h : Between P s k) (hop : s.ops[i]? = some op)
    (hphase : op.phase = .opened new) (hnew : op'.isOpened = false) :
    s.file = P.truncated ∧ P.run k op.call = some new ∧
      Between P ((s.setOp i op').setFile new) new := by
  obtain ⟨hfile, hnone⟩ | ⟨j, opener, new', hj, hphase', hrun, hfile, honly⟩ := h
  · have hopened := isOpened_of_phase hphase
    rw [hnone op (List.mem_of_getElem? hop)] at hopened
    cases hopened
  · obtain rfl := honly i op hop (isOpened_of_phase hphase)
    rw [hop] at hj
    cases hj
    rw [hphase] at hphase'
    cases hphase'
    refine ⟨hfile, hrun, .inl ⟨rfl, ?_⟩⟩
    intro op'' hmem
    obtain ⟨l, hl, rfl⟩ := List.mem_iff_getElem.1 hmem
    by_cases hil : i = l
    · subst hil
      have hself : ((s.setOp i op').setFile new).ops[i] = op' := List.getElem_set_self hl
      rw [hself]
      exact hnew
    · have hother : ((s.setOp i op').setFile new).ops[l]? = s.ops[l]? := List.getElem?_set_ne hil
      rw [List.getElem?_eq_getElem hl] at hother
      by_contra hopened
      have hopened' := Bool.of_not_eq_false hopened
      exact hil (honly l _ hother.symm hopened').symm

/-- A call begins. -/
theorem Between.push (h : Between P s k) (hop : op.isOpened = false) :
    Between P { s with ops := s.ops ++ [op] } k := by
  obtain ⟨hfile, hnone⟩ | ⟨i, opener, new, hi, hphase, hrun, hfile, honly⟩ := h
  · refine .inl ⟨hfile, List.forall_mem_append.2 ⟨hnone, ?_⟩⟩
    simpa using hop
  · have hlt : i < s.ops.length := (List.getElem?_eq_some_iff.1 hi).1
    refine .inr ⟨i, opener, new, (List.getElem?_append_left hlt).trans hi, hphase, hrun, hfile, ?_⟩
    intro j op' hj hopened
    by_cases hjlt : j < s.ops.length
    · exact honly j op' ((List.getElem?_append_left hjlt).symm.trans hj) hopened
    · rw [List.getElem?_append_right (Nat.le_of_not_lt hjlt)] at hj
      have hmem : op' ∈ [op] := List.mem_of_getElem? hj
      rw [List.mem_singleton] at hmem
      rw [hmem, hop] at hopened
      cases hopened

theorem opInv_begin (call : γ) (seen : Option κ) : OpInv P (P.begin call seen) ∧
    (P.begin call seen).isOpened = false ∧ (P.begin call seen).effect = none := by
  unfold Protocol.begin
  cases hcompute : P.compute call seen with
  | none => exact ⟨⟨nofun, fun _ _ _ => ⟨rfl, rfl⟩⟩, rfl, rfl⟩
  | some new =>
    refine ⟨⟨?_, fun _ _ _ => ⟨rfl, rfl⟩⟩, rfl, rfl⟩
    intro new' hphase
    cases hphase
    exact hcompute

theorem Inv.read (h : Inv P k₀ s) (call : γ) (seen : Option κ) :
    Inv P k₀ { s with ops := s.ops ++ [P.begin call seen] } := by
  obtain ⟨order, k, hperm, hrun, hbetween⟩ := h.serial
  obtain ⟨hinv, hopened, heffect⟩ := opInv_begin (P := P) call seen
  constructor
  · refine ⟨order, k, ?_, hrun, hbetween.push hopened⟩
    rw [List.filterMap_append]
    simpa [heffect] using hperm
  · refine List.forall_mem_append.2 ⟨h.ops, ?_⟩
    simpa using hinv

/-- A step within a call that neither opens the file nor writes it. -/
theorem Inv.setPhase (h : Inv P k₀ s) (hop : s.ops[i]? = some op) {phase : Phase κ}
    (hold : op.isOpened = false) (hnew : (op.setPhase phase).isOpened = false)
    (heffect : (op.setPhase phase).effect = op.effect) (hinv : OpInv P (op.setPhase phase)) :
    Inv P k₀ (s.setOp i (op.setPhase phase)) := by
  obtain ⟨order, k, hperm, hrun, hbetween⟩ := h.serial
  constructor
  · refine ⟨order, k, ?_, hrun, hbetween.set hop hold hnew⟩
    show order.Perm ((s.ops.set i (op.setPhase phase)).filterMap Op.effect)
    rwa [filterMap_set_of_eq hop heffect]
  · exact forall_mem_set h.ops hinv

theorem isOpened_eq_false (h : ∀ new, op.phase ≠ .opened new) : op.isOpened = false := by
  unfold Op.isOpened
  cases hphase : op.phase with
  | opened new => exact absurd hphase (h new)
  | pending new => rfl
  | written => rfl
  | returned ok => rfl

theorem effect_of_phase (h : op.phase = .pending new ∨ op.phase = .opened new) :
    op.effect = none := by
  unfold Op.effect
  obtain h | h := h <;> rw [h]

/-- A call that has opened or written the file had read contents it can use. -/
theorem OpInv.valid (h : OpInv P op) (hphase : op.isIdle = false) (k : κ)
    (hseen : op.seen = some k) : P.valid k = true := by
  by_contra hvalid
  have hidle := (h.2 k hseen (Bool.of_not_eq_true hvalid)).2
  rw [hphase] at hidle
  cases hidle

theorem Inv.opened (h : Inv P k₀ s) (hop : s.ops[i]? = some op) (hphase : op.phase = .pending new)
    (hseen : op.seen = some s.file) (hvalid : P.valid s.file) :
    Inv P k₀ ((s.setOp i (op.touch new)).setFile P.truncated) := by
  obtain ⟨order, k, hperm, hrunAll, hbetween⟩ := h.serial
  have hcompute := (h.ops op (List.mem_of_getElem? hop)).1 new hphase
  have hrun : P.run s.file op.call = some new := by
    unfold Protocol.run
    rw [if_pos hvalid, ← hseen, hcompute]
  constructor
  · refine ⟨order, k, ?_, hrunAll, hbetween.open hop hvalid hrun⟩
    show order.Perm ((s.ops.set i (op.touch new)).filterMap Op.effect)
    rwa [filterMap_set_of_eq hop (effect_of_phase (.inl hphase)).symm]
  · apply forall_mem_set h.ops
    refine ⟨nofun, ?_⟩
    intro k' hseen' hinvalid
    obtain rfl : s.file = k' := Option.some.inj (hseen.symm.trans hseen')
    rw [hvalid] at hinvalid
    cases hinvalid

theorem Inv.wrote (h : Inv P k₀ s) (hop : s.ops[i]? = some op) (hphase : op.phase = .opened new)
    (mixed : κ) [DecidableEq κ] : Inv P k₀ ((s.setOp i (op.setPhase .written)).setFile
      (if s.file = P.truncated then new else mixed)) := by
  obtain ⟨order, k, hperm, hrunAll, hbetween⟩ := h.serial
  have hwritten : (op.setPhase .written).isOpened = false := rfl
  obtain ⟨hfile, hrun, hclosed⟩ := hbetween.close hop hphase hwritten
  rw [if_pos hfile]
  constructor
  · refine ⟨order ++ [op.call], new, ?_, ?_, hclosed⟩
    · have heffect : (op.setPhase .written).effect = some op.call := rfl
      exact (hperm.append_right [op.call]).trans
        (perm_filterMap_set hop (effect_of_phase (.inr hphase)) heffect)
    · unfold Protocol.runAll at hrunAll ⊢
      rw [List.foldlM_append, hrunAll]
      simpa using hrun
  · apply forall_mem_set h.ops
    refine ⟨nofun, ?_⟩
    intro k' hseen hinvalid
    have hidle : op.isIdle = false := by
      unfold Op.isIdle
      rw [hphase]
    have hvalid := (h.ops op (List.mem_of_getElem? hop)).valid hidle k' hseen
    rw [hvalid] at hinvalid
    cases hinvalid

/-- A call that cannot open the file returns. -/
theorem Inv.refused (h : Inv P k₀ s) (hop : s.ops[i]? = some op)
    (hphase : op.phase = .pending new) : Inv P k₀ (s.setOp i (op.setPhase (.returned false))) := by
  have hinv := h.ops op (List.mem_of_getElem? hop)
  have hopened : op.isOpened = false := isOpened_eq_false fun _ => by simp [hphase]
  refine h.setPhase hop hopened rfl (effect_of_phase (.inl hphase)).symm ⟨nofun, ?_⟩
  intro k hseen hinvalid
  exact ⟨(hinv.2 k hseen hinvalid).1, rfl⟩

/-- A call that has written the file returns `Ok`. -/
theorem Inv.finished (h : Inv P k₀ s) (hop : s.ops[i]? = some op) (hphase : op.phase = .written) :
    Inv P k₀ (s.setOp i (op.setPhase (.returned true))) := by
  have hinv := h.ops op (List.mem_of_getElem? hop)
  have hopened : op.isOpened = false := isOpened_eq_false fun _ => by simp [hphase]
  have heffect : (op.setPhase (.returned true)).effect = op.effect := by
    unfold Op.effect
    rw [hphase]
    rfl
  have hidle : op.isIdle = false := by
    unfold Op.isIdle
    rw [hphase]
  refine h.setPhase hop hopened rfl heffect ⟨nofun, ?_⟩
  intro k hseen hinvalid
  rw [hinv.valid hidle k hseen] at hinvalid
  cases hinvalid

theorem inv_start (k₀ : κ) : Inv P k₀ (start k₀) where
  serial := ⟨[], k₀, .nil, rfl, .inl ⟨rfl, by simp [start]⟩⟩
  ops := by simp [start]

section Run
variable [DecidableEq κ]

/-- A pending call opens the file, or returns an error. -/
theorem step_opened {ok : Bool} (h : step P s (.opened i ok) = some t) :
    ∃ op new, s.ops[i]? = some op ∧ op.phase = .pending new ∧
      t = if ok then (s.setOp i (op.touch new)).setFile P.truncated
        else s.setOp i (op.setPhase (.returned false)) := by
  obtain ⟨op, hop, hnext⟩ := Option.bind_eq_some_iff.1 h
  cases hphase : op.phase with
  | pending new =>
    rw [hphase] at hnext
    refine ⟨op, new, hop, hphase, ?_⟩
    cases ok <;> exact (Option.some.inj hnext).symm
  | opened new => rw [hphase] at hnext; cases hnext
  | written => rw [hphase] at hnext; cases hnext
  | returned ok => rw [hphase] at hnext; cases hnext

theorem step_wrote {mixed : κ} (h : step P s (.wrote i mixed) = some t) :
    ∃ op new, s.ops[i]? = some op ∧ op.phase = .opened new ∧
      t = (s.setOp i (op.setPhase .written)).setFile
        (if s.file = P.truncated then new else mixed) := by
  obtain ⟨op, hop, hnext⟩ := Option.bind_eq_some_iff.1 h
  cases hphase : op.phase with
  | opened new =>
    rw [hphase] at hnext
    exact ⟨op, new, hop, hphase, (Option.some.inj hnext).symm⟩
  | pending new => rw [hphase] at hnext; cases hnext
  | written => rw [hphase] at hnext; cases hnext
  | returned ok => rw [hphase] at hnext; cases hnext

theorem step_finished {ok : Bool} (h : step P s (.finished i ok) = some t) :
    ∃ op, s.ops[i]? = some op ∧ op.phase = .written ∧
      t = s.setOp i (op.setPhase (.returned ok)) := by
  obtain ⟨op, hop, hnext⟩ := Option.bind_eq_some_iff.1 h
  cases hphase : op.phase with
  | written =>
    rw [hphase] at hnext
    exact ⟨op, hop, hphase, (Option.some.inj hnext).symm⟩
  | pending new => rw [hphase] at hnext; cases hnext
  | opened new => rw [hphase] at hnext; cases hnext
  | returned ok => rw [hphase] at hnext; cases hnext

/-- Every step that is isolated keeps the order of the writes. -/
theorem Inv.step {e : Event κ γ} (h : Inv P k₀ s) (hok : Isolated P s e)
    (hstep : step P s e = some t) : Inv P k₀ t := by
  cases e with
  | read call io =>
    cases hstep
    exact h.read call _
  | opened i ok =>
    obtain ⟨op, new, hop, hphase, rfl⟩ := step_opened hstep
    cases ok with
    | true =>
      obtain ⟨hseen, hvalid⟩ := hok op hop
      exact h.opened hop hphase hseen hvalid
    | false => exact h.refused hop hphase
  | wrote i mixed =>
    obtain ⟨op, new, hop, hphase, rfl⟩ := step_wrote hstep
    exact h.wrote hop hphase mixed
  | writeFailed i left => exact hok.elim
  | finished i ok =>
    obtain ⟨op, hop, hphase, rfl⟩ := step_finished hstep
    obtain rfl : ok = true := hok
    exact h.finished hop hphase

end Run

variable {Good : κ → Prop}

theorem good_of_runAll
    (hrun : ∀ {k new : κ} {call : γ}, Good k → P.run k call = some new → Good new)
    {order : List γ} (hgood : Good k₀) (h : P.runAll k₀ order = some k) : Good k := by
  induction order generalizing k₀ with
  | nil =>
    cases h
    exact hgood
  | cons call order ih =>
    unfold Protocol.runAll at h
    rw [List.foldlM_cons] at h
    obtain ⟨k₁, hk₁, hrest⟩ := Option.bind_eq_some_iff.1 h
    exact ih (hrun hgood hk₁) hrest

/-- Once every call has returned, those in effect are those that returned `Ok`. -/
theorem effect_eq_okCall (h : op.isReturned) : op.effect = op.okCall := by
  unfold Op.isReturned at h
  unfold Op.effect Op.okCall
  cases hphase : op.phase with
  | written => rw [hphase] at h; cases h
  | pending new => rfl
  | opened new => rfl
  | returned ok => cases ok <;> rfl

theorem okCall_of_isIdle (h : op.isIdle) : op.okCall = none := by
  unfold Op.isIdle at h
  unfold Op.okCall
  cases hphase : op.phase with
  | returned ok =>
    rw [hphase] at h
    cases ok with
    | true => cases h
    | false => rfl
  | pending new => rfl
  | opened new => rfl
  | written => rfl

theorem Inv.lossless (hrun : ∀ {k new : κ} {call : γ}, Good k → P.run k call = some new → Good new)
    (htruncated : Good P.truncated) (hgood : Good k₀) (h : Inv P k₀ s) :
    Lossless P Good k₀ s := by
  obtain ⟨order, k, hperm, hrunAll, hbetween⟩ := h.serial
  have hk : Good k := good_of_runAll hrun hgood hrunAll
  constructor
  · intro hreturned
    have hcalls : s.ops.filterMap Op.effect = s.ops.filterMap Op.okCall :=
      List.filterMap_congr fun op hop => effect_eq_okCall (hreturned op hop)
    refine ⟨order, hcalls ▸ hperm, ?_⟩
    obtain ⟨hfile, -⟩ | ⟨i, op, new, hop, hphase, -⟩ := hbetween
    · rw [hfile, hrunAll]
    · have hret := hreturned op (List.mem_of_getElem? hop)
      unfold Op.isReturned at hret
      rw [hphase] at hret
      cases hret
  · obtain ⟨hfile, -⟩ | ⟨i, op, new, -, -, -, hfile, -⟩ := hbetween
    · rw [hfile]
      exact hk
    · rw [hfile]
      exact htruncated
  · intro op hop k' hseen hinvalid
    obtain ⟨htouched, hidle⟩ := (h.ops op hop).2 k' hseen hinvalid
    exact ⟨htouched, okCall_of_isIdle hidle⟩

/-- In a run of isolated steps no update is ever lost. -/
theorem always_lossless [DecidableEq κ]
    (hrun : ∀ {k new : κ} {call : γ}, Good k → P.run k call = some new → Good new)
    (htruncated : Good P.truncated) (hgood : Good k₀) {events : List (Event κ γ)}
    (h : Runs.Meets (step P) (Isolated P) (start k₀) events) :
    Runs.Always (step P) (Lossless P Good k₀) (start k₀) events :=
  Runs.always_of_meets Inv.step (fun _ hinv => hinv.lossless hrun htruncated hgood) (inv_start k₀) h

end FileUpdate
