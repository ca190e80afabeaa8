import Quantra.Process.Capabilities

/-! The descriptors of the activation sockets in the child: the loop of `dup2` that moves them to 3,
4, 5 and on, and when it moves them as if at once. -/
namespace Quantra.Process
open Calls Calls.Prog Quantra.Sandbox Quantra.Services

/-- An entry of a descriptor table; `φ` are the open files. -/
structure Slot (φ : Type) where
  file : φ
  cloexec : Bool
  deriving DecidableEq, Repr

/-- The descriptors of a process. No new one is made at `limit` or above. -/
structure FdTable (φ : Type) where
  slot : ℤ → Option (Slot φ)
  limit : ℤ

namespace FdTable
variable {φ : Type}

def put (t : FdTable φ) (fd : ℤ) (s : Slot φ) : FdTable φ :=
  { t with slot := fun x => if x = fd then some s else t.slot x }

def dup2 (t : FdTable φ) (src target : ℤ) : FdTable φ :=
  match t.slot src with
  | some s => if target < t.limit then t.put target ⟨s.file, false⟩ else t
  | none => t

/-- `F_GETFD` and `F_SETFD`; on a descriptor that is not open both fail. -/
def clearCloexec (t : FdTable φ) (fd : ℤ) : FdTable φ :=
  match t.slot fd with
  | some s => t.put fd ⟨s.file, false⟩
  | none => t

/-- The body of the loop. -/
def passSocket (t : FdTable φ) (src target : ℤ) : FdTable φ :=
  (if src ≠ target then t.dup2 src target else t).clearCloexec target

/-- The loop of `start_service_as`. -/
def passSockets (fds : List ℤ) (t : FdTable φ) : FdTable φ :=
  fds.zipIdx.foldl (fun t p => t.passSocket p.1 (sdListenFdsStart + p.2)) t

def setupChildFds (sockets : List ActivationSocket) (t : FdTable φ) : FdTable φ :=
  sockets.zipIdx.foldl (fun t p => t.passSocket p.1.fd (sdListenFdsStart + p.2)) t

/-- The open file of a descriptor. -/
def fileAt (t : FdTable φ) (fd : ℤ) : Option φ := (t.slot fd).map Slot.file

def SameFile (t : FdTable φ) (fd fd' : ℤ) : Prop := t.fileAt fd = t.fileAt fd'

end FdTable

open FdTable

/-- The step of the child that has the loop. -/
def passActivationFds (fds : List ℤ) : Launching :=
  each fds.zipIdx fun p => regardless (.passSocket p.1 (sdListenFdsStart + p.2))

theorem settleChild_eq (cfg : ServiceLaunch) : settleChild cfg = inTurn [
    each cfg.logWriteFd.toList fun fd => regardless (.redirectOutput fd),
    passActivationFds cfg.activationFds,
    each cfg.apparmorProfile.toList fun profile =>
      orExit (.confineNextExec profile) "[zai-init] AppArmor profile apply failed\n",
    installSeccomp cfg,
    ((confineChild cfg).mapCall .child).bind fun _ => done] := rfl

/-- What the child answers to the calls of its last steps, as far as they are about descriptors. -/
def performFds {φ : Type} : LaunchCall → FdTable φ → Option (Outcome × FdTable φ)
  | .passSocket fd target, t => some (.ok 0, t.passSocket fd target)
  | _, t => some (.ok 0, t)

/-- The sockets have arrived: 3, 4, 5 and on are the files of `fds`, and stay open at `execvpe`. -/
def Arrived {φ : Type} (fds : List ℤ) (before after : FdTable φ) : Prop :=
  ∀ i (h : i < fds.length), ∃ s, before.slot fds[i] = some s ∧
    after.slot (sdListenFdsStart + i) = some ⟨s.file, false⟩

/-- No socket lies where an earlier one is moved to, or only one that is the same file already. A
descriptor at the limit or above is not made, and has to be there. -/
def Unobstructed {φ : Type} (fds : List ℤ) (t : FdTable φ) : Prop :=
  ∀ i (h : i < fds.length),
    if sdListenFdsStart + i < t.limit then
      ∀ j (hj : j < i), fds[i] = sdListenFdsStart + j → t.SameFile fds[j] fds[i]
    else t.SameFile fds[i] (sdListenFdsStart + i)

/-! One turn of the loop. -/

section Turn
variable {φ : Type} {t : FdTable φ} {src target fd : ℤ}

theorem slot_put (s : Slot φ) :
    (t.put target s).slot fd = if fd = target then some s else t.slot fd := rfl

@[simp] theorem limit_clearCloexec : (t.clearCloexec fd).limit = t.limit := by
  unfold clearCloexec
  split <;> rfl

@[simp] theorem limit_dup2 : (t.dup2 src target).limit = t.limit := by
  unfold dup2
  split
  · split <;> rfl
  · rfl

@[simp] theorem limit_passSocket : (t.passSocket src target).limit = t.limit := by
  unfold passSocket
  rw [limit_clearCloexec]
  split
  · exact limit_dup2
  · rfl

theorem slot_clearCloexec_of_ne (h : fd ≠ target) :
    (t.clearCloexec target).slot fd = t.slot fd := by
  unfold clearCloexec
  split
  · rw [slot_put, if_neg h]
  · rfl

theorem slot_dup2_of_ne (h : fd ≠ target) : (t.dup2 src target).slot fd = t.slot fd := by
  unfold dup2
  split
  · split
    · rw [slot_put, if_neg h]
    · rfl
  · rfl

theorem slot_passSocket_of_ne (h : fd ≠ target) :
    (t.passSocket src target).slot fd = t.slot fd := by
  unfold passSocket
  rw [slot_clearCloexec_of_ne h]
  split
  · exact slot_dup2_of_ne h
  · rfl

theorem slot_clearCloexec_self :
    (t.clearCloexec fd).slot fd = (t.fileAt fd).map fun file => ⟨file, false⟩ := by
  unfold clearCloexec fileAt
  split
  · rename_i s hs
    rw [slot_put, if_pos rfl, hs]
    rfl
  · rename_i hs
    rw [hs]
    rfl

theorem fileAt_dup2_self {file : φ} (h : t.fileAt src = some file) :
    (t.dup2 src target).fileAt target =
      if target < t.limit then some file else t.fileAt target := by
  obtain ⟨s, hs, hfile⟩ := Option.map_eq_some_iff.1 h
  unfold dup2
  rw [hs]
  show FdTable.fileAt (if target < t.limit then t.put target ⟨s.file, false⟩ else t) target = _
  split
  · rw [← hfile]
    unfold fileAt
    rw [slot_put, if_pos rfl]
    rfl
  · rfl

/-- Where the descriptor can be made, it is the file of its socket. -/
theorem slot_passSocket_self {file : φ} (h : t.fileAt src = some file) :
    (t.passSocket src target).slot target =
      (if target < t.limit then some file else t.fileAt target).map fun file => ⟨file, false⟩ := by
  unfold passSocket
  rw [slot_clearCloexec_self]
  congr 1
  split_ifs with hne hlt hlt
  · rw [fileAt_dup2_self h, if_pos hlt]
  · rw [fileAt_dup2_self h, if_neg hlt]
  · rw [← not_ne_iff.1 hne, h]
  · rfl

end Turn

/-! The loop. -/

section Loop
variable {φ : Type} {t : FdTable φ} {fds : List ℤ} {i : ℕ}

theorem passSockets_succ (h : i < fds.length) : passSockets (fds.take (i + 1)) t =
    (passSockets (fds.take i) t).passSocket fds[i] (sdListenFdsStart + i) := by
  have hlen : (fds.take i).length = i := List.length_take_of_le (Nat.le_of_lt h)
  unfold passSockets
  rw [List.take_succ_eq_append_getElem h, List.zipIdx_append, List.foldl_append, hlen]
  simp

theorem limit_passSockets (h : i ≤ fds.length) :
    (passSockets (fds.take i) t).limit = t.limit := by
  induction i with
  | zero => rfl
  | succ i ih => rw [passSockets_succ h, limit_passSocket, ih (Nat.le_of_lt h)]

/-- What is no target yet is as it was. -/
theorem slot_passSockets_of_forall_ne {fd : ℤ} (hi : i ≤ fds.length)
    (h : ∀ j < i, fd ≠ sdListenFdsStart + j) :
    (passSockets (fds.take i) t).slot fd = t.slot fd := by
  induction i with
  | zero => rfl
  | succ i ih =>
    rw [passSockets_succ hi, slot_passSocket_of_ne (h i (Nat.lt_succ_self i))]
    exact ih (Nat.le_of_lt hi) fun j hj => h j (Nat.lt_succ_of_lt hj)

/-- A target is not touched again. -/
theorem slot_passSockets_of_lt {j : ℕ} (hi : i ≤ fds.length) (hj : j < i) :
    (passSockets (fds.take i) t).slot (sdListenFdsStart + j) =
      (passSockets (fds.take (j + 1)) t).slot (sdListenFdsStart + j) := by
  induction i with
  | zero => exact absurd hj (Nat.not_lt_zero j)
  | succ i ih =>
    obtain hlt | rfl := Nat.lt_succ_iff_lt_or_eq.1 hj
    · have hne : sdListenFdsStart + (j : ℤ) ≠ sdListenFdsStart + i := by omega
      rw [passSockets_succ hi, slot_passSocket_of_ne hne]
      exact ih (Nat.le_of_lt hi) hlt
    · rfl

theorem fileAt_congr {t' : FdTable φ} {fd : ℤ} (h : t.slot fd = t'.slot fd) :
    t.fileAt fd = t'.fileAt fd := congrArg (Option.map Slot.file) h

/-- A target before its turn. -/
theorem fileAt_passSockets_target (hi : i ≤ fds.length) :
    (passSockets (fds.take i) t).fileAt (sdListenFdsStart + i) =
      t.fileAt (sdListenFdsStart + i) :=
  fileAt_congr (slot_passSockets_of_forall_ne hi fun j hj => by omega)

/-- A target has its file right after its turn. -/
theorem arrived_iff : Arrived fds t (passSockets fds t) ↔ ∀ i (h : i < fds.length), ∃ file,
    t.fileAt fds[i] = some file ∧
      (passSockets (fds.take (i + 1)) t).slot (sdListenFdsStart + i) = some ⟨file, false⟩ := by
  refine forall₂_congr fun i h => ?_
  have hlast : (passSockets fds t).slot (sdListenFdsStart + i) =
      (passSockets (fds.take (i + 1)) t).slot (sdListenFdsStart + i) := by
    have hall := slot_passSockets_of_lt (t := t) (Nat.le_refl fds.length) h
    rwa [List.take_length] at hall
  rw [hlast]
  constructor
  · intro harrived
    obtain ⟨s, hs, hslot⟩ := harrived
    exact ⟨s.file, by rw [fileAt, hs, Option.map_some], hslot⟩
  · intro harrived
    obtain ⟨file, hfile, hslot⟩ := harrived
    obtain ⟨s, hs, rfl⟩ := Option.map_eq_some_iff.1 hfile
    exact ⟨s, hs, hslot⟩

/-- The socket that comes to `i`. -/
def ArrivedAt (fds : List ℤ) (t : FdTable φ) (i : ℕ) (h : i < fds.length) : Prop :=
  ∃ file, t.fileAt fds[i] = some file ∧
    (passSockets (fds.take (i + 1)) t).slot (sdListenFdsStart + i) = some ⟨file, false⟩

def UnobstructedAt (fds : List ℤ) (t : FdTable φ) (i : ℕ) (h : i < fds.length) : Prop :=
  if sdListenFdsStart + i < t.limit then
    ∀ j (hj : j < i), fds[i] = sdListenFdsStart + j → t.SameFile fds[j] fds[i]
  else t.SameFile fds[i] (sdListenFdsStart + i)

theorem slot_target_succ (h : i < fds.length) {file : φ}
    (hseen : (passSockets (fds.take i) t).fileAt fds[i] = some file) :
    (passSockets (fds.take (i + 1)) t).slot (sdListenFdsStart + i) =
      (if sdListenFdsStart + i < t.limit then some file
        else t.fileAt (sdListenFdsStart + i)).map fun file => ⟨file, false⟩ := by
  rw [passSockets_succ h, slot_passSocket_self hseen, limit_passSockets (Nat.le_of_lt h),
    fileAt_passSockets_target (Nat.le_of_lt h)]

/-- A socket whose descriptor an earlier one was moved to is seen as that one. -/
theorem fileAt_of_target {j : ℕ} (h : i < fds.length) (hj : j < i)
    (htarget : fds[i] = sdListenFdsStart + j) (harrived : ArrivedAt fds t j (hj.trans h)) :
    ∃ file, t.fileAt fds[j] = some file ∧
      (passSockets (fds.take i) t).fileAt fds[i] = some file := by
  obtain ⟨file, hfile, hslot⟩ := harrived
  refine ⟨file, hfile, ?_⟩
  rw [htarget, fileAt, slot_passSockets_of_lt (Nat.le_of_lt h) hj, hslot]
  rfl

theorem fileAt_of_not_target (h : i < fds.length)
    (hfree : ∀ j < i, fds[i] ≠ sdListenFdsStart + j) :
    (passSockets (fds.take i) t).fileAt fds[i] = t.fileAt fds[i] :=
  fileAt_congr (slot_passSockets_of_forall_ne (Nat.le_of_lt h) hfree)

/-- One turn, when all before it went well. -/
theorem arrivedAt_iff (h : i < fds.length) {file : φ} (hopen : t.fileAt fds[i] = some file)
    (hbefore : ∀ j (hj : j < i), ArrivedAt fds t j (hj.trans h)) :
    ArrivedAt fds t i h ↔ UnobstructedAt fds t i h := by
  -- what the turn finds at the descriptor of its socket
  have hseen : ∃ found, (passSockets (fds.take i) t).fileAt fds[i] = some found ∧
      (found = file ↔ ∀ j (hj : j < i), fds[i] = sdListenFdsStart + j →
        t.SameFile fds[j] fds[i]) := by
    by_cases htarget : ∃ j, ∃ _ : j < i, fds[i] = sdListenFdsStart + j
    · obtain ⟨j, hj, hfd⟩ := htarget
      obtain ⟨found, hfound, hnow⟩ := fileAt_of_target h hj hfd (hbefore j hj)
      refine ⟨found, hnow, ?_⟩
      constructor
      · intro hsame j' hj' hfd'
        have heq : j' = j := by omega
        subst heq
        rw [FdTable.SameFile, hfound, hopen, hsame]
      · intro hall
        have hsame := hall j hj hfd
        rw [FdTable.SameFile, hfound, hopen] at hsame
        exact Option.some.inj hsame
    · have hfree : ∀ j < i, fds[i] ≠ sdListenFdsStart + j :=
        fun j hj hfd => htarget ⟨j, hj, hfd⟩
      refine ⟨file, by rw [fileAt_of_not_target h hfree, hopen], ?_⟩
      exact iff_of_true rfl fun j hj hfd => absurd hfd (hfree j hj)
  obtain ⟨found, hfound, hiff⟩ := hseen
  have hslot := slot_target_succ h hfound
  unfold ArrivedAt UnobstructedAt
  rw [hslot]
  split_ifs with hfits
  · rw [← hiff]
    constructor
    · intro harrived
      obtain ⟨file', hfile', hsome⟩ := harrived
      rw [hopen, Option.some.injEq] at hfile'
      rw [Option.map_some, Option.some.injEq, Slot.mk.injEq] at hsome
      exact hsome.1.trans hfile'.symm
    · intro hsame
      exact ⟨file, hopen, by rw [hsame, Option.map_some]⟩
  · unfold FdTable.SameFile
    constructor
    · intro harrived
      obtain ⟨file', hfile', hsome⟩ := harrived
      obtain ⟨there, hthere, heq⟩ := Option.map_eq_some_iff.1 hsome
      rw [Slot.mk.injEq] at heq
      rw [hfile', hthere, heq.1]
    · intro hsame
      rw [← hsame, hopen]
      exact ⟨file, rfl, rfl⟩

theorem arrived_passSockets_iff (hopen : ∀ fd ∈ fds, (t.fileAt fd).isSome) :
    Arrived fds t (passSockets fds t) ↔ Unobstructed fds t := by
  have hfile : ∀ i (h : i < fds.length), ∃ file, t.fileAt fds[i] = some file :=
    fun i h => Option.isSome_iff_exists.1 (hopen _ (List.getElem_mem h))
  rw [arrived_iff]
  constructor
  · intro harrived i h
    obtain ⟨file, hfile⟩ := hfile i h
    exact (arrivedAt_iff h hfile fun j hj => harrived j (hj.trans h)).1 (harrived i h)
  · intro hfree i
    induction i using Nat.strong_induction_on with
    | h i ih =>
      intro h
      obtain ⟨file, hfile⟩ := hfile i h
      exact (arrivedAt_iff h hfile fun j hj => ih j hj (hj.trans h)).2 (hfree i h)

end Loop

/-! The two loops as they are in the source. -/

theorem setupChildFds_eq {φ : Type} (sockets : List ActivationSocket) (t : FdTable φ) :
    setupChildFds sockets t = passSockets (sockets.map (·.fd)) t := by
  unfold setupChildFds passSockets
  rw [List.zipIdx_map, List.foldl_map]
  rfl

theorem run_passActivationFds {φ : Type} (fds : List ℤ) (t : FdTable φ) :
    (passActivationFds fds).run performFds t = some (.ok (), passSockets fds t) := by
  unfold passActivationFds passSockets
  generalize fds.zipIdx = pairs
  induction pairs generalizing t with
  | nil => rfl
  | cons p pairs ih =>
    rw [each_cons, run_andThen]
    exact ih (t.passSocket p.1 (sdListenFdsStart + p.2))

/-- The open files of a list of sockets arrive in order, by either loop, exactly if no socket is in
the way of an earlier one. -/
theorem activation_sockets_iff {φ : Type} (sockets : List ActivationSocket) (t : FdTable φ)
    (hopen : ∀ s ∈ sockets, (t.fileAt s.fd).isSome) :
    ((∃ t', (passActivationFds (sockets.map (·.fd))).run performFds t = some (.ok (), t') ∧
      Arrived (sockets.map (·.fd)) t t') ↔ Unobstructed (sockets.map (·.fd)) t) ∧
    (Arrived (sockets.map (·.fd)) t (setupChildFds sockets t) ↔
      Unobstructed (sockets.map (·.fd)) t) := by
  have hfds : ∀ fd ∈ sockets.map (·.fd), (t.fileAt fd).isSome := by
    intro fd hfd
    obtain ⟨s, hs, rfl⟩ := List.mem_map.1 hfd
    exact hopen s hs
  have hiff := arrived_passSockets_iff hfds
  constructor
  · rw [← hiff]
    simp [run_passActivationFds]
  · rw [setupChildFds_eq]
    exact hiff

/-- A table with a file at each descriptor below eight, named after its place. -/
def eightFiles : FdTable ℤ where
  slot fd := if 0 ≤ fd ∧ fd < 8 then some ⟨fd, true⟩ else none
  limit := 1024

theorem activation_sockets_two :
    ∃ t', (passActivationFds [3, 7]).run performFds eightFiles = some (.ok (), t') ∧
      Arrived [3, 7] eightFiles t' := by
  refine (activation_sockets_iff [⟨"web", 3⟩, ⟨"web", 7⟩] eightFiles (by decide)).1.2 ?_
  intro i h
  have hfits : sdListenFdsStart + (i : ℤ) < eightFiles.limit := by
    have hlen : i < 2 := h
    show (3 : ℤ) + i < 1024
    omega
  rw [if_pos hfits]
  intro j hj hfd
  have hfirst : i = 1 ∧ j = 0 := by
    have hlen : i < 2 := h
    omega
  obtain ⟨rfl, rfl⟩ := hfirst
  cases hfd

/-- Of two sockets in each other's place, the first arrives twice. -/
theorem activation_sockets_swapped :
    (¬ ∃ t', (passActivationFds [4, 3]).run performFds eightFiles = some (.ok (), t') ∧
      Arrived [4, 3] eightFiles t') ∧
    ¬ Arrived [4, 3] eightFiles (setupChildFds [⟨"web", 4⟩, ⟨"web", 3⟩] eightFiles) := by
  have hlost : ¬ Arrived [4, 3] eightFiles (passSockets [4, 3] eightFiles) := by
    intro harrived
    obtain ⟨s, hs, hslot⟩ := harrived 1 (by decide)
    have hbefore : eightFiles.slot 3 = some ⟨3, true⟩ := rfl
    have hafter : (passSockets [4, 3] eightFiles).slot 4 = some ⟨4, false⟩ := rfl
    have hfile : s = ⟨3, true⟩ := Option.some.inj (hs.symm.trans hbefore)
    rw [hfile] at hslot
    have hsame : (⟨4, false⟩ : Slot ℤ) = ⟨3, false⟩ := Option.some.inj (hafter.symm.trans hslot)
    exact absurd hsame (by decide)
  constructor
  · intro h
    obtain ⟨t', hrun, harrived⟩ := h
    rw [run_passActivationFds, Option.some.injEq, Prod.mk.injEq] at hrun
    rw [← hrun.2] at harrived
    exact hlost harrived
  · rw [setupChildFds_eq]
    exact hlost

end Quantra.Process
