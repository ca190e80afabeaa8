import Quantra.Lib.Bpf
import Quantra.Services.Launch

/-! The seccomp filters that the child of `start_service_as` builds and installs. -/
namespace Quantra.Process
open Quantra.Services

/-- The words of `struct seccomp_data` that the filters load. -/
structure SeccompData where
  nr : UInt32
  arch : UInt32
  deriving DecidableEq, Repr

def seccompDataNrOffset : UInt32 := 0

def seccompDataArchOffset : UInt32 := 4

def SeccompData.load (data : SeccompData) (offset : UInt32) : Option UInt32 :=
  if offset = seccompDataNrOffset then some data.nr
  else if offset = seccompDataArchOffset then some data.arch
  else none

def seccompRetKillProcess : UInt32 := 0x80000000

def seccompRetAllow : UInt32 := 0x7fff0000

def seccompRetErrno : UInt32 := 0x00050000

def eperm : UInt32 := 1

/-- `AUDIT_ARCH_NATIVE` of the x86_64 target; targets without a known value have `0`. -/
def auditArchX8664 : UInt32 := 0xc000003e

/-- `BPF_MAXINSNS`: the kernel takes no longer program. -/
def bpfMaxInsns : ℕ := 4096

def bpfStmt (code : UInt16) (k : UInt32) : Bpf.Insn := ⟨code, 0, 0, k⟩

def bpfJump (code : UInt16) (k : UInt32) (jt jf : UInt8) : Bpf.Insn := ⟨code, jt, jf, k⟩

/-- `*nr as u32` for a `c_long`. -/
def asU32 (nr : ℤ) : UInt32 := UInt32.ofNat (nr % 2 ^ 32).toNat

/-- What a filter function does before it reports: nothing (and success), nothing (and failure),
or a `prctl` with the program. -/
inductive Applied
  | nothing
  | refused
  | install (program : List Bpf.Insn)
  deriving DecidableEq, Repr

/-- The instructions the kernel reads through `sock_fprog`, whose length field is a `u16`. -/
def sockFprog (filter : List Bpf.Insn) : List Bpf.Insn := filter.take (filter.length % 2 ^ 16)

/-- Kill on a foreign ABI, then load the system call number. -/
def lockNativeAbi (native : UInt32) : List Bpf.Insn :=
  [bpfStmt Bpf.ldWordAbs seccompDataArchOffset,
    bpfJump Bpf.jmpJeqK native 1 0,
    bpfStmt Bpf.retK seccompRetKillProcess,
    bpfStmt Bpf.ldWordAbs seccompDataNrOffset]

/-- The loop of `apply_seccomp_denylist`; a number that is no `u32` makes it give up. -/
def denyComparisons : List ℤ → Option (List Bpf.Insn)
  | [] => some []
  | nr :: nrs =>
    if nr < 0 ∨ nr > 2 ^ 32 - 1 then none
    else (denyComparisons nrs).map fun filter =>
      bpfJump Bpf.jmpJeqK (asU32 nr) 0 1 :: bpfStmt Bpf.retK seccompRetKillProcess :: filter

def applySeccompDenylist (native : UInt32) (deniedSyscalls : List ℤ) : Applied :=
  if deniedSyscalls.isEmpty then .nothing
  else if native = 0 then .refused
  else
    match denyComparisons deniedSyscalls with
    | none => .refused
    | some comparisons => .install (sockFprog
        (lockNativeAbi native ++ comparisons ++ [bpfStmt Bpf.retK seccompRetAllow]))

/-- The `no_new_privs` that it sets before its program is left to the launch. -/
def applySeccompAllowlist (native : UInt32) (allowedSyscalls : List ℤ) : Applied :=
  if native = 0 then .refused
  else .install (sockFprog (lockNativeAbi native ++
    allowedSyscalls.flatMap (fun nr =>
      [bpfJump Bpf.jmpJeqK (asU32 nr) 0 1, bpfStmt Bpf.retK seccompRetAllow]) ++
    [bpfStmt Bpf.retK (seccompRetErrno ||| (eperm &&& 0xFFFF))]))

/-! Both compilers emit a comparison chain behind the ABI check. -/

/-- The common shape of the two programs. -/
private def filterProgram (native hit miss : UInt32) (ks : List UInt32) : List Bpf.Insn :=
  lockNativeAbi native ++ (Bpf.chain hit ks ++ [⟨Bpf.retK, 0, 0, miss⟩])

private theorem length_filterProgram {native hit miss : UInt32} {ks : List UInt32} :
    (filterProgram native hit miss ks).length = 2 * ks.length + 5 := by
  simp only [filterProgram, lockNativeAbi, List.length_append, List.length_cons, List.length_nil,
    Bpf.length_chain]
  omega

private theorem sockFprog_filterProgram {native hit miss : UInt32} {ks : List UInt32}
    (hshort : 2 * ks.length + 5 ≤ bpfMaxInsns) :
    sockFprog (filterProgram native hit miss ks) = filterProgram native hit miss ks := by
  have hlt : (filterProgram native hit miss ks).length < 2 ^ 16 := by
    rw [length_filterProgram]
    unfold bpfMaxInsns at hshort
    omega
  unfold sockFprog
  rw [Nat.mod_eq_of_lt hlt, List.take_length]

private theorem run_filterProgram {native hit miss : UInt32} {ks : List UInt32}
    (data : SeccompData) :
    Bpf.run data.load (filterProgram native hit miss ks) = some
      (if data.arch = native then if data.nr ∈ ks then hit else miss
        else seccompRetKillProcess) := by
  have hchain : Bpf.exec data.load (2 * ks.length + 2)
      (Bpf.chain hit ks ++ [⟨Bpf.retK, 0, 0, miss⟩]) data.nr =
      some (if data.nr ∈ ks then hit else miss) := Bpf.exec_chain (by omega)
  have harch : data.load seccompDataArchOffset = some data.arch := by
    simp [SeccompData.load, seccompDataArchOffset, seccompDataNrOffset]
  have hnr : data.load seccompDataNrOffset = some data.nr := by
    simp [SeccompData.load]
  unfold Bpf.run
  rw [length_filterProgram]
  unfold filterProgram lockNativeAbi bpfStmt bpfJump
  simp only [List.cons_append, List.nil_append, Bpf.exec_ld, harch, Option.bind_some, Bpf.exec_jeq]
  by_cases hnative : data.arch = native
  · simp only [hnative, if_true, UInt8.toNat_one, List.drop_succ_cons, List.drop_zero,
      Bpf.exec_ld, hnr, Option.bind_some]
    exact hchain
  · simp only [hnative, if_false, UInt8.toNat_zero, List.drop_zero, Bpf.exec_ret]

private theorem jumpsInside_filterProgram {native hit miss : UInt32} {ks : List UInt32} :
    Bpf.JumpsInside (filterProgram native hit miss ks) := by
  have hlast : Bpf.JumpsInside [⟨Bpf.retK, 0, 0, miss⟩] := by
    rw [Bpf.jumpsInside_cons]
    exact ⟨fun hcode => by simp [Bpf.retK, Bpf.jmpJeqK] at hcode, Bpf.jumpsInside_nil⟩
  have hchain : Bpf.JumpsInside (Bpf.chain hit ks ++ [⟨Bpf.retK, 0, 0, miss⟩]) :=
    Bpf.jumpsInside_chain hlast (by simp)
  unfold filterProgram lockNativeAbi bpfStmt bpfJump
  simp only [List.cons_append, List.nil_append, Bpf.jumpsInside_cons]
  refine ⟨?_, ?_, ?_, ?_, hchain⟩
  · simp [Bpf.ldWordAbs, Bpf.jmpJeqK]
  · simp
  · simp [Bpf.retK, Bpf.jmpJeqK]
  · simp [Bpf.ldWordAbs, Bpf.jmpJeqK]

private theorem denyComparisons_eq {nrs : List ℤ} (hfit : ∀ nr ∈ nrs, 0 ≤ nr ∧ nr < 2 ^ 32) :
    denyComparisons nrs = some (Bpf.chain seccompRetKillProcess (nrs.map asU32)) := by
  induction nrs with
  | nil => rfl
  | cons nr nrs ih =>
    have hnr := hfit nr (by simp)
    have hrest := ih (fun n hn => hfit n (by simp [hn]))
    have hrange : ¬ (nr < 0 ∨ nr > 2 ^ 32 - 1) := by omega
    unfold denyComparisons
    rw [if_neg hrange, hrest, List.map_cons, Bpf.chain_cons]
    rfl

theorem applySeccompDenylist_eq {native : UInt32} {nrs : List ℤ}
    (hfit : ∀ nr ∈ nrs, 0 ≤ nr ∧ nr < 2 ^ 32) (hshort : 2 * nrs.length + 5 ≤ bpfMaxInsns) :
    applySeccompDenylist native nrs =
      if nrs = [] then .nothing
      else if native = 0 then .refused
      else .install (filterProgram native seccompRetKillProcess seccompRetAllow
        (nrs.map asU32)) := by
  have hshape : sockFprog (filterProgram native seccompRetKillProcess seccompRetAllow
      (nrs.map asU32)) = _ := sockFprog_filterProgram (by simpa using hshort)
  unfold applySeccompDenylist
  rw [denyComparisons_eq hfit]
  simp only [List.isEmpty_iff, List.append_assoc]
  rw [← hshape]
  rfl

theorem applySeccompAllowlist_eq {native : UInt32} {nrs : List ℤ}
    (hshort : 2 * nrs.length + 5 ≤ bpfMaxInsns) :
    applySeccompAllowlist native nrs =
      if native = 0 then .refused
      else .install (filterProgram native seccompRetAllow (seccompRetErrno ||| eperm)
        (nrs.map asU32)) := by
  have hshape : sockFprog (filterProgram native seccompRetAllow (seccompRetErrno ||| eperm)
      (nrs.map asU32)) = _ := sockFprog_filterProgram (by simpa using hshort)
  unfold applySeccompAllowlist
  rw [← hshape]
  simp only [filterProgram, Bpf.chain, List.flatMap_map, List.append_assoc]
  rfl

/-- Numbers that fit in a `u32` are compared without loss. -/
theorem mem_map_asU32 {nrs : List ℤ} (hfit : ∀ nr ∈ nrs, 0 ≤ nr ∧ nr < 2 ^ 32) {n : UInt32} :
    n ∈ nrs.map asU32 ↔ (n.toNat : ℤ) ∈ nrs := by
  rw [List.mem_map]
  have hcast : ∀ nr ∈ nrs, ((asU32 nr).toNat : ℤ) = nr := by
    intro nr hnr
    have hrange := hfit nr hnr
    unfold asU32
    rw [UInt32.toNat_ofNat']
    omega
  constructor
  · intro ⟨nr, hnr, heq⟩
    subst heq
    rwa [hcast nr hnr]
  · intro hn
    have hback := hcast _ hn
    exact ⟨_, hn, UInt32.toNat_inj.1 (by exact_mod_cast hback)⟩

private theorem kill_ne_allow : seccompRetKillProcess ≠ seccompRetAllow := by decide

private theorem errno_ne_allow : seccompRetErrno ||| eperm ≠ seccompRetAllow := by decide

private theorem errno_ne_kill : seccompRetErrno ||| eperm ≠ seccompRetKillProcess := by decide

/-- Both compilers are correct: the denylist program kills exactly on a foreign ABI or a listed
number and otherwise allows, the allowlist program allows exactly a listed number of the native
ABI, and no jump of either leaves the program. A denylist program is emitted for every list but
the empty one, for which nothing is installed. -/
theorem seccomp_compilers_correct (native : UInt32) (nrs : List ℤ)
    (hfit : ∀ nr ∈ nrs, 0 ≤ nr ∧ nr < 2 ^ 32) (hshort : 2 * nrs.length + 5 ≤ bpfMaxInsns) :
    ((∃ p, applySeccompDenylist native nrs = .install p) ↔ nrs ≠ [] ∧ native ≠ 0) ∧
    ((∃ p, applySeccompAllowlist native nrs = .install p) ↔ native ≠ 0) ∧
    (∀ p, applySeccompDenylist native nrs = .install p →
      Bpf.JumpsInside p ∧ ∀ data : SeccompData,
        (Bpf.run data.load p = some seccompRetKillProcess ↔
          data.arch ≠ native ∨ (data.nr.toNat : ℤ) ∈ nrs) ∧
        (Bpf.run data.load p = some seccompRetAllow ↔
          ¬ (data.arch ≠ native ∨ (data.nr.toNat : ℤ) ∈ nrs))) ∧
    (∀ p, applySeccompAllowlist native nrs = .install p →
      Bpf.JumpsInside p ∧ ∀ data : SeccompData,
        (Bpf.run data.load p = some seccompRetAllow ↔
          data.arch = native ∧ (data.nr.toNat : ℤ) ∈ nrs) ∧
        (Bpf.run data.load p = some seccompRetKillProcess ↔ data.arch ≠ native) ∧
        (Bpf.run data.load p = some (seccompRetErrno ||| eperm) ↔
          data.arch = native ∧ (data.nr.toNat : ℤ) ∉ nrs)) := by
  rw [applySeccompDenylist_eq hfit hshort, applySeccompAllowlist_eq hshort]
  refine ⟨?_, ?_, ?_, ?_⟩
  · by_cases hnil : nrs = [] <;> by_cases hzero : native = 0 <;> simp [hnil, hzero]
  · by_cases hzero : native = 0 <;> simp [hzero]
  · intro p hp
    have hprog : p = filterProgram native seccompRetKillProcess seccompRetAllow
        (nrs.map asU32) := by
      split_ifs at hp with hnil hzero
      exact (Applied.install.inj hp).symm
    subst hprog
    refine ⟨jumpsInside_filterProgram, fun data => ?_⟩
    simp only [run_filterProgram, mem_map_asU32 hfit]
    by_cases harch : data.arch = native <;> by_cases hnr : (data.nr.toNat : ℤ) ∈ nrs <;>
      simp [harch, hnr, kill_ne_allow, kill_ne_allow.symm]
  · intro p hp
    have hprog : p = filterProgram native seccompRetAllow (seccompRetErrno ||| eperm)
        (nrs.map asU32) := by
      split_ifs at hp with hzero
      exact (Applied.install.inj hp).symm
    subst hprog
    refine ⟨jumpsInside_filterProgram, fun data => ?_⟩
    simp only [run_filterProgram, mem_map_asU32 hfit]
    by_cases harch : data.arch = native <;> by_cases hnr : (data.nr.toNat : ℤ) ∈ nrs <;>
      simp [harch, hnr, kill_ne_allow, kill_ne_allow.symm, errno_ne_allow, errno_ne_allow.symm,
        errno_ne_kill, errno_ne_kill.symm]

theorem seccomp_compilers_correct_reboot :
    (∃ p, applySeccompDenylist auditArchX8664 [169] = .install p ∧
      Bpf.run (SeccompData.load ⟨169, auditArchX8664⟩) p = some seccompRetKillProcess) ∧
    ∃ p, applySeccompAllowlist auditArchX8664 [169] = .install p ∧
      Bpf.run (SeccompData.load ⟨169, auditArchX8664⟩) p = some seccompRetAllow := by
  obtain ⟨hdeny, hallow, hdenied, hallowed⟩ :=
    seccomp_compilers_correct auditArchX8664 [169] (by decide) (by decide)
  obtain ⟨p, hp⟩ := hdeny.2 (by decide)
  obtain ⟨q, hq⟩ := hallow.2 (by decide)
  have hkill := ((hdenied p hp).2 ⟨169, auditArchX8664⟩).1.2 (by decide)
  have hpass := ((hallowed q hq).2 ⟨169, auditArchX8664⟩).1.2 (by decide)
  exact ⟨⟨p, hp, hkill⟩, q, hq, hpass⟩

/-! The choice the child makes between the filters. -/

/-- What is in force after the child's seccomp step. -/
inductive Filter
  | none
  | strict
  | program (filter : List Bpf.Insn)
  deriving DecidableEq, Repr

/-- The calls that `SECCOMP_MODE_STRICT` leaves. -/
def strictCalls : List Syscall := [.read, .write, .exit, .rt_sigreturn]

/-- A system call of the native ABI passes the filter. -/
def Filter.Allows (native : UInt32) (nr : ℕ) : Filter → Prop
  | .none => True
  | .strict => nr ∈ strictCalls.map Syscall.number
  | .program p => Bpf.run (SeccompData.load ⟨UInt32.ofNat nr, native⟩) p = some seccompRetAllow

/-- A system call of the native ABI that the filter ends the process for. -/
def Filter.Kills (native : UInt32) (nr : ℕ) : Filter → Prop
  | .none => False
  | .strict => nr ∉ strictCalls.map Syscall.number
  | .program p =>
    Bpf.run (SeccompData.load ⟨UInt32.ofNat nr, native⟩) p = some seccompRetKillProcess

/-- The end of a filter function: its `prctl` takes the program or not. -/
def Applied.outcome (accepted : Bool) (message : String) : Applied → Except String Filter
  | .nothing => .ok .none
  | .refused => .error message
  | .install p => if accepted then .ok (.program p) else .error message

/-- The filter that the child installs, or the message with which it exits; `accepted` is the
outcome of the `prctl`. -/
def childSeccomp (native : UInt32) (accepted : Bool) (cfg : ServiceLaunch) :
    Except String Filter :=
  if cfg.seccompAllowlist ≠ [] then
    (applySeccompAllowlist native (cfg.seccompAllowlist.map Nat.cast)).outcome accepted
      "[zai-init] seccomp allowlist apply failed\n"
  else if cfg.seccompProfileDenylist ≠ [] then
    (applySeccompDenylist native (cfg.seccompProfileDenylist.map Nat.cast)).outcome accepted
      "[zai-init] seccomp profile apply failed\n"
  else if cfg.seccompStrict then
    if accepted then .ok .strict else .error "[zai-init] seccomp strict mode apply failed\n"
  else .ok .none

/-- What the kernel takes for one filter: numbers that fit, and a program that is short enough. -/
def Compilable (nrs : List ℕ) : Prop :=
  (∀ nr ∈ nrs, nr < 2 ^ 32) ∧ 2 * nrs.length + 5 ≤ bpfMaxInsns

/-- The calls that a launch leaves to the child and to the service it becomes. -/
def LeftBy (cfg : ServiceLaunch) (nr : ℕ) : Prop :=
  if cfg.seccompAllowlist ≠ [] then nr ∈ cfg.seccompAllowlist
  else if cfg.seccompProfileDenylist ≠ [] then nr ∉ cfg.seccompProfileDenylist
  else cfg.seccompStrict → nr ∈ strictCalls.map Syscall.number

private theorem outcome_eq_ok {a : Applied} {accepted : Bool} {message : String} {f : Filter}
    (h : a.outcome accepted message = .ok f) :
    (a = .nothing ∧ f = .none) ∨ ∃ p, a = .install p ∧ f = .program p := by
  cases a with
  | nothing =>
    cases h
    exact .inl ⟨rfl, rfl⟩
  | refused => cases h
  | install p =>
    unfold Applied.outcome at h
    split_ifs at h
    cases h
    exact .inr ⟨p, rfl, rfl⟩

private theorem toNat_ofNat_mem {nrs : List ℕ} {nr : ℕ} (hnr : nr < 2 ^ 32) :
    ((UInt32.ofNat nr).toNat : ℤ) ∈ nrs.map (Nat.cast : ℕ → ℤ) ↔ nr ∈ nrs := by
  rw [UInt32.toNat_ofNat', Nat.mod_eq_of_lt hnr, List.mem_map]
  norm_cast
  simp

/-- What an installed list filter answers. -/
private theorem run_installed {native hit miss : UInt32} {nrs : List ℕ} {nr : ℕ}
    (hfit : ∀ n ∈ nrs.map (Nat.cast : ℕ → ℤ), 0 ≤ n ∧ n < 2 ^ 32) (hnr : nr < 2 ^ 32)
    {accepted : Bool} {message : String} {f : Filter}
    (h : (Applied.install (filterProgram native hit miss
      ((nrs.map (Nat.cast : ℕ → ℤ)).map asU32))).outcome accepted message = .ok f) :
    ∃ p, f = .program p ∧ Bpf.run (SeccompData.load ⟨UInt32.ofNat nr, native⟩) p =
      some (if nr ∈ nrs then hit else miss) := by
  obtain ⟨hno, -⟩ | ⟨p, hp, rfl⟩ := outcome_eq_ok h
  · cases hno
  · cases hp
    refine ⟨_, rfl, ?_⟩
    simp only [run_filterProgram, mem_map_asU32 hfit, toNat_ofNat_mem hnr, if_true]

/-- What an installed list filter lets through. -/
private theorem allows_installed {native hit miss : UInt32} {nrs : List ℕ} {nr : ℕ}
    (hfit : ∀ n ∈ nrs.map (Nat.cast : ℕ → ℤ), 0 ≤ n ∧ n < 2 ^ 32) (hnr : nr < 2 ^ 32)
    {accepted : Bool} {message : String} {f : Filter}
    (h : (Applied.install (filterProgram native hit miss
      ((nrs.map (Nat.cast : ℕ → ℤ)).map asU32))).outcome accepted message = .ok f) :
    (f.Allows native nr ↔ (if nr ∈ nrs then hit else miss) = seccompRetAllow) ∧
    (f.Kills native nr ↔ (if nr ∈ nrs then hit else miss) = seccompRetKillProcess) := by
  obtain ⟨p, rfl, hrun⟩ := run_installed hfit hnr h
  simp only [Filter.Allows, Filter.Kills, hrun, Option.some.injEq, and_self]

section Chosen
variable {native : UInt32} {cfg : ServiceLaunch}

private theorem Compilable.cast {nrs : List ℕ} (h : Compilable nrs) :
    (∀ n ∈ nrs.map (Nat.cast : ℕ → ℤ), 0 ≤ n ∧ n < 2 ^ 32) ∧
      2 * (nrs.map (Nat.cast : ℕ → ℤ)).length + 5 ≤ bpfMaxInsns := by
  constructor
  · intro n hn
    obtain ⟨m, hm, heq⟩ := List.mem_map.1 hn
    have hlt := h.1 m hm
    omega
  · simpa using h.2

/-- Of a list the filter lets pass, of a denylist or in strict mode it ends the process for the
rest. -/
private theorem chosen_iff {accepted : Bool} {f : Filter} {nr : ℕ} (hnr : nr < 2 ^ 32)
    (hallow : Compilable cfg.seccompAllowlist) (hdeny : Compilable cfg.seccompProfileDenylist)
    (h : childSeccomp native accepted cfg = .ok f) :
    (f.Allows native nr ↔ LeftBy cfg nr) ∧
      (f.Kills native nr ↔ cfg.seccompAllowlist = [] ∧ ¬ LeftBy cfg nr) := by
  unfold childSeccomp at h
  unfold LeftBy
  split_ifs at h ⊢ with hlist hprofile hstrict haccepted
  · obtain ⟨hfit, hshort⟩ := hallow.cast
    rw [applySeccompAllowlist_eq hshort] at h
    split_ifs at h with hzero
    · cases h
    · obtain ⟨hallows, hkills⟩ := allows_installed hfit hnr h
      rw [hallows, hkills]
      by_cases hmem : nr ∈ cfg.seccompAllowlist <;>
        simp [hmem, hlist, errno_ne_allow, errno_ne_kill, kill_ne_allow.symm]
  · obtain ⟨hfit, hshort⟩ := hdeny.cast
    rw [applySeccompDenylist_eq hfit hshort, if_neg (by simpa using hprofile)] at h
    split_ifs at h with hzero
    · cases h
    · obtain ⟨hallows, hkills⟩ := allows_installed hfit hnr h
      rw [hallows, hkills]
      by_cases hmem : nr ∈ cfg.seccompProfileDenylist <;>
        simp [hmem, not_ne_iff.1 hlist, kill_ne_allow, kill_ne_allow.symm]
  · cases h
    simp [Filter.Allows, Filter.Kills, hstrict, not_ne_iff.1 hlist]
  · cases h
    simp [Filter.Allows, Filter.Kills, hstrict]

theorem allows_iff_leftBy {accepted : Bool} {f : Filter} {nr : ℕ} (hnr : nr < 2 ^ 32)
    (hallow : Compilable cfg.seccompAllowlist) (hdeny : Compilable cfg.seccompProfileDenylist)
    (h : childSeccomp native accepted cfg = .ok f) : f.Allows native nr ↔ LeftBy cfg nr :=
  (chosen_iff hnr hallow hdeny h).1

/-- A filter that the kernel takes is installed. -/
theorem exists_childSeccomp (hnative : native ≠ 0) (hallow : Compilable cfg.seccompAllowlist)
    (hdeny : Compilable cfg.seccompProfileDenylist) :
    ∃ f, childSeccomp native true cfg = .ok f := by
  simp only [childSeccomp, ↓reduceIte]
  split_ifs with hlist hprofile hstrict
  · rw [applySeccompAllowlist_eq hallow.cast.2, if_neg hnative]
    exact ⟨_, rfl⟩
  · obtain ⟨hfit, hshort⟩ := hdeny.cast
    rw [applySeccompDenylist_eq hfit hshort, if_neg (by simpa using hprofile), if_neg hnative]
    exact ⟨_, rfl⟩
  · exact ⟨_, rfl⟩
  · exact ⟨_, rfl⟩

/-- Without the kernel's leave there is a filter of a launch that asks for none only. -/
theorem childSeccomp_refused (hallow : Compilable cfg.seccompAllowlist)
    (hdeny : Compilable cfg.seccompProfileDenylist) {f : Filter}
    (h : childSeccomp native false cfg = .ok f) :
    cfg.seccompAllowlist = [] ∧ cfg.seccompProfileDenylist = [] ∧ cfg.seccompStrict = false := by
  simp only [childSeccomp, Bool.false_eq_true, ↓reduceIte] at h
  split_ifs at h with hlist hprofile hstrict
  · rw [applySeccompAllowlist_eq hallow.cast.2] at h
    split_ifs at h <;> cases h
  · obtain ⟨hfit, hshort⟩ := hdeny.cast
    rw [applySeccompDenylist_eq hfit hshort, if_neg (by simpa using hprofile)] at h
    split_ifs at h <;> cases h
  · exact ⟨not_ne_iff.1 hlist, not_ne_iff.1 hprofile, by simpa using hstrict⟩

end Chosen

/-! Profiles. -/

/-- The service asks for profile `p`. -/
def SeccompProfile.IsFor (p : SeccompProfile) (svc : Service) : Prop :=
  svc.seccomp = .profile ∧
    ∃ text, trimmedProfile svc = some text ∧ Text.toAsciiLowercase (Text.trim text) = p.name

/-- The resolved table of a profile. -/
def SeccompProfile.denylist (p : SeccompProfile) : List ℕ :=
  ((p.denied.map Syscall.number).insertionSort (· ≤ ·)).destutter (· ≠ ·)

/-- Sorting and removing repetitions keeps the members of each table. -/
theorem SeccompProfile.mem_denylist (p : SeccompProfile) {nr : ℕ} :
    nr ∈ p.denylist ↔ nr ∈ p.denied.map Syscall.number := by
  have hkeep : ∀ n ∈ p.denied.map Syscall.number, n ∈ p.denylist := by
    cases p <;> decide
  constructor
  · intro h
    have hsorted := (List.destutter_sublist _ _).subset h
    rwa [List.mem_insertionSort] at hsorted
  · exact hkeep nr

/-- A denylist is resolved for a supported profile only. -/
theorem resolveSeccompProfileForService_cases {svc : Service} {denylist : List ℕ}
    (h : resolveSeccompProfileForService svc = .ok denylist) :
    (svc.seccomp ≠ .profile ∧ denylist = []) ∨
      ∃ p : SeccompProfile, p.IsFor svc ∧ denylist = p.denylist := by
  unfold resolveSeccompProfileForService at h
  cases hmode : svc.seccomp with
  | off =>
    rw [hmode] at h
    cases h
    exact .inl ⟨nofun, rfl⟩
  | strict =>
    rw [hmode] at h
    cases h
    exact .inl ⟨nofun, rfl⟩
  | profile =>
    rw [hmode] at h
    cases htext : trimmedProfile svc with
    | none =>
      rw [htext] at h
      cases h
    | some text =>
      simp only [htext, resolveSeccompProfileDenylist] at h
      cases hfind : supportedSeccompProfiles.find?
          (·.name = Text.toAsciiLowercase (Text.trim text)) with
      | none =>
        rw [hfind] at h
        cases h
      | some p =>
        rw [hfind] at h
        cases h
        have hname := List.find?_some hfind
        exact .inr ⟨p, ⟨hmode, text, htext, (of_decide_eq_true hname).symm⟩, rfl⟩

theorem SeccompProfile.IsFor.unique {p q : SeccompProfile} {svc : Service} (hp : p.IsFor svc)
    (hq : q.IsFor svc) : p = q := by
  obtain ⟨-, text, htext, hname⟩ := hp
  obtain ⟨-, text', htext', hname'⟩ := hq
  have htexts : text = text' := Option.some.inj (htext.symm.trans htext')
  subst htexts
  have hnames : p.name = q.name := hname.symm.trans hname'
  revert hnames
  cases p <;> cases q <;> decide

theorem Syscall.number_lt (s : Syscall) : s.number < 2 ^ 32 := by
  cases s <;> decide

private theorem compilable_map_number {calls : List Syscall} {nrs : List ℕ}
    (hsub : ∀ nr ∈ nrs, nr ∈ calls.map Syscall.number)
    (hshort : 2 * nrs.length + 5 ≤ bpfMaxInsns) : Compilable nrs := by
  refine ⟨fun nr hnr => ?_, hshort⟩
  obtain ⟨s, -, heq⟩ := List.mem_map.1 (hsub nr hnr)
  rw [← heq]
  exact s.number_lt

/-- Every list that a launch carries makes a program the kernel takes. -/
theorem compilable_of_confines {svc : Service} {l : ServiceLaunch} (h : Confines svc l) :
    Compilable l.seccompAllowlist ∧ Compilable l.seccompProfileDenylist := by
  have hnil : Compilable [] := ⟨nofun, by decide⟩
  constructor
  · rw [h.allowlist]
    unfold resolveSeccompAllowlist
    split_ifs
    · exact hnil
    · exact compilable_map_number (fun nr hnr => hnr) (by decide +kernel)
  · obtain ⟨-, hempty⟩ | ⟨p, -, hdenylist⟩ := resolveSeccompProfileForService_cases h.denylist
    · rw [hempty]
      exact hnil
    · rw [hdenylist]
      refine compilable_map_number (fun nr => p.mem_denylist.1) ?_
      cases p <;> decide

/-! The calls that each configuration leaves. -/

section Left
variable {svc : Service} {l : ServiceLaunch} {nr : ℕ}

theorem seccompAllowlist_eq_nil (h : Confines svc l)
    (hoff : svc.syscallFilterMode ≠ "allowlist" ∨ svc.seccomp = .off) :
    l.seccompAllowlist = [] := by
  rw [h.allowlist]
  unfold resolveSeccompAllowlist
  rw [if_pos hoff]

theorem leftBy_allowlist (h : Confines svc l) (hmode : svc.syscallFilterMode = "allowlist")
    (hon : svc.seccomp ≠ .off) : LeftBy l nr ↔ nr ∈ baseAllowlist.map Syscall.number := by
  have hlist : l.seccompAllowlist = baseAllowlist.map Syscall.number := by
    rw [h.allowlist]
    unfold resolveSeccompAllowlist
    rw [if_neg (by simp [hmode, hon])]
  unfold LeftBy
  rw [hlist, if_pos (by decide)]

theorem leftBy_profile (h : Confines svc l) (hmode : svc.syscallFilterMode ≠ "allowlist")
    {p : SeccompProfile} (hp : p.IsFor svc) :
    LeftBy l nr ↔ nr ∉ p.denied.map Syscall.number := by
  have hdenylist : l.seccompProfileDenylist = p.denylist := by
    obtain ⟨hoff, -⟩ | ⟨q, hq, heq⟩ := resolveSeccompProfileForService_cases h.denylist
    · exact absurd hp.1 hoff
    · rw [heq, hq.unique hp]
  have hne : p.denylist ≠ [] := by cases p <;> decide
  have hnil := seccompAllowlist_eq_nil h (.inl hmode)
  unfold LeftBy
  rw [if_neg (not_not_intro hnil), hdenylist, if_pos hne, p.mem_denylist]

/-- Without a profile and an allowlist only the strict mode is left. -/
theorem leftBy_strict (h : Confines svc l)
    (hmode : svc.syscallFilterMode ≠ "allowlist" ∨ svc.seccomp = .off)
    (hprofile : svc.seccomp ≠ .profile) :
    LeftBy l nr ↔ (svc.seccomp = .strict → nr ∈ strictCalls.map Syscall.number) := by
  have hdenylist : l.seccompProfileDenylist = [] := by
    obtain ⟨-, hempty⟩ | ⟨q, hq, -⟩ := resolveSeccompProfileForService_cases h.denylist
    · exact hempty
    · exact absurd hq.1 hprofile
  have hnil := seccompAllowlist_eq_nil h hmode
  unfold LeftBy
  rw [if_neg (not_not_intro hnil), if_neg (not_not_intro hdenylist), h.strict,
    decide_eq_true_eq]

end Left

/-- The filter of a launch, call by call. -/
theorem allows_number_iff {host : Host} {logger : Option ℤ} {svc : Service} {l : ServiceLaunch}
    {accepted : Bool} {f : Filter} (hl : LaunchOf host logger svc l)
    (hf : childSeccomp auditArchX8664 accepted l = .ok f) {nr : ℕ} (hnr : nr < 2 ^ 32) :
    f.Allows auditArchX8664 nr ↔ LeftBy l nr := by
  obtain ⟨hallow, hdeny⟩ := compilable_of_confines hl.confines
  exact allows_iff_leftBy hnr hallow hdeny hf

/-- The filter of a launch ends the process for what it does not leave, an allowlist apart. -/
theorem kills_number_iff {host : Host} {logger : Option ℤ} {svc : Service} {l : ServiceLaunch}
    {accepted : Bool} {f : Filter} (hl : LaunchOf host logger svc l)
    (hf : childSeccomp auditArchX8664 accepted l = .ok f) {nr : ℕ} (hnr : nr < 2 ^ 32) :
    f.Kills auditArchX8664 nr ↔ l.seccompAllowlist = [] ∧ ¬ f.Allows auditArchX8664 nr := by
  obtain ⟨hallow, hdeny⟩ := compilable_of_confines hl.confines
  obtain ⟨hallows, hkills⟩ := chosen_iff hnr hallow hdeny hf
  rw [hkills, hallows]

/-- The filter of a service with a profile blocks what the profile denies exactly when it is not
built from an allowlist: the allowlist replaces the profile and holds calls that every profile
denies. -/
theorem profile_blocks_iff (host : Host) (logger : Option ℤ) (svc : Service) (l : ServiceLaunch)
    (p : SeccompProfile) (f : Filter) (hp : p.IsFor svc) (hl : LaunchOf host logger svc l)
    (hf : childSeccomp auditArchX8664 true l = .ok f) :
    (∀ s ∈ p.denied, ¬ f.Allows auditArchX8664 s.number) ↔
      svc.syscallFilterMode ≠ "allowlist" := by
  have hconf := hl.confines
  have hleft : ∀ s : Syscall, f.Allows auditArchX8664 s.number ↔ LeftBy l s.number :=
    fun s => allows_number_iff hl hf s.number_lt
  simp only [hleft]
  constructor
  · intro hblocked hmode
    have hmount : Syscall.mount ∈ p.denied := by cases p <;> decide
    apply hblocked .mount hmount
    rw [leftBy_allowlist hconf hmode (by simp [hp.1])]
    exact List.mem_map_of_mem (by decide)
  · intro hmode s hs hkept
    rw [leftBy_profile hconf hmode hp] at hkept
    exact hkept (List.mem_map_of_mem hs)

/-- A service under the `default` profile, in the two filter modes. -/
def profiledService (mode : String) : Service :=
  { name := "web", command := "/bin/web", seccomp := .profile, seccompProfile := some "default"
    syscallFilterMode := mode }

theorem isFor_profiledService (mode : String) :
    SeccompProfile.default.IsFor (profiledService mode) := by
  have htext : ((some "default").map Text.trim).filter (· ≠ "") = some "default" := by
    decide +kernel
  exact ⟨rfl, "default", htext, by decide +kernel⟩

theorem exists_filter (svc : Service)
    (h : ((startLaunch bareHost none svc).toOption.bind fun l =>
      (childSeccomp auditArchX8664 true l).toOption).isSome) :
    ∃ l f, startLaunch bareHost none svc = .ok l ∧ childSeccomp auditArchX8664 true l = .ok f := by
  cases hl : startLaunch bareHost none svc with
  | error e =>
    rw [hl] at h
    cases h
  | ok l =>
    cases hf : childSeccomp auditArchX8664 true l with
    | error e =>
      simp only [hl, Except.toOption, Option.bind_some, hf] at h
      cases h
    | ok f => exact ⟨l, f, rfl, hf⟩

theorem profile_blocks_in_denylist_mode :
    ∃ l f, startLaunch bareHost none (profiledService "denylist") = .ok l ∧
      childSeccomp auditArchX8664 true l = .ok f ∧
      ∀ s ∈ SeccompProfile.default.denied, ¬ f.Allows auditArchX8664 s.number := by
  obtain ⟨l, f, hl, hf⟩ := exists_filter (profiledService "denylist") (by decide +kernel)
  have hiff := profile_blocks_iff bareHost none (profiledService "denylist") l .default f
    (isFor_profiledService _) (.inl hl) hf
  exact ⟨l, f, hl, hf, hiff.2 (by decide)⟩

/-- In allowlist mode a service under the `default` profile may mount and reboot. -/
theorem allowlist_lifts_profile :
    ∃ l f, startLaunch bareHost none (profiledService "allowlist") = .ok l ∧
      childSeccomp auditArchX8664 true l = .ok f ∧
      SeccompProfile.default.IsFor (profiledService "allowlist") ∧
      ∀ s ∈ [Syscall.mount, Syscall.reboot], s ∈ SeccompProfile.default.denied ∧
        f.Allows auditArchX8664 s.number := by
  obtain ⟨l, f, hl, hf⟩ := exists_filter (profiledService "allowlist") (by decide +kernel)
  have hconf := LaunchOf.confines (.inl hl)
  refine ⟨l, f, hl, hf, isFor_profiledService _, fun s hs => ?_⟩
  have hmem : s ∈ SeccompProfile.default.denied ∧ s ∈ baseAllowlist := by
    revert s
    decide
  refine ⟨hmem.1, (allows_number_iff (.inl hl) hf s.number_lt).2 ?_⟩
  rw [leftBy_allowlist hconf rfl nofun]
  exact List.mem_map_of_mem hmem.2

end Quantra.Process
