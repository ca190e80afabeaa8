import Mathlib.Data.List.Basic
import Mathlib.Data.Nat.Notation

/-! Classic BPF: the instructions that seccomp filters use and the machine that runs them. -/
namespace Bpf

/-- `struct sock_filter`. -/
structure Insn where
  code : UInt16
  jt : UInt8
  jf : UInt8
  k : UInt32
  deriving DecidableEq, Repr

/-- `BPF_LD | BPF_W | BPF_ABS`. -/
def ldWordAbs : UInt16 := 0x20

/-- `BPF_JMP | BPF_JEQ | BPF_K`. -/
def jmpJeqK : UInt16 := 0x15

/-- `BPF_RET | BPF_K`. -/
def retK : UInt16 := 0x06

/-- Run a program on input words with an accumulator. Jumps count from the next instruction.
Falling off the end, a load outside the input and any other opcode give no verdict. -/
def exec (load : UInt32 → Option UInt32) : ℕ → List Insn → UInt32 → Option UInt32
  | 0, _, _ => none
  | _, [], _ => none
  | fuel + 1, i :: rest, a =>
    if i.code = ldWordAbs then (load i.k).bind (exec load fuel rest)
    else if i.code = jmpJeqK then
      exec load fuel (rest.drop (if a = i.k then i.jt else i.jf).toNat) a
    else if i.code = retK then some i.k
    else none

/-- Jumps only go forward, so a program takes at most one step for each instruction. -/
def run (load : UInt32 → Option UInt32) (prog : List Insn) : Option UInt32 :=
  exec load prog.length prog 0

/-- Both targets of every conditional jump are instructions of the program. -/
def JumpsInside (prog : List Insn) : Prop :=
  ∀ (n : ℕ) (i : Insn), prog[n]? = some i → i.code = jmpJeqK →
    n + 1 + i.jt.toNat < prog.length ∧ n + 1 + i.jf.toNat < prog.length

variable {load : UInt32 → Option UInt32} {fuel : ℕ} {rest : List Insn} {a k : UInt32}
  {jt jf : UInt8}

@[simp]
theorem exec_ld : exec load (fuel + 1) (⟨ldWordAbs, jt, jf, k⟩ :: rest) a =
    (load k).bind (exec load fuel rest) := by
  simp [exec]

@[simp]
theorem exec_jeq : exec load (fuel + 1) (⟨jmpJeqK, jt, jf, k⟩ :: rest) a =
    exec load fuel (rest.drop (if a = k then jt else jf).toNat) a := by
  simp [exec, jmpJeqK, ldWordAbs]

@[simp]
theorem exec_ret : exec load (fuel + 1) (⟨retK, jt, jf, k⟩ :: rest) a = some k := by
  simp [exec, retK, jmpJeqK, ldWordAbs]

theorem jumpsInside_nil : JumpsInside [] := by
  intro n i hi
  simp at hi

theorem jumpsInside_cons {i : Insn} :
    JumpsInside (i :: rest) ↔
      (i.code = jmpJeqK → i.jt.toNat < rest.length ∧ i.jf.toNat < rest.length) ∧
        JumpsInside rest := by
  constructor
  · intro h
    constructor
    · intro hcode
      have hfirst := h 0 i rfl hcode
      simp only [List.length_cons] at hfirst
      omega
    · intro n j hj hcode
      have hnext := h (n + 1) j (by simpa using hj) hcode
      simp only [List.length_cons] at hnext
      omega
  · intro ⟨hfirst, hrest⟩ n j hj hcode
    simp only [List.length_cons]
    cases n with
    | zero =>
      have hij : i = j := by simpa using hj
      subst hij
      have hlt := hfirst hcode
      omega
    | succ n =>
      have hlt := hrest n j (by simpa using hj) hcode
      omega

/-- One comparison for each constant: return `hit` on equality, else go on behind it. -/
def chain (hit : UInt32) (ks : List UInt32) : List Insn :=
  ks.flatMap fun k => [⟨jmpJeqK, 0, 1, k⟩, ⟨retK, 0, 0, hit⟩]

variable {hit miss : UInt32} {ks : List UInt32}

theorem chain_cons :
    chain hit (k :: ks) = ⟨jmpJeqK, 0, 1, k⟩ :: ⟨retK, 0, 0, hit⟩ :: chain hit ks := rfl

theorem length_chain : (chain hit ks).length = 2 * ks.length := by
  induction ks with
  | nil => rfl
  | cons k ks ih =>
    rw [chain_cons]
    simp only [List.length_cons, ih]
    omega

/-- The chain tests membership: each comparison either returns or skips its own return. -/
theorem exec_chain (hfuel : 2 * ks.length + 1 ≤ fuel) :
    exec load fuel (chain hit ks ++ [⟨retK, 0, 0, miss⟩]) a =
      some (if a ∈ ks then hit else miss) := by
  induction ks generalizing fuel with
  | nil =>
    obtain ⟨fuel, rfl⟩ : ∃ n, fuel = n + 1 := ⟨fuel - 1, by simp at hfuel; omega⟩
    simp [chain]
  | cons k ks ih =>
    obtain ⟨fuel, rfl⟩ : ∃ n, fuel = n + 2 := ⟨fuel - 2, by simp at hfuel; omega⟩
    simp only [List.length_cons] at hfuel
    rw [chain_cons, List.cons_append, exec_jeq]
    by_cases hk : a = k
    · simp [hk]
    · have hskip : exec load (fuel + 1) (chain hit ks ++ [⟨retK, 0, 0, miss⟩]) a =
          some (if a ∈ ks then hit else miss) := ih (by omega)
      simpa [hk] using hskip

/-- A chain in front of an instruction jumps at most to that instruction. -/
theorem jumpsInside_chain (hrest : JumpsInside rest) (hne : 0 < rest.length) :
    JumpsInside (chain hit ks ++ rest) := by
  induction ks with
  | nil => exact hrest
  | cons k ks ih =>
    rw [chain_cons, List.cons_append, List.cons_append, jumpsInside_cons, jumpsInside_cons]
    refine ⟨fun _ => ?_, fun hcode => ?_, ih⟩
    · simp only [List.length_cons, List.length_append, UInt8.toNat_zero, UInt8.toNat_one]
      omega
    · simp [retK, jmpJeqK] at hcode

end Bpf
