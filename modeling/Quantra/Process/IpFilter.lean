import Quantra.Lib.Stepper
import Quantra.Process.IpRange
import Mathlib.Data.Int.Notation
import Mathlib.Logic.Function.Basic

/-! `build_bpf_ip_filter`: the program that a service's egress packets run through. The machine
reads each instruction as the comments of the source state it, on 32-bit registers. -/
namespace Quantra.Process
open Stepper

/-- `struct BpfInsn`; `imm` is an `i32`, of which the bits count. -/
structure BpfInsn where
  code : UInt8
  regs : UInt8
  off : Int16
  imm : UInt32
  deriving DecidableEq, Repr

namespace BpfInsn

/-- `EBPF_LD | EBPF_W | EBPF_ABS`. -/
def ldAbsCode : UInt8 := 0x20

/-- `EBPF_ALU | EBPF_AND | EBPF_K_IMM`. -/
def andCode : UInt8 := 0x54

/-- `EBPF_JMP | EBPF_JEQ | EBPF_K_IMM`. -/
def jeqCode : UInt8 := 0x15

/-- `BPF_JMP | BPF_K`. -/
def jaCode : UInt8 := 0x05

/-- `EBPF_RET | EBPF_K_IMM`. -/
def retCode : UInt8 := 0x06

def ldAbs (dst : UInt8) (off : UInt32) : BpfInsn := ⟨ldAbsCode, dst, 0, off⟩

def andImm (dst : UInt8) (val : UInt32) : BpfInsn := ⟨andCode, dst, 0, val⟩

def jeqImm (dst : UInt8) (val : UInt32) (off : Int16) : BpfInsn := ⟨jeqCode, dst, off, val⟩

def ja (off : Int16) : BpfInsn := ⟨jaCode, 0, off, 0⟩

def retImm (val : UInt32) : BpfInsn := ⟨retCode, 0, 0, val⟩

end BpfInsn

open BpfInsn

def cgroupBpfDrop : UInt32 := 0

def cgroupBpfPass : UInt32 := 1

def skbRemoteIp4Offset : UInt32 := 40

/-- A range of the deny list; a match jumps over the jump that skips the return. -/
def denyInsns (r : IpRange) : List BpfInsn :=
  [andImm 1 r.mask, jeqImm 1 r.addr 1, ja 1, retImm cgroupBpfDrop]

/-- The loop over the denied ranges, and whether a range without a mask has ended the program. -/
def denyLoop : List IpRange → List BpfInsn × Bool
  | [] => ([], false)
  | r :: rest =>
    if r.mask = 0 then ([retImm cgroupBpfDrop], true)
    else (denyInsns r ++ (denyLoop rest).1, (denyLoop rest).2)

/-- The loop over the allowed ranges, and whether a range without a mask has been found. -/
def allowLoop (jmpToPass : Int16) : List IpRange → List BpfInsn × Bool
  | [] => ([], false)
  | r :: rest =>
    if r.mask = 0 then ([], true)
    else
      ([andImm 1 r.mask, jeqImm 1 r.addr jmpToPass] ++ (allowLoop jmpToPass rest).1,
        (allowLoop jmpToPass rest).2)

/-- `(allow.len() as i16) * 3`: the cast truncates and a release build wraps. -/
def jmpToPass (allow : List IpRange) : Int16 := Int16.ofNat allow.length * 3

def allowBlock (allow : List IpRange) : List BpfInsn :=
  if allow.isEmpty then []
  else
    let (insns, foundPass) := allowLoop (jmpToPass allow) (ipv4Ranges allow)
    insns ++ if foundPass then [] else [retImm cgroupBpfDrop]

def buildBpfIpFilter (deny allow : List IpRange) : List BpfInsn :=
  let (insns, ended) := denyLoop (ipv4Ranges deny)
  ldAbs 0 skbRemoteIp4Offset :: insns ++
    if ended then [] else allowBlock allow ++ [retImm cgroupBpfPass]

/-! The machine. -/

structure BpfState where
  pc : ℕ
  regs : UInt8 → UInt32

/-- A jump counts from the next instruction. -/
def BpfState.jump (s : BpfState) (off : Int16) : Next BpfState UInt32 :=
  let target : ℤ := s.pc + 1 + off.toInt
  if 0 ≤ target then .step { s with pc := target.toNat } else .fault

/-- One step on a packet with destination `ip`. Leaving the program is a fault. -/
def bpfNext (prog : List BpfInsn) (ip : UInt32) (s : BpfState) : Next BpfState UInt32 :=
  match prog[s.pc]? with
  | none => .fault
  | some i =>
    if i.code = ldAbsCode then .step ⟨s.pc + 1, Function.update s.regs i.regs ip⟩
    else if i.code = andCode then
      .step ⟨s.pc + 1, Function.update s.regs i.regs (s.regs 0 &&& i.imm)⟩
    else if i.code = jeqCode then s.jump (if s.regs i.regs = i.imm then i.off else 0)
    else if i.code = jaCode then s.jump i.off
    else if i.code = retCode then .done i.imm
    else .fault

/-- The program never leaves its instructions on the packet, and returns `v`. -/
def Filters (prog : List BpfInsn) (ip v : UInt32) : Prop :=
  Returns (bpfNext prog ip) ⟨0, fun _ => 0⟩ v

/-- The program of the two lists enforces their policy on the packet. -/
def IpFilterLaw (deny allow : List IpRange) (ip : UInt32) : Prop :=
  Filters (buildBpfIpFilter deny allow) ip
    (if passes deny allow ip then cgroupBpfPass else cgroupBpfDrop)

/-- The destination is not denied, and one of the allowed ranges before the first without a mask
contains it: the program jumps. -/
def TakesJump (deny allow : List IpRange) (ip : UInt32) : Prop :=
  deny.any (·.containsIpv4 ip) = false ∧
    ((ipv4Ranges allow).takeWhile (·.mask ≠ 0)).any (·.containsIpv4 ip)

/-- The registers after `r1 = r0 & mask`. -/
private def masked (regs : UInt8 → UInt32) (m : UInt32) : UInt8 → UInt32 :=
  Function.update regs 1 (regs 0 &&& m)

private theorem masked_zero (regs : UInt8 → UInt32) (m : UInt32) : masked regs m 0 = regs 0 :=
  Function.update_of_ne (by decide) _ _

private theorem masked_one (regs : UInt8 → UInt32) (m : UInt32) : masked regs m 1 = regs 0 &&& m :=
  Function.update_self _ _ _

section Run
variable {prog rest : List BpfInsn} {ip v k : UInt32} {dst : UInt8} {off : Int16} {pc : ℕ}
  {regs : UInt8 → UInt32} {i : BpfInsn}

theorem fetch (h : prog.drop pc = i :: rest) : prog[pc]? = some i := by
  have hhead : (prog.drop pc)[0]? = prog[pc + 0]? := List.getElem?_drop
  rw [h] at hhead
  exact hhead.symm

theorem drop_add (insns : List BpfInsn) (h : prog.drop pc = insns ++ rest) :
    prog.drop (pc + insns.length) = rest := by
  rw [← List.drop_drop, h, List.drop_left]

theorem returns_ldAbs (h : prog.drop pc = ldAbs dst k :: rest) :
    Returns (bpfNext prog ip) ⟨pc, regs⟩ v ↔
      Returns (bpfNext prog ip) ⟨pc + 1, Function.update regs dst ip⟩ v := by
  refine returns_of_step ?_
  unfold bpfNext
  rw [fetch h]
  rfl

theorem returns_mask (h : prog.drop pc = andImm 1 k :: rest) :
    Returns (bpfNext prog ip) ⟨pc, regs⟩ v ↔
      Returns (bpfNext prog ip) ⟨pc + 1, masked regs k⟩ v := by
  refine returns_of_step ?_
  unfold bpfNext
  rw [fetch h]
  rfl

theorem returns_retImm (h : prog.drop pc = retImm k :: rest) :
    Returns (bpfNext prog ip) ⟨pc, regs⟩ v ↔ v = k := by
  refine returns_of_done ?_
  unfold bpfNext
  rw [fetch h]
  rfl

theorem jump_eq {t : ℕ} (h : (pc : ℤ) + 1 + off.toInt = t) :
    BpfState.jump ⟨pc, regs⟩ off = .step ⟨t, regs⟩ := by
  unfold BpfState.jump
  simp only [h]
  rfl

theorem returns_ja (h : prog.drop pc = ja 1 :: rest) :
    Returns (bpfNext prog ip) ⟨pc, regs⟩ v ↔ Returns (bpfNext prog ip) ⟨pc + 2, regs⟩ v := by
  refine returns_of_step ?_
  unfold bpfNext
  rw [fetch h]
  show BpfState.jump ⟨pc, regs⟩ 1 = _
  refine jump_eq ?_
  have hone : (1 : Int16).toInt = 1 := by decide
  rw [hone]
  omega

theorem returns_jeqImm_of_ne (h : prog.drop pc = jeqImm dst k off :: rest) (hne : regs dst ≠ k) :
    Returns (bpfNext prog ip) ⟨pc, regs⟩ v ↔ Returns (bpfNext prog ip) ⟨pc + 1, regs⟩ v := by
  refine returns_of_step ?_
  unfold bpfNext
  rw [fetch h]
  show BpfState.jump ⟨pc, regs⟩ (if regs dst = k then off else 0) = _
  rw [if_neg hne]
  refine jump_eq ?_
  have hzero : (0 : Int16).toInt = 0 := by decide
  rw [hzero]
  omega

theorem returns_jeqImm_of_eq {t : ℕ} (h : prog.drop pc = jeqImm dst k off :: rest)
    (heq : regs dst = k) (ht : (pc : ℤ) + 1 + off.toInt = t) :
    Returns (bpfNext prog ip) ⟨pc, regs⟩ v ↔ Returns (bpfNext prog ip) ⟨t, regs⟩ v := by
  refine returns_of_step ?_
  unfold bpfNext
  rw [fetch h]
  show BpfState.jump ⟨pc, regs⟩ (if regs dst = k then off else 0) = _
  rw [if_pos heq]
  exact jump_eq ht

theorem not_returns_of_length_le (h : prog.length ≤ pc) :
    ¬Returns (bpfNext prog ip) ⟨pc, regs⟩ v := by
  refine not_returns_of_fault ?_
  unfold bpfNext
  rw [List.getElem?_eq_none h]

end Run

/-- From `pc` on, with the destination still in the first register, the program returns `v` just in
case. -/
def Yields (prog : List BpfInsn) (ip v : UInt32) (pc : ℕ) (P : Prop) : Prop :=
  ∀ regs, regs 0 = ip → (Returns (bpfNext prog ip) ⟨pc, regs⟩ v ↔ P)

section Blocks
variable {prog rest : List BpfInsn} {ip v : UInt32} {off : Int16} {pc : ℕ} {P : Prop} {r : IpRange}
  {rs deny allow : List IpRange}

theorem yields_retImm {k : UInt32} (h : prog.drop pc = retImm k :: rest) :
    Yields prog ip v pc (v = k) :=
  fun _ _ => returns_retImm h

theorem yields_denyInsns (hv4 : r.isV6 = false) (hmask : r.mask ≠ 0)
    (h : prog.drop pc = denyInsns r ++ rest)
    (hrest : r.containsIpv4 ip = false → Yields prog ip v (pc + 4) P) :
    Yields prog ip v pc (if r.containsIpv4 ip then v = cgroupBpfDrop else P) := by
  intro regs hip
  have hjeq : prog.drop (pc + 1) = jeqImm 1 r.addr 1 :: ja 1 :: retImm cgroupBpfDrop :: rest :=
    drop_add [andImm 1 r.mask] h
  have hja : prog.drop (pc + 2) = ja 1 :: retImm cgroupBpfDrop :: rest :=
    drop_add [andImm 1 r.mask, jeqImm 1 r.addr 1] h
  have hret : prog.drop (pc + 3) = retImm cgroupBpfDrop :: rest :=
    drop_add [andImm 1 r.mask, jeqImm 1 r.addr 1, ja 1] h
  have hreg : masked regs r.mask 1 = ip &&& r.mask := by rw [masked_one, hip]
  rw [returns_mask h]
  by_cases hin : r.containsIpv4 ip
  · rw [if_pos hin]
    have heq := (containsIpv4_iff hv4 hmask).1 hin
    have hone : (1 : Int16).toInt = 1 := by decide
    rw [returns_jeqImm_of_eq (t := pc + 3) hjeq (hreg.trans heq) (by rw [hone]; omega)]
    exact returns_retImm hret
  · rw [if_neg hin]
    have hne := mt (containsIpv4_iff hv4 hmask).2 hin
    rw [returns_jeqImm_of_ne hjeq (fun he => hne (hreg.symm.trans he)), returns_ja hja]
    exact hrest (Bool.eq_false_iff.2 hin) _ ((masked_zero _ _).trans hip)

/-- Through the denied ranges. What follows is reached only by a packet that none contains. -/
theorem yields_denyLoop (hv4 : ∀ r ∈ rs, r.isV6 = false)
    (h : prog.drop pc = (denyLoop rs).1 ++ rest)
    (hrest : rs.any (·.containsIpv4 ip) = false →
      Yields prog ip v (pc + (denyLoop rs).1.length) P) :
    Yields prog ip v pc (if rs.any (·.containsIpv4 ip) then v = cgroupBpfDrop else P) := by
  induction rs generalizing pc with
  | nil => exact hrest rfl
  | cons r rs ih =>
    have hr := hv4 r List.mem_cons_self
    unfold denyLoop at h hrest
    rw [List.any_cons] at hrest ⊢
    by_cases hmask : r.mask = 0
    · rw [if_pos hmask] at h
      rw [containsIpv4_of_mask_zero hr hmask, Bool.true_or, if_pos rfl]
      exact yields_retImm h
    · rw [if_neg hmask, List.append_assoc] at h
      rw [if_neg hmask, List.length_append, ← Nat.add_assoc] at hrest
      have hblock : ∀ P, (r.containsIpv4 ip = false → Yields prog ip v (pc + 4) P) →
          Yields prog ip v pc (if r.containsIpv4 ip then v = cgroupBpfDrop else P) :=
        fun P => yields_denyInsns hr hmask h
      cases hin : r.containsIpv4 ip with
      | true =>
        have hdrop := hblock True (fun hout => by cases hin.symm.trans hout)
        rwa [hin, if_pos rfl] at hdrop
      | false =>
        rw [hin, Bool.false_or] at hrest
        have hlater := ih (fun r hr => hv4 r (List.mem_cons_of_mem _ hr)) (drop_add _ h) hrest
        have hnext := hblock _ (fun _ => hlater)
        rwa [hin, if_neg Bool.false_ne_true] at hnext

/-- Only a range that contains every destination ends the program. -/
theorem denyLoop_ended (hv4 : ∀ r ∈ rs, r.isV6 = false)
    (h : rs.any (·.containsIpv4 ip) = false) : (denyLoop rs).2 = false := by
  induction rs with
  | nil => rfl
  | cons r rs ih =>
    rw [List.any_cons, Bool.or_eq_false_iff] at h
    have hmask : r.mask ≠ 0 := by
      intro hzero
      rw [containsIpv4_of_mask_zero (hv4 r List.mem_cons_self) hzero] at h
      cases h.1
    unfold denyLoop
    rw [if_neg hmask]
    exact ih (fun r hr => hv4 r (List.mem_cons_of_mem _ hr)) h.2

theorem yields_allowLoop (hv4 : ∀ r ∈ rs, r.isV6 = false)
    (h : prog.drop pc = (allowLoop off rs).1 ++ rest)
    (hleave : (rs.takeWhile (·.mask ≠ 0)).any (·.containsIpv4 ip) →
      (prog.length : ℤ) ≤ pc + 2 + off.toInt)
    (hrest : Yields prog ip v (pc + (allowLoop off rs).1.length) P) :
    Yields prog ip v pc
      (if (rs.takeWhile (·.mask ≠ 0)).any (·.containsIpv4 ip) then False else P) := by
  induction rs generalizing pc with
  | nil => exact hrest
  | cons r rs ih =>
    have hr := hv4 r List.mem_cons_self
    unfold allowLoop at h hrest
    by_cases hmask : r.mask = 0
    · rw [if_pos hmask] at h hrest
      rw [List.takeWhile_cons_of_neg (by simpa using hmask)]
      exact hrest
    · rw [if_neg hmask, List.append_assoc] at h
      rw [if_neg hmask, List.length_append, ← Nat.add_assoc] at hrest
      rw [List.takeWhile_cons_of_pos (by simpa using hmask)] at hleave ⊢
      rw [List.any_cons] at hleave ⊢
      intro regs hip
      have hjeq : prog.drop (pc + 1) =
          jeqImm 1 r.addr off :: ((allowLoop off rs).1 ++ rest) :=
        drop_add [andImm 1 r.mask] h
      have hreg : masked regs r.mask 1 = ip &&& r.mask := by rw [masked_one, hip]
      rw [returns_mask h]
      cases hin : r.containsIpv4 ip with
      | true =>
        rw [Bool.true_or, if_pos rfl, iff_false]
        have hout := hleave (by rw [hin, Bool.true_or])
        have heq := (containsIpv4_iff hr hmask).1 hin
        obtain ⟨t, ht⟩ : ∃ t : ℕ, ((pc + 1 : ℕ) : ℤ) + 1 + off.toInt = t :=
          ⟨(pc + 2 + off.toInt).toNat, by omega⟩
        rw [returns_jeqImm_of_eq hjeq (hreg.trans heq) ht]
        exact not_returns_of_length_le (by omega)
      | false =>
        rw [Bool.false_or]
        have hne : ip &&& r.mask ≠ r.addr := by
          intro he
          rw [(containsIpv4_iff hr hmask).2 he] at hin
          cases hin
        rw [returns_jeqImm_of_ne hjeq (fun he => hne (hreg.symm.trans he))]
        refine ih (fun r hr => hv4 r (List.mem_cons_of_mem _ hr)) (drop_add _ h) (fun hlater => ?_)
          hrest _ ((masked_zero _ _).trans hip)
        have hout := hleave (by rw [hlater, Bool.or_true])
        push_cast
        omega

end Blocks

section Program
variable {deny allow rs : List IpRange} {off : Int16} {ip v : UInt32}

theorem length_allowLoop_le (off : Int16) (rs : List IpRange) :
    (allowLoop off rs).1.length ≤ 2 * rs.length := by
  induction rs with
  | nil => exact Nat.le_refl 0
  | cons r rs ih =>
    unfold allowLoop
    by_cases hmask : r.mask = 0
    · rw [if_pos hmask]
      exact Nat.zero_le _
    · rw [if_neg hmask, List.length_append, List.length_cons]
      simp only [List.length_cons, List.length_nil]
      omega

/-- A range without a mask contains every destination. -/
theorem any_containsIpv4_eq (hv4 : ∀ r ∈ rs, r.isV6 = false)
    (h : (rs.takeWhile (·.mask ≠ 0)).any (·.containsIpv4 ip) = false) :
    rs.any (·.containsIpv4 ip) = (allowLoop off rs).2 := by
  induction rs with
  | nil => rfl
  | cons r rs ih =>
    unfold allowLoop
    rw [List.any_cons]
    by_cases hmask : r.mask = 0
    · rw [if_pos hmask, containsIpv4_of_mask_zero (hv4 r List.mem_cons_self) hmask, Bool.true_or]
    · rw [List.takeWhile_cons_of_pos (by simpa using hmask), List.any_cons,
        Bool.or_eq_false_iff] at h
      rw [if_neg hmask, h.1, Bool.false_or]
      exact ih (fun r hr => hv4 r (List.mem_cons_of_mem _ hr)) h.2

theorem toInt_jmpToPass (h : 3 * allow.length < 2 ^ 15) :
    (jmpToPass allow).toInt = 3 * allow.length := by
  have hlength : (Int16.ofNat allow.length).toInt = allow.length :=
    Int16.toInt_ofNat_of_lt (by omega)
  have hthree : (3 : Int16).toInt = 3 := by decide
  unfold jmpToPass
  rw [Int16.toInt_mul, hlength, hthree, Int.bmod_eq_of_le (by omega) (by omega)]
  exact Int.mul_comm _ _

theorem isV6_ipv4Ranges (ranges : List IpRange) : ∀ r ∈ ipv4Ranges ranges, r.isV6 = false :=
  fun _ hr => isV6_of_mem_ipv4Ranges hr

theorem yields_foundPass {prog : List BpfInsn} {pc : ℕ} {foundPass : Bool}
    (h : prog.drop pc =
      (if foundPass then [] else [retImm cgroupBpfDrop]) ++ [retImm cgroupBpfPass]) :
    Yields prog ip v pc (v = if foundPass then cgroupBpfPass else cgroupBpfDrop) := by
  cases foundPass with
  | true => exact yields_retImm h
  | false => exact yields_retImm h

/-- The block for the allowed ranges and the return after it. The jump is to leave the program when
a range matches. -/
theorem yields_allowBlock {prog : List BpfInsn} {pc : ℕ}
    (h : prog.drop pc = allowBlock allow ++ [retImm cgroupBpfPass])
    (hleave : ((ipv4Ranges allow).takeWhile (·.mask ≠ 0)).any (·.containsIpv4 ip) →
      (prog.length : ℤ) ≤ pc + 2 + (jmpToPass allow).toInt) :
    Yields prog ip v pc
      (if ((ipv4Ranges allow).takeWhile (·.mask ≠ 0)).any (·.containsIpv4 ip) then False
        else v = if allow.isEmpty || allow.any (·.containsIpv4 ip) then cgroupBpfPass
          else cgroupBpfDrop) := by
  cases hempty : allow.isEmpty with
  | true =>
    rw [List.isEmpty_iff.1 hempty] at h ⊢
    exact yields_retImm h
  | false =>
    unfold allowBlock at h
    rw [hempty, if_neg Bool.false_ne_true, List.append_assoc] at h
    have hloop := yields_allowLoop (isV6_ipv4Ranges allow) h hleave
      (yields_foundPass (v := v) (drop_add _ h))
    cases hmatch : ((ipv4Ranges allow).takeWhile (·.mask ≠ 0)).any (·.containsIpv4 ip) with
    | true => rwa [hmatch] at hloop
    | false =>
      have hfound : (ipv4Ranges allow).any (·.containsIpv4 ip) =
          (allowLoop (jmpToPass allow) (ipv4Ranges allow)).2 :=
        any_containsIpv4_eq (isV6_ipv4Ranges allow) hmatch
      rw [any_ipv4Ranges] at hfound
      rw [Bool.false_or, hfound]
      rwa [hmatch] at hloop

theorem length_allowBlock_le (allow : List IpRange) :
    (allowBlock allow).length ≤ 2 * allow.length + 1 := by
  unfold allowBlock
  cases hempty : allow.isEmpty with
  | true => exact Nat.zero_le _
  | false =>
    have hloop := length_allowLoop_le (jmpToPass allow) (ipv4Ranges allow)
    have hranges : (ipv4Ranges allow).length ≤ allow.length := List.length_filter_le _ _
    have htail : (if (allowLoop (jmpToPass allow) (ipv4Ranges allow)).2 then []
        else [retImm cgroupBpfDrop]).length ≤ 1 := by
      split
      · exact Nat.zero_le _
      · exact Nat.le_refl _
    rw [if_neg Bool.false_ne_true, List.length_append]
    omega

/-- What the program returns on a packet, if a jump of its leads past its end. -/
theorem filters_iff (hlength : TakesJump deny allow ip → 3 * allow.length < 2 ^ 15) :
    Filters (buildBpfIpFilter deny allow) ip v ↔
      ¬TakesJump deny allow ip ∧
        v = if passes deny allow ip then cgroupBpfPass else cgroupBpfDrop := by
  have hload : (buildBpfIpFilter deny allow).drop 0 = ldAbs 0 skbRemoteIp4Offset ::
      ((denyLoop (ipv4Ranges deny)).1 ++ if (denyLoop (ipv4Ranges deny)).2 then []
        else allowBlock allow ++ [retImm cgroupBpfPass]) := rfl
  have hdeny := drop_add [ldAbs 0 skbRemoteIp4Offset] hload
  have hprogram : Yields (buildBpfIpFilter deny allow) ip v 1
      (if (ipv4Ranges deny).any (·.containsIpv4 ip) then v = cgroupBpfDrop
        else if ((ipv4Ranges allow).takeWhile (·.mask ≠ 0)).any (·.containsIpv4 ip) then False
        else v = if allow.isEmpty || allow.any (·.containsIpv4 ip) then cgroupBpfPass
          else cgroupBpfDrop) := by
    refine yields_denyLoop (isV6_ipv4Ranges deny) hdeny fun hnone => ?_
    have hallow := drop_add _ hdeny
    rw [denyLoop_ended (isV6_ipv4Ranges deny) hnone] at hallow
    refine yields_allowBlock hallow (fun hmatch => ?_)
    rw [any_ipv4Ranges] at hnone
    rw [toInt_jmpToPass (hlength ⟨hnone, hmatch⟩)]
    have hblock := length_allowBlock_le allow
    have hend := congrArg List.length hallow
    rw [List.length_drop] at hend
    simp only [Bool.false_eq_true, if_false, List.length_append, List.length_cons,
      List.length_nil] at hend
    omega
  refine (returns_ldAbs hload).trans ((hprogram _ (Function.update_self _ _ _)).trans ?_)
  rw [any_ipv4Ranges]
  unfold TakesJump passes
  cases deny.any (·.containsIpv4 ip) with
  | true => simp
  | false =>
    cases ((ipv4Ranges allow).takeWhile (·.mask ≠ 0)).any (·.containsIpv4 ip) with
    | true => simp
    | false => simp

example : Filters (buildBpfIpFilter [.ofCidr 0x0A000000 8] []) 0x0A000001 cgroupBpfDrop :=
  returns_of_run (show run _ 5 _ = _ from rfl)

/-- The program enforces the policy on the packets for which it does not jump, and on no others as
long as the jump fits its 16 bits. -/
theorem ip_filter_iff :
    (¬TakesJump deny allow ip → IpFilterLaw deny allow ip) ∧
      (3 * allow.length < 2 ^ 15 → IpFilterLaw deny allow ip → ¬TakesJump deny allow ip) := by
  constructor
  · intro hjump
    exact (filters_iff (fun h => absurd h hjump)).2 ⟨hjump, rfl⟩
  · intro hlength hlaw
    exact ((filters_iff (fun _ => hlength)).1 hlaw).1

theorem ip_filter_denied : IpFilterLaw [.ofCidr 0x0A000000 8] [] 0x0A000001 :=
  ip_filter_iff.1 (fun h => absurd h.2 Bool.false_ne_true)

/-- With 10.0.0.0/8 as the only range, and allowed, the packet to 10.0.0.1 jumps three instructions
on from the third of five. -/
theorem ip_filter_jumps_out :
    ¬IpFilterLaw [] [.ofCidr 0x0A000000 8] 0x0A000001 := by
  have hjump : TakesJump [] [.ofCidr 0x0A000000 8] 0x0A000001 := by
    constructor <;> decide
  intro hlaw
  exact ((filters_iff (fun _ => by decide)).1 hlaw).1 hjump

end Program

end Quantra.Process
