import Quantra.Lib.Checked
import Quantra.Lib.Sha256

/-! `sha256` of `measured_boot.rs`. A step that would panic gives `none`, and so does the loop of the
padding without fuel. -/
namespace Quantra.Sha256
open Bytes Bits

/-- `u32::rotate_right`. -/
def rotateRight (x : UInt32) (n : ℕ) : UInt32 := ⟨x.toBitVec.rotateRight n⟩

def K : Vector UInt32 64 := #v[
  0x428a2f98, 0x71374491, 0xb5c0fbcf, 0xe9b5dba5, 0x3956c25b, 0x59f111f1, 0x923f82a4, 0xab1c5ed5,
  0xd807aa98, 0x12835b01, 0x243185be, 0x550c7dc3, 0x72be5d74, 0x80deb1fe, 0x9bdc06a7, 0xc19bf174,
  0xe49b69c1, 0xefbe4786, 0x0fc19dc6, 0x240ca1cc, 0x2de92c6f, 0x4a7484aa, 0x5cb0a9dc, 0x76f988da,
  0x983e5152, 0xa831c66d, 0xb00327c8, 0xbf597fc7, 0xc6e00bf3, 0xd5a79147, 0x06ca6351, 0x14292967,
  0x27b70a85, 0x2e1b2138, 0x4d2c6dfc, 0x53380d13, 0x650a7354, 0x766a0abb, 0x81c2c92e, 0x92722c85,
  0xa2bfe8a1, 0xa81a664b, 0xc24b8b70, 0xc76c51a3, 0xd192e819, 0xd6990624, 0xf40e3585, 0x106aa070,
  0x19a4c116, 0x1e376c08, 0x2748774c, 0x34b0bcb5, 0x391c0cb3, 0x4ed8aa4a, 0x5b9cca4f, 0x682e6ff3,
  0x748f82ee, 0x78a5636f, 0x84c87814, 0x8cc70208, 0x90befffa, 0xa4506ceb, 0xbef9a3f7, 0xc67178f2]

def initialHash : Vector UInt32 8 := #v[
  0x6a09e667, 0xbb67ae85, 0x3c6ef372, 0xa54ff53a, 0x510e527f, 0x9b05688c, 0x1f83d9ab, 0x5be0cd19]

/-- `while msg.len() % 64 != 56 { msg.push(0) }`. -/
def pushZeros : ℕ → List UInt8 → Option (List UInt8)
  | 0, _ => none
  | fuel + 1, msg => if msg.length % 64 ≠ 56 then pushZeros fuel (msg ++ [0]) else some msg

def paddedMsg (fuel : ℕ) (data : List UInt8) : Option (List UInt8) := do
  let bitLen ← Checked.mul (2 ^ 64) data.length 8
  let msg ← pushZeros fuel (data ++ [0x80])
  some (msg ++ toBeBytes64 (UInt64.ofNat bitLen))

/-- `u32::from_be_bytes` of the `i`-th four bytes. -/
def chunkWord (chunk : List UInt8) (i : ℕ) : Option UInt32 := do
  let b₀ ← chunk[i * 4]?
  let b₁ ← chunk[i * 4 + 1]?
  let b₂ ← chunk[i * 4 + 2]?
  let b₃ ← chunk[i * 4 + 3]?
  some (fromBeBytes b₀ b₁ b₂ b₃)

/-- `w[i] = x`. -/
def setWord (w : Vector UInt32 64) (i : ℕ) (x : UInt32) : Option (Vector UInt32 64) :=
  if h : i < 64 then some (w.set i x) else none

def loadWord (chunk : List UInt8) (w : Vector UInt32 64) (i : ℕ) : Option (Vector UInt32 64) := do
  let x ← chunkWord chunk i
  setWord w i x

def extendWord (w : Vector UInt32 64) (i : ℕ) : Option (Vector UInt32 64) := do
  let w15 ← w[i - 15]?
  let w2 ← w[i - 2]?
  let w16 ← w[i - 16]?
  let w7 ← w[i - 7]?
  let s0 := rotateRight w15 7 ^^^ rotateRight w15 18 ^^^ (w15 >>> 3)
  let s1 := rotateRight w2 17 ^^^ rotateRight w2 19 ^^^ (w2 >>> 10)
  setWord w i (w16 + s0 + w7 + s1)

def messageSchedule (chunk : List UInt8) : Option (Vector UInt32 64) := do
  let w ← (List.range' 0 16).foldlM (loadWord chunk) (Vector.replicate 64 0)
  (List.range' 16 48).foldlM extendWord w

structure Registers where
  a : UInt32
  b : UInt32
  c : UInt32
  d : UInt32
  e : UInt32
  f : UInt32
  g : UInt32
  hh : UInt32

def ofHash (h : Vector UInt32 8) : Registers where
  a := h[0]
  b := h[1]
  c := h[2]
  d := h[3]
  e := h[4]
  f := h[5]
  g := h[6]
  hh := h[7]

def round (w : Vector UInt32 64) (r : Registers) (i : ℕ) : Option Registers := do
  let k ← K[i]?
  let wi ← w[i]?
  let s1 := rotateRight r.e 6 ^^^ rotateRight r.e 11 ^^^ rotateRight r.e 25
  let ch := (r.e &&& r.f) ^^^ (~~~r.e &&& r.g)
  let t1 := r.hh + s1 + ch + k + wi
  let s0 := rotateRight r.a 2 ^^^ rotateRight r.a 13 ^^^ rotateRight r.a 22
  let maj := (r.a &&& r.b) ^^^ (r.a &&& r.c) ^^^ (r.b &&& r.c)
  let t2 := s0 + maj
  some
    { hh := r.g
      g := r.f
      f := r.e
      e := r.d + t1
      d := r.c
      c := r.b
      b := r.a
      a := t1 + t2 }

def addHash (h : Vector UInt32 8) (r : Registers) : Vector UInt32 8 := #v[
  h[0] + r.a, h[1] + r.b, h[2] + r.c, h[3] + r.d, h[4] + r.e, h[5] + r.f, h[6] + r.g, h[7] + r.hh]

def processChunk (h : Vector UInt32 8) (chunk : List UInt8) : Option (Vector UInt32 8) := do
  let w ← messageSchedule chunk
  let r ← (List.range' 0 64).foldlM (round w) (ofHash h)
  some (addHash h r)

/-- The words are copied into `out` one by one. -/
def digestBytes (h : Vector UInt32 8) : Option (List UInt8) :=
  h.toList.zipIdx.foldlM (fun out x => copyFromSlice out (x.2 * 4) (x.2 * 4 + 4) (toBeBytes x.1))
    (List.replicate 32 0)

def sha256 (fuel : ℕ) (data : List UInt8) : Option (List UInt8) := do
  let msg ← paddedMsg fuel data
  let h ← (msg.toChunks 64).foldlM processChunk initialHash
  digestBytes h

/-! The padding. -/

theorem pushZeros_eq {z fuel : ℕ} {msg : List UInt8} (hz : z < 64) (hend : (msg.length + z) % 64 = 56)
    (hfuel : z < fuel) : pushZeros fuel msg = some (msg ++ List.replicate z 0) := by
  induction z generalizing fuel msg with
  | zero =>
    obtain ⟨fuel, rfl⟩ : ∃ f, fuel = f + 1 := ⟨fuel - 1, by omega⟩
    rw [pushZeros, if_neg (by omega), List.replicate_zero, List.append_nil]
  | succ z ih =>
    obtain ⟨fuel, rfl⟩ : ∃ f, fuel = f + 1 := ⟨fuel - 1, by omega⟩
    have hlen : (msg ++ [0]).length = msg.length + 1 := List.length_append
    have hmore : msg.length % 64 ≠ 56 := by omega
    rw [pushZeros, if_pos hmore, ih (by omega) (by omega) (by omega), List.append_assoc]
    rfl

/-- How many zeros the loop pushes. -/
def zeros (data : List UInt8) : ℕ := (119 - data.length % 64) % 64

/-- The message that the loop comes to. -/
def message (data : List UInt8) : List UInt8 :=
  data ++ [0x80] ++ List.replicate (zeros data) 0 ++ toBeBytes64 (UInt64.ofNat (data.length * 8))

section Padding
variable {data : List UInt8}

theorem length_message : (message data).length = 64 * ((data.length + 72) / 64) := by
  simp only [message, zeros, List.length_append, List.length_singleton, List.length_replicate,
    length_toBeBytes64]
  omega

theorem paddedMsg_eq {fuel : ℕ} (hlen : data.length < 2 ^ 61) (hfuel : 64 ≤ fuel) :
    paddedMsg fuel data = some (message data) := by
  have hbits : Checked.mul (2 ^ 64) data.length 8 = some (data.length * 8) :=
    Checked.mul_of_lt (by omega)
  have hzeros : zeros data < 64 := Nat.mod_lt _ (by omega)
  have hend : ((data ++ [0x80]).length + zeros data) % 64 = 56 := by
    rw [List.length_append, List.length_singleton, zeros]
    omega
  rw [paddedMsg, hbits, pushZeros_eq hzeros hend (by omega)]
  rfl

theorem padZeros_eq : Fips180.padZeros (8 * data.length) = 7 + 8 * zeros data := by
  refine (Fips180.isLeast_padZeros (8 * data.length)).unique ⟨?_, fun k hk => ?_⟩
  · show (8 * data.length + 1 + (7 + 8 * zeros data)) % 512 = 448
    rw [zeros]
    omega
  · have hk : (8 * data.length + 1 + k) % 512 = 448 := hk
    rw [zeros]
    omega

theorem ofBytes_message : ofBytes (message data) = Fips180.pad (ofBytes data) := by
  have hone : ofBytes [0x80] = [true] ++ List.replicate 7 false := rfl
  have hlength : ofBytes (toBeBytes64 (UInt64.ofNat (data.length * 8))) =
      toBits 64 (8 * data.length) := by
    rw [ofBytes_toBeBytes64, UInt64.toNat_ofNat', toBits_mod, Nat.mul_comm]
  rw [Fips180.pad, length_ofBytes, padZeros_eq, ← List.replicate_append_replicate, message]
  simp only [ofBytes_append, hone, ofBytes_replicate, hlength, List.append_assoc]

end Padding

/-! The message schedule. -/

@[simp]
theorem toBitVec_rotateRight {x : UInt32} {n : ℕ} (h : n < 32) :
    (rotateRight x n).toBitVec = Fips180.rotr n x.toBitVec := by
  show x.toBitVec.rotateRight n = _
  rw [BitVec.rotateRight_def, Nat.mod_eq_of_lt h, Fips180.rotr]

theorem toBitVec_shr3 (x : UInt32) : (x >>> 3).toBitVec = Fips180.shr 3 x.toBitVec := rfl

theorem toBitVec_shr10 (x : UInt32) : (x >>> 10).toBitVec = Fips180.shr 10 x.toBitVec := rfl

section Schedule
variable {chunk : List UInt8} {m : ℕ → Fips180.Word} {w : Vector UInt32 64} {i n : ℕ} {x : UInt32}

/-- The first `n` words are those of the schedule. -/
def Filled (m : ℕ → Fips180.Word) (n : ℕ) (w : Vector UInt32 64) : Prop :=
  ∀ t < n, ∃ x, w[t]? = some x ∧ x.toBitVec = Fips180.schedule m t

theorem Filled.setWord (h : Filled m i w) (hi : i < 64) (hx : x.toBitVec = Fips180.schedule m i) :
    ∃ w', setWord w i x = some w' ∧ Filled m (i + 1) w' := by
  refine ⟨w.set i x, dif_pos hi, fun t ht => ?_⟩
  rw [Vector.getElem?_set hi]
  by_cases hti : i = t
  · subst hti
    exact ⟨x, by rw [if_pos rfl], hx⟩
  · rw [if_neg hti]
    exact h t (by omega)

theorem chunkWord_eq (hlen : chunk.length = 64) (hi : i < 16) :
    ∃ x, chunkWord chunk i = some x ∧ x.toBitVec = Fips180.blockWord (ofBytes chunk) i := by
  have hbytes : (chunk.drop (i * 4)).take 4 =
      [chunk[i * 4], chunk[i * 4 + 1], chunk[i * 4 + 2], chunk[i * 4 + 3]] := by
    rw [List.drop_eq_getElem_cons (by omega), List.drop_eq_getElem_cons (by omega),
      List.drop_eq_getElem_cons (by omega), List.drop_eq_getElem_cons (by omega)]
    rfl
  have hbits : ((ofBytes chunk).drop (32 * i)).take 32 = ofBytes ((chunk.drop (i * 4)).take 4) := by
    have hi8 : 32 * i = 8 * (i * 4) := by omega
    have hfour : 4 ≤ (chunk.drop (i * 4)).length := by
      rw [List.length_drop]
      omega
    rw [hi8, drop_ofBytes (by omega)]
    exact take_ofBytes hfour
  refine ⟨fromBeBytes chunk[i * 4] chunk[i * 4 + 1] chunk[i * 4 + 2] chunk[i * 4 + 3], ?_, ?_⟩
  · rw [chunkWord, List.getElem?_eq_getElem (by omega), List.getElem?_eq_getElem (by omega),
      List.getElem?_eq_getElem (by omega), List.getElem?_eq_getElem (by omega)]
    rfl
  · rw [Fips180.blockWord, hbits, hbytes, ofBits_ofBytes]
    exact ((BitVec.ofNat_toNat 32 _).trans (BitVec.setWidth_eq _)).symm

theorem Filled.loadWord (hlen : chunk.length = 64)
    (h : Filled (Fips180.blockWord (ofBytes chunk)) i w) (hi : i < 16) :
    ∃ w', loadWord chunk w i = some w' ∧ Filled (Fips180.blockWord (ofBytes chunk)) (i + 1) w' := by
  obtain ⟨x, hx, hword⟩ := chunkWord_eq hlen hi
  obtain ⟨w', hset, hfilled⟩ := h.setWord (by omega) (hword.trans (Fips180.schedule_of_lt hi).symm)
  exact ⟨w', by rw [Sha256.loadWord, hx]; exact hset, hfilled⟩

theorem Filled.extendWord (h : Filled m i w) (hlo : 16 ≤ i) (hhi : i < 64) :
    ∃ w', extendWord w i = some w' ∧ Filled m (i + 1) w' := by
  obtain ⟨w15, h15, hw15⟩ := h (i - 15) (by omega)
  obtain ⟨w2, h2, hw2⟩ := h (i - 2) (by omega)
  obtain ⟨w16, h16, hw16⟩ := h (i - 16) (by omega)
  obtain ⟨w7, h7, hw7⟩ := h (i - 7) (by omega)
  have hword : (w16 + (rotateRight w15 7 ^^^ rotateRight w15 18 ^^^ (w15 >>> 3)) + w7 +
      (rotateRight w2 17 ^^^ rotateRight w2 19 ^^^ (w2 >>> 10))).toBitVec = Fips180.schedule m i := by
    rw [Fips180.schedule_of_le hlo, ← hw15, ← hw2, ← hw16, ← hw7, Fips180.sigma0, Fips180.sigma1]
    simp only [UInt32.toBitVec_add, UInt32.toBitVec_xor, toBitVec_shr3, toBitVec_shr10,
      toBitVec_rotateRight (by omega : 7 < 32), toBitVec_rotateRight (by omega : 18 < 32),
      toBitVec_rotateRight (by omega : 17 < 32), toBitVec_rotateRight (by omega : 19 < 32)]
    ac_rfl
  obtain ⟨w', hset, hfilled⟩ := h.setWord hhi hword
  refine ⟨w', ?_, hfilled⟩
  rw [Sha256.extendWord, h15, h2, h16, h7]
  exact hset

theorem messageSchedule_filled (hlen : chunk.length = 64) :
    ∃ w, messageSchedule chunk = some w ∧ Filled (Fips180.blockWord (ofBytes chunk)) 64 w := by
  have hnone : Filled (Fips180.blockWord (ofBytes chunk)) 0 (Vector.replicate 64 0) := by
    intro t ht
    omega
  have hload : ∃ w, (List.range' 0 16).foldlM (loadWord chunk) (Vector.replicate 64 0) = some w ∧
      Filled (Fips180.blockWord (ofBytes chunk)) 16 w :=
    Checked.exists_foldlM_range' hnone fun i w _ hi h => h.loadWord hlen (by omega)
  obtain ⟨w, hload, hw⟩ := hload
  have hextend : ∃ w', (List.range' 16 48).foldlM extendWord w = some w' ∧
      Filled (Fips180.blockWord (ofBytes chunk)) 64 w' :=
    Checked.exists_foldlM_range' hw fun i w hlo hi h => h.extendWord hlo (by omega)
  obtain ⟨w', hextend, hw'⟩ := hextend
  refine ⟨w', ?_, hw'⟩
  rw [messageSchedule, hload, Option.bind_eq_bind, Option.bind_some, hextend]

end Schedule

/-! The rounds. -/

/-- The constants of the code are the bits of the roots, each bounded by an integer part. -/
theorem K_bounds : ∀ i (hi : i < 64), ∃ c < 7,
    (c * 2 ^ 32 + K[i].toNat) ^ 3 ≤ Fips180.firstPrimes.getD i 0 * 2 ^ (32 * 3) ∧
      Fips180.firstPrimes.getD i 0 * 2 ^ (32 * 3) < (c * 2 ^ 32 + K[i].toNat + 1) ^ 3 := by
  decide +kernel

theorem K_eq {i : ℕ} (hi : i < 64) : ∃ k, K[i]? = some k ∧ k.toBitVec = Fips180.constant i := by
  obtain ⟨c, -, hlo, hhi⟩ := K_bounds i hi
  refine ⟨K[i], Vector.getElem?_eq_getElem hi, ?_⟩
  rw [Fips180.constant, Fips180.primes_eq]
  exact (Fips180.rootBits_eq hlo hhi).symm

def Registers.vars (r : Registers) : Fips180.Vars where
  a := r.a.toBitVec
  b := r.b.toBitVec
  c := r.c.toBitVec
  d := r.d.toBitVec
  e := r.e.toBitVec
  f := r.f.toBitVec
  g := r.g.toBitVec
  h := r.hh.toBitVec

section Rounds
variable {chunk : List UInt8} {m : ℕ → Fips180.Word} {w : Vector UInt32 64} {h : Vector UInt32 8}

theorem round_eq (hw : Filled m 64 w) (r : Registers) {i : ℕ} (hi : i < 64) :
    ∃ r', round w r i = some r' ∧
      r'.vars = Fips180.round (Fips180.constant i) (Fips180.schedule m i) r.vars := by
  obtain ⟨k, hk, hconstant⟩ := K_eq hi
  obtain ⟨wi, hwi, hschedule⟩ := hw i hi
  refine ⟨_, by rw [round, hk, hwi]; rfl, ?_⟩
  rw [← hconstant, ← hschedule]
  simp only [Registers.vars, Fips180.round, Fips180.bigSigma0, Fips180.bigSigma1, Fips180.ch,
    Fips180.maj, UInt32.toBitVec_add, UInt32.toBitVec_xor, UInt32.toBitVec_and, UInt32.toBitVec_not,
    toBitVec_rotateRight (by omega : 2 < 32), toBitVec_rotateRight (by omega : 13 < 32),
    toBitVec_rotateRight (by omega : 22 < 32), toBitVec_rotateRight (by omega : 6 < 32),
    toBitVec_rotateRight (by omega : 11 < 32), toBitVec_rotateRight (by omega : 25 < 32)]

theorem rounds_eq (hw : Filled (Fips180.blockWord (ofBytes chunk)) 64 w) (r : Registers) :
    ∃ r', (List.range' 0 64).foldlM (round w) r = some r' ∧
      r'.vars = Fips180.rounds (ofBytes chunk) r.vars := by
  rw [Fips180.rounds, List.range_eq_range']
  refine Checked.exists_foldlM (R := fun (r : Registers) v => r.vars = v) rfl fun i hi r v hr => ?_
  have hlt : i < 64 := by simpa using hi
  rw [← hr]
  exact round_eq hw r hlt

theorem addHash_vars (h : Vector UInt32 8) (r : Registers) :
    (ofHash (addHash h r)).vars = r.vars.add (ofHash h).vars := by
  simp [ofHash, addHash, Registers.vars, Fips180.Vars.add, BitVec.add_comm]

theorem processChunk_eq (hlen : chunk.length = 64) :
    ∃ h', processChunk h chunk = some h' ∧
      (ofHash h').vars = Fips180.compress (ofHash h).vars (ofBytes chunk) := by
  obtain ⟨w, hschedule, hw⟩ := messageSchedule_filled hlen
  obtain ⟨r, hrounds, hr⟩ := rounds_eq hw (ofHash h)
  refine ⟨addHash h r, ?_, ?_⟩
  · rw [processChunk, hschedule, Option.bind_eq_bind, Option.bind_some, hrounds, Option.bind_eq_bind,
      Option.bind_some]
  · rw [addHash_vars, hr, Fips180.compress]

theorem initialHash_bounds : ∀ i (hi : i < 8), ∃ c < 5,
    (c * 2 ^ 32 + initialHash[i].toNat) ^ 2 ≤ Fips180.firstPrimes.getD i 0 * 2 ^ (32 * 2) ∧
      Fips180.firstPrimes.getD i 0 * 2 ^ (32 * 2) <
        (c * 2 ^ 32 + initialHash[i].toNat + 1) ^ 2 := by
  decide +kernel

theorem initialHash_eq {i : ℕ} (hi : i < 8) :
    initialHash[i].toBitVec = Fips180.rootBits 2 (Fips180.primes.getD i 0) := by
  obtain ⟨c, -, hlo, hhi⟩ := initialHash_bounds i hi
  rw [Fips180.primes_eq]
  exact (Fips180.rootBits_eq hlo hhi).symm

theorem initialHash_vars : (ofHash initialHash).vars = Fips180.initial := by
  simp only [Fips180.initial, ← initialHash_eq (by omega : 0 < 8),
    ← initialHash_eq (by omega : 1 < 8), ← initialHash_eq (by omega : 2 < 8),
    ← initialHash_eq (by omega : 3 < 8), ← initialHash_eq (by omega : 4 < 8),
    ← initialHash_eq (by omega : 5 < 8), ← initialHash_eq (by omega : 6 < 8),
    ← initialHash_eq (by omega : 7 < 8)]
  rfl

theorem chunks_eq {msg : List UInt8} {n : ℕ} (hlen : msg.length = 64 * n) :
    ∃ h', (msg.toChunks 64).foldlM processChunk initialHash = some h' ∧
      (ofHash h').vars = ((ofBytes msg).toChunks 512).foldl Fips180.compress Fips180.initial := by
  rw [show (512 : ℕ) = 8 * (63 + 1) from rfl, toChunks_ofBytes hlen, List.foldl_map]
  refine Checked.exists_foldlM (R := fun h v => (ofHash h).vars = v) initialHash_vars
    fun chunk hchunk h v hv => ?_
  rw [← hv]
  exact processChunk_eq (length_of_mem_toChunks hlen hchunk)

end Rounds

/-! The digest. -/

theorem copyFromSlice_eq {done src : List UInt8} {k n : ℕ} (hdone : done.length = k * 4)
    (hsrc : src.length = 4) :
    copyFromSlice (done ++ List.replicate (4 * (n + 1)) 0) (k * 4) (k * 4 + 4) src =
      some (done ++ src ++ List.replicate (4 * n) 0) := by
  have hfour : List.replicate (4 * (n + 1)) (0 : UInt8) =
      List.replicate 4 0 ++ List.replicate (4 * n) 0 := by
    rw [List.replicate_append_replicate, Nat.mul_succ, Nat.add_comm]
  have hbound : k * 4 + 4 ≤ (done ++ List.replicate (4 * (n + 1)) (0 : UInt8)).length := by
    rw [List.length_append, hdone, List.length_replicate]
    omega
  have hdrop : (done ++ List.replicate (4 * (n + 1)) (0 : UInt8)).drop (k * 4 + 4) =
      List.replicate (4 * n) 0 := by
    rw [hfour, ← List.append_assoc]
    exact List.drop_left' (by rw [List.length_append, hdone, List.length_replicate])
  rw [copyFromSlice, if_pos ⟨by omega, hbound, by omega⟩, List.take_left' hdone, hdrop]

/-- The words that are left are copied behind what is done. -/
theorem copyWords_eq (words : List UInt32) {done : List UInt8} {k : ℕ} (hdone : done.length = k * 4) :
    (words.zipIdx k).foldlM (fun out x => copyFromSlice out (x.2 * 4) (x.2 * 4 + 4) (toBeBytes x.1))
      (done ++ List.replicate (4 * words.length) 0) = some (done ++ words.flatMap toBeBytes) := by
  induction words generalizing done k with
  | nil => simp
  | cons x words ih =>
    have hnext : (done ++ toBeBytes x).length = (k + 1) * 4 := by
      rw [List.length_append, hdone, length_toBeBytes, Nat.succ_mul]
    rw [List.zipIdx_cons, List.foldlM_cons, List.length_cons,
      copyFromSlice_eq hdone (length_toBeBytes x), Option.bind_eq_bind, Option.bind_some, ih hnext,
      List.flatMap_cons, List.append_assoc]

theorem toList_eq (h : Vector UInt32 8) :
    h.toList = [h[0], h[1], h[2], h[3], h[4], h[5], h[6], h[7]] := by
  refine List.ext_getElem Vector.length_toList fun i _ hi => ?_
  have hi : i < 8 := hi
  obtain rfl | rfl | rfl | rfl | rfl | rfl | rfl | rfl :
      i = 0 ∨ i = 1 ∨ i = 2 ∨ i = 3 ∨ i = 4 ∨ i = 5 ∨ i = 6 ∨ i = 7 := by omega
  all_goals rfl

theorem digestBytes_eq (h : Vector UInt32 8) :
    ∃ out, digestBytes h = some out ∧ ofBytes out = (ofHash h).vars.bits := by
  refine ⟨h.toList.flatMap toBeBytes, ?_, ?_⟩
  · have hcopy := @copyWords_eq h.toList [] 0 rfl
    rw [Vector.length_toList] at hcopy
    exact hcopy
  · rw [ofBytes_flatMap_toBeBytes, toList_eq]
    rfl

/-- `sha256` computes the digest of FIPS 180-4, and no step of it panics; the padding ends after 64
turns at most, with whole chunks. -/
theorem sha256_eq_fips180 (data : List UInt8) (hlen : data.length < 2 ^ 61) :
    ∃ msg out, (∀ fuel, 64 ≤ fuel → paddedMsg fuel data = some msg) ∧ msg.length % 64 = 0 ∧
      (∀ fuel, 64 ≤ fuel → sha256 fuel data = some out) ∧
      ofBytes out = Fips180.sha256 (ofBytes data) := by
  obtain ⟨h, hchunks, hh⟩ := chunks_eq (@length_message data)
  obtain ⟨out, hdigest, hout⟩ := digestBytes_eq h
  have hpadded : ∀ fuel, 64 ≤ fuel → paddedMsg fuel data = some (message data) := fun fuel hfuel =>
    paddedMsg_eq hlen hfuel
  refine ⟨message data, out, hpadded, ?_, fun fuel hfuel => ?_, ?_⟩
  · rw [length_message, Nat.mul_mod_right]
  · rw [sha256, hpadded fuel hfuel, Option.bind_eq_bind, Option.bind_some, hchunks,
      Option.bind_eq_bind, Option.bind_some, hdigest]
  · rw [hout, hh, ofBytes_message, Fips180.sha256]

/-- 56 bytes are the fewest whose length needs a chunk of its own. -/
theorem sha256_eq_fips180_two_chunks :
    (paddedMsg 64 (List.replicate 56 97)).map List.length = some 128 ∧ ∃ out,
      sha256 64 (List.replicate 56 97) = some out ∧
        ofBytes out = Fips180.sha256 (ofBytes (List.replicate 56 97)) := by
  have hlen : (List.replicate 56 (97 : UInt8)).length < 2 ^ 61 := by decide
  obtain ⟨-, out, -, -, hout, heq⟩ := sha256_eq_fips180 (List.replicate 56 97) hlen
  refine ⟨?_, out, hout 64 (Nat.le_refl 64), heq⟩
  rw [paddedMsg_eq hlen (Nat.le_refl 64), Option.map_some, length_message, List.length_replicate]

end Quantra.Sha256
