import Quantra.Lib.Bits
import Mathlib.Analysis.SpecialFunctions.Pow.NthRootLemmas
import Mathlib.Data.Nat.Prime.Basic
import Mathlib.Order.Bounds.Defs

/-! SHA-256 as FIPS 180-4 has it: on bit strings, with its constants taken from the primes. -/
namespace Fips180
open Bits

abbrev Word := BitVec 32

/-! The functions of section 4.1.2. -/

def rotr (n : ℕ) (x : Word) : Word := (x >>> n) ||| (x <<< (32 - n))

def shr (n : ℕ) (x : Word) : Word := x >>> n

def ch (x y z : Word) : Word := (x &&& y) ^^^ (~~~x &&& z)

def maj (x y z : Word) : Word := (x &&& y) ^^^ (x &&& z) ^^^ (y &&& z)

def bigSigma0 (x : Word) : Word := rotr 2 x ^^^ rotr 13 x ^^^ rotr 22 x

def bigSigma1 (x : Word) : Word := rotr 6 x ^^^ rotr 11 x ^^^ rotr 25 x

def sigma0 (x : Word) : Word := rotr 7 x ^^^ rotr 18 x ^^^ shr 3 x

def sigma1 (x : Word) : Word := rotr 17 x ^^^ rotr 19 x ^^^ shr 10 x

/-! The constants of sections 4.2.2 and 5.3.3. -/

/-- The first 64 primes. -/
def primes : List ℕ := (List.range 312).filter fun n => n.Prime

/-- The first 32 bits of the fractional part of the `k`-th root of `n`. -/
def rootBits (k n : ℕ) : Word := BitVec.ofNat 32 (Nat.nthRoot k (n * 2 ^ (32 * k)))

def constant (t : ℕ) : Word := rootBits 3 (primes.getD t 0)

/-- The eight words of a hash value, and the working variables of a block. -/
structure Vars where
  a : Word
  b : Word
  c : Word
  d : Word
  e : Word
  f : Word
  g : Word
  h : Word

def initial : Vars where
  a := rootBits 2 (primes.getD 0 0)
  b := rootBits 2 (primes.getD 1 0)
  c := rootBits 2 (primes.getD 2 0)
  d := rootBits 2 (primes.getD 3 0)
  e := rootBits 2 (primes.getD 4 0)
  f := rootBits 2 (primes.getD 5 0)
  g := rootBits 2 (primes.getD 6 0)
  h := rootBits 2 (primes.getD 7 0)

/-! Preprocessing, section 5. -/

/-- How many zeros stand between the one behind a message of `l` bits and its length. -/
def padZeros (l : ℕ) : ℕ := (959 - l % 512) % 512

def pad (message : List Bool) : List Bool :=
  message ++ [true] ++ List.replicate (padZeros message.length) false ++ toBits 64 message.length

/-- A word of a block of 512 bits. -/
def blockWord (block : List Bool) (t : ℕ) : Word :=
  BitVec.ofNat 32 (ofBits ((block.drop (32 * t)).take 32))

/-! The computation, section 6.2.2. -/

/-- The words of the message schedule, given those of the block. -/
def schedule (m : ℕ → Word) (t : ℕ) : Word :=
  if t < 16 then m t
  else sigma1 (schedule m (t - 2)) + schedule m (t - 7) + sigma0 (schedule m (t - 15)) +
    schedule m (t - 16)

/-- One round, with its constant and its word of the schedule. -/
def round (k w : Word) (v : Vars) : Vars :=
  let t1 := v.h + bigSigma1 v.e + ch v.e v.f v.g + k + w
  let t2 := bigSigma0 v.a + maj v.a v.b v.c
  { a := t1 + t2, b := v.a, c := v.b, d := v.c, e := v.d + t1, f := v.e, g := v.f, h := v.g }

def rounds (block : List Bool) (v : Vars) : Vars :=
  (List.range 64).foldl (fun v t => round (constant t) (schedule (blockWord block) t) v) v

def Vars.add (v v' : Vars) : Vars where
  a := v.a + v'.a
  b := v.b + v'.b
  c := v.c + v'.c
  d := v.d + v'.d
  e := v.e + v'.e
  f := v.f + v'.f
  g := v.g + v'.g
  h := v.h + v'.h

def compress (hash : Vars) (block : List Bool) : Vars := (rounds block hash).add hash

def Vars.bits (v : Vars) : List Bool :=
  [v.a, v.b, v.c, v.d, v.e, v.f, v.g, v.h].flatMap fun x => toBits 32 x.toNat

/-- The digest of a message of less than `2 ^ 64` bits. -/
def sha256 (message : List Bool) : List Bool :=
  (((pad message).toChunks 512).foldl compress initial).bits

/-! What the definitions come to. -/

/-- The least number of zeros for which the length ends a block. -/
theorem isLeast_padZeros (l : ℕ) : IsLeast {k | (l + 1 + k) % 512 = 448} (padZeros l) := by
  unfold padZeros
  constructor
  · show (l + 1 + (959 - l % 512) % 512) % 512 = 448
    omega
  · intro k (hk : (l + 1 + k) % 512 = 448)
    omega

theorem schedule_of_lt {m : ℕ → Word} {t : ℕ} (h : t < 16) : schedule m t = m t := by
  rw [schedule, if_pos h]

theorem schedule_of_le {m : ℕ → Word} {t : ℕ} (h : 16 ≤ t) : schedule m t =
    sigma1 (schedule m (t - 2)) + schedule m (t - 7) + sigma0 (schedule m (t - 15)) +
      schedule m (t - 16) := by
  rw [schedule, if_neg (by omega)]

/-- A number below `18 ^ 2` is prime if nothing below 18 divides it. -/
theorem prime_iff {n : ℕ} (h : n < 312) :
    n.Prime ↔ 2 ≤ n ∧ ∀ d ∈ List.range 18, 2 ≤ d → d < n → n % d ≠ 0 := by
  constructor
  · intro hprime
    refine ⟨hprime.two_le, fun d _ hd hlt hmod => ?_⟩
    rcases (Nat.dvd_prime hprime).1 (Nat.dvd_of_mod_eq_zero hmod) with rfl | rfl
    · omega
    · omega
  · rintro ⟨htwo, hdiv⟩
    by_contra hnot
    have hsq : n.minFac ^ 2 ≤ n := Nat.minFac_sq_le_self (by omega) hnot
    have hprime : n.minFac.Prime := Nat.minFac_prime (by omega)
    have hsmall : n.minFac < 18 := by nlinarith
    have hlt : n.minFac < n := by nlinarith [hprime.two_le]
    exact hdiv n.minFac (List.mem_range.2 hsmall) hprime.two_le hlt
      (Nat.mod_eq_zero_of_dvd n.minFac_dvd)

def firstPrimes : List ℕ :=
  [2, 3, 5, 7, 11, 13, 17, 19, 23, 29, 31, 37, 41, 43, 47, 53, 59, 61, 67, 71, 73, 79, 83, 89, 97,
    101, 103, 107, 109, 113, 127, 131, 137, 139, 149, 151, 157, 163, 167, 173, 179, 181, 191, 193,
    197, 199, 211, 223, 227, 229, 233, 239, 241, 251, 257, 263, 269, 271, 277, 281, 283, 293, 307,
    311]

theorem primes_eq : primes = firstPrimes := by
  have hfilter : primes = (List.range 312).filter fun n =>
      2 ≤ n ∧ ∀ d ∈ List.range 18, 2 ≤ d → d < n → n % d ≠ 0 := by
    refine List.filter_congr fun n hn => ?_
    rw [decide_eq_decide]
    exact prime_iff (List.mem_range.1 hn)
  rw [hfilter]
  decide +kernel

/-- The bits of a root whose integer part is `c` are found by bounding it. -/
theorem rootBits_eq {k n c : ℕ} {x : Word} (hlo : (c * 2 ^ 32 + x.toNat) ^ k ≤ n * 2 ^ (32 * k))
    (hhi : n * 2 ^ (32 * k) < (c * 2 ^ 32 + x.toNat + 1) ^ k) : rootBits k n = x := by
  rw [rootBits, Nat.nthRoot_eq_of_le_of_lt hlo hhi]
  apply BitVec.eq_of_toNat_eq
  rw [BitVec.toNat_ofNat, Nat.mul_add_mod_of_lt x.isLt]

end Fips180
