import Quantra.Lib.Bytes
import Quantra.Lib.HashChain
import Quantra.Ramfs.Switch

/-! `measured_boot.rs`: what the boot extends PCR 8 by, and what of it has been measured when the
key of the root is asked for. -/
namespace Quantra.MeasuredBoot
open Bytes HashChain Switch

def phaseName : ℕ → String
  | 0 => "Init"
  | 1 => "Mounts"
  | 2 => "Cmdline"
  | 3 => "RootfsDetect"
  | 4 => "RootfsMount"
  | 5 => "Overlay"
  | 6 => "Pivot"
  | 7 => "Complete"
  | _ => "Unknown"

def hexDigits : List Char :=
  ['0', '1', '2', '3', '4', '5', '6', '7', '8', '9', 'a', 'b', 'c', 'd', 'e', 'f']

def hexDigit (n : ℕ) : Char := hexDigits.getD n '0'

def encodeHex (bytes : List UInt8) : String :=
  String.ofList (bytes.flatMap fun b => [hexDigit (b.toNat / 16), hexDigit (b.toNat % 16)])

/-- The calls of `measure_phase`, `measure_cmdline`, `measure_overlay_mode` and
`measure_init_binary`. -/
inductive Measurement
  | phase (n : ℕ)
  | cmdline
  | overlay
  | init
  deriving DecidableEq, Repr

inductive Step
  | measure (m : Measurement)
  | unseal
  deriving DecidableEq, Repr

/-- What `main` measures, and where `mount_root_at` unseals the key. -/
def mainSteps : List Step :=
  [.measure (.phase 0), .measure (.phase 1), .measure .cmdline, .measure (.phase 2),
    .measure (.phase 3), .measure (.phase 4), .unseal, .measure (.phase 5), .measure .overlay,
    .measure .init, .measure (.phase 6)]

/-- A boot that comes to the unseal: its command line, the last phase that it gets to, the binary
that it executes if it gets so far, and the measurements that the TPM takes. -/
structure Boot where
  cmdline : String
  lastPhase : ℕ
  init : Option (List UInt8)
  accepted : Measurement → Bool
  unseals : 4 ≤ lastPhase

namespace Boot

def overlayEnabled (b : Boot) : Bool := !overlayDisabledByCmdline b.cmdline

def phases (b : Boot) : List ℕ := List.range (b.lastPhase + 1)

end Boot

section Pcr
variable {D : Type*} (H : IdealHash D) (b : Boot)

/-- The text of a measurement. -/
def text : Measurement → String
  | .phase n => "zainium-phase:" ++ toString n ++ ":" ++ phaseName n
  | .cmdline => "zainium-cmdline:" ++ encodeHex (H.bytes (H.hash (asBytes b.cmdline)))
  | .overlay => if b.overlayEnabled then "zainium-overlay:enabled" else "zainium-overlay:disabled"
  | .init => "zainium-init:" ++ encodeHex (H.bytes (H.hash (b.init.getD [])))

/-- A measurement that fails leaves the register as it is. -/
def measure (m : Measurement) (pcr : D) : D :=
  if b.accepted m then extend H pcr (H.hash (asBytes (text H b m))) else pcr

/-- The register when the key is asked for. -/
def pcrAtUnseal : List Step → D → Option D
  | [], _ => none
  | .unseal :: _, pcr => some pcr
  | .measure m :: rest, pcr => pcrAtUnseal rest (measure H b m pcr)

def pcr8 : Option D := pcrAtUnseal H b mainSteps H.zero

end Pcr

/-- The boots differ in what is to be measured. -/
def Differ (b b' : Boot) : Prop :=
  b.cmdline ≠ b'.cmdline ∨ b.overlayEnabled ≠ b'.overlayEnabled ∨ b.phases ≠ b'.phases ∨
    b.init ≠ b'.init

/-- A key that was sealed against one of the boots is not released in the other. -/
def Gated {D : Type*} (H : IdealHash D) (b b' : Boot) : Prop := Differ b b' → pcr8 H b ≠ pcr8 H b'

/-- What is measured before the key is asked for. -/
def measuredFirst : List Measurement :=
  [.phase 0, .phase 1, .cmdline, .phase 2, .phase 3, .phase 4]

/-- One of the first measurements is taken by one of the TPMs only, or both take the command line
and it differs. -/
def MeasuredApart (b b' : Boot) : Prop :=
  (∃ m ∈ measuredFirst, b.accepted m ≠ b'.accepted m) ∨
    (b.accepted .cmdline ∧ b'.accepted .cmdline ∧ b.cmdline ≠ b'.cmdline)

/-! The texts tell what was measured. -/

section Texts
variable {D : Type*} {H : IdealHash D} {b b' : Boot}

theorem hexDigit_inj : ∀ {m n : ℕ}, m < 16 → n < 16 → hexDigit m = hexDigit n → m = n := by
  have hall : ∀ m < 16, ∀ n < 16, hexDigit m = hexDigit n → m = n := by decide
  exact fun {m n} hm hn => hall m hm n hn

theorem encodeHex_inj {ms ns : List UInt8} (h : encodeHex ms = encodeHex ns) : ms = ns := by
  have hchars := String.ofList_injective h
  induction ms generalizing ns with
  | nil =>
    cases ns with
    | nil => rfl
    | cons n ns => cases hchars
  | cons m ms ih =>
    cases ns with
    | nil => cases hchars
    | cons n ns =>
      rw [List.flatMap_cons, List.flatMap_cons] at hchars
      obtain ⟨hhigh, hrest⟩ := List.cons.inj hchars
      obtain ⟨hlow, hrest⟩ := List.cons.inj hrest
      have hm := m.toNat_lt
      have hn := n.toNat_lt
      have hquot := hexDigit_inj (by omega) (by omega) hhigh
      have hrem := hexDigit_inj (Nat.mod_lt _ (by decide)) (Nat.mod_lt _ (by decide)) hlow
      have heq : m = n := UInt8.toNat_inj.1 (by omega)
      rw [heq, ih (congrArg String.ofList hrest) hrest]

theorem text_cmdline_inj (h : text H b .cmdline = text H b' .cmdline) : b.cmdline = b'.cmdline := by
  have hlists := congrArg String.toList h
  unfold text at hlists
  rw [String.toList_append, String.toList_append] at hlists
  have hhex := encodeHex_inj (String.toList_inj.1 (List.append_cancel_left hlists))
  exact asBytes_inj.1 (H.hash_inj (bytes_inj hhex))

theorem measuredFirst_cases :
    ∀ m ∈ measuredFirst, m = .cmdline ∨ ∃ n < 5, m = .phase n := by
  decide

theorem text_phase_inj {m n : ℕ} (hm : m < 5) (hn : n < 5)
    (h : text H b (.phase m) = text H b' (.phase n)) : m = n := by
  have hall : ∀ m < 5, ∀ n < 5, "zainium-phase:" ++ toString m ++ ":" ++ phaseName m =
      "zainium-phase:" ++ toString n ++ ":" ++ phaseName n → m = n := by decide
  exact hall m hm n hn h

theorem text_phase_ne_cmdline {n : ℕ} (hn : n < 5) :
    text H b (.phase n) ≠ text H b' .cmdline := by
  have hphase : ∀ n < 5, ("zainium-phase:" ++ toString n ++ ":" ++ phaseName n).toList[8]? =
      some 'p' := by decide
  have hcmdline : (text H b' .cmdline).toList[8]? = some 'c' := by
    unfold text
    rw [String.toList_append, List.getElem?_append_left (by decide)]
    decide
  intro h
  rw [← h] at hcmdline
  cases (hphase n hn).symm.trans hcmdline

/-- The texts of different measurements are different. -/
theorem text_cross {m m' : Measurement} (hm : m ∈ measuredFirst) (hm' : m' ∈ measuredFirst)
    (h : text H b m = text H b' m') : m = m' := by
  obtain rfl | ⟨n, hn, rfl⟩ := measuredFirst_cases m hm
  · obtain rfl | ⟨n', hn', rfl⟩ := measuredFirst_cases m' hm'
    · rfl
    · exact absurd h.symm (text_phase_ne_cmdline hn')
  · obtain rfl | ⟨n', hn', rfl⟩ := measuredFirst_cases m' hm'
    · exact absurd h (text_phase_ne_cmdline hn)
    · rw [text_phase_inj hn hn' h]

/-- Only the text for the command line depends on the boot. -/
theorem text_eq_iff {m : Measurement} (hm : m ∈ measuredFirst) :
    text H b m = text H b' m ↔ (m = .cmdline → b.cmdline = b'.cmdline) := by
  obtain rfl | ⟨n, -, rfl⟩ := measuredFirst_cases m hm
  · constructor
    · exact fun h _ => text_cmdline_inj h
    · intro h
      unfold text
      rw [h rfl]
  · exact iff_of_true rfl fun h => by cases h

end Texts

section Gate
variable {D : Type*} {H : IdealHash D} {b b' : Boot}

theorem pcrAtUnseal_eq (ms : List Measurement) (rest : List Step) (pcr : D) :
    pcrAtUnseal H b (ms.map .measure ++ .unseal :: rest) pcr =
      some (((ms.filter b.accepted).map fun m => asBytes (text H b m)).foldl
        (fun r m => extend H r (H.hash m)) pcr) := by
  induction ms generalizing pcr with
  | nil => rfl
  | cons m ms ih =>
    rw [List.map_cons, List.cons_append, pcrAtUnseal, ih, List.filter_cons]
    unfold measure
    cases b.accepted m <;> rfl

theorem pcr8_eq : pcr8 H b =
    some (chain H ((measuredFirst.filter b.accepted).map fun m => asBytes (text H b m))) :=
  pcrAtUnseal_eq measuredFirst _ H.zero

/-- The register differs at the unseal exactly if what was measured by then differs. -/
theorem pcr8_ne_iff : pcr8 H b ≠ pcr8 H b' ↔ MeasuredApart b b' := by
  have hcross : ∀ m ∈ measuredFirst, ∀ m' ∈ measuredFirst,
      asBytes (text H b m) = asBytes (text H b' m') → m = m' :=
    fun m hm m' hm' h => text_cross hm hm' (asBytes_inj.1 h)
  have heq : pcr8 H b = pcr8 H b' ↔ ∀ m ∈ measuredFirst, b.accepted m = b'.accepted m ∧
      (b.accepted m → m = .cmdline → b.cmdline = b'.cmdline) := by
    rw [pcr8_eq, pcr8_eq, Option.some.injEq, chain_inj, map_filter_eq_iff (by decide) hcross]
    refine forall₂_congr fun m hm => and_congr_right fun _ => imp_congr_right fun _ => ?_
    rw [asBytes_inj, text_eq_iff hm]
  rw [Ne, heq]
  constructor
  · intro hnot
    by_contra hapart
    obtain ⟨hsame, hcmdline⟩ := not_or.1 hapart
    refine hnot fun m hm => ⟨?_, ?_⟩
    · by_contra hne
      exact hsame ⟨m, hm, hne⟩
    · rintro haccepted rfl
      by_contra hne
      have hboth : b.accepted .cmdline = b'.accepted .cmdline := by
        by_contra hdiffer
        exact hsame ⟨.cmdline, hm, hdiffer⟩
      exact hcmdline ⟨haccepted, hboth ▸ haccepted, hne⟩
  · rintro (⟨m, hm, hne⟩ | ⟨haccepted, -, hne⟩) hall
    · exact hne (hall m hm).1
    · exact hne ((hall .cmdline (by decide)).2 haccepted rfl)

end Gate

/-- The key is gated for two boots exactly if they do not differ, or differ in what is measured
before the key is asked for. -/
theorem gated_iff {D : Type*} (H : IdealHash D) (b b' : Boot) :
    Gated H b b' ↔ (Differ b b' → MeasuredApart b b') :=
  imp_congr_right fun _ => pcr8_ne_iff

/-- Bytes that show where they end. -/
def framed (d : List UInt8) : List UInt8 := d.flatMap (fun x => [1, x]) ++ [0]

theorem framed_cut {a b r s : List UInt8} (h : framed a ++ r = framed b ++ s) : a = b ∧ r = s := by
  induction a generalizing b with
  | nil =>
    cases b with
    | nil => exact ⟨rfl, (List.cons.inj h).2⟩
    | cons y b => cases (List.cons.inj h).1
  | cons x a ih =>
    cases b with
    | nil => cases (List.cons.inj h).1
    | cons y b =>
      obtain ⟨hxy, hrest⟩ := List.cons.inj (List.cons.inj h).2
      obtain ⟨hab, hrs⟩ := ih hrest
      rw [hxy, hab]
      exact ⟨rfl, hrs⟩

/-- A hash that is the text itself. -/
def plainHash : IdealHash (List UInt8) where
  hash m := m
  bytes := framed
  zero := []
  hash_inj h := h
  cut h := ⟨(framed_cut h).1, (framed_cut (congrArg (· ++ []) (framed_cut h).2)).1⟩
  zero_fresh a b := by simp [framed]

/-- A boot that gets to the end. -/
def fullBoot (init : List UInt8) : Boot :=
  ⟨"root=/dev/sda1", 6, some init, fun _ => true, by decide⟩

/-- Another init binary is measured too late. -/
theorem init_not_gated : ¬Gated plainHash (fullBoot [0]) (fullBoot [1]) := by
  intro h
  have hdiffer : Differ (fullBoot [0]) (fullBoot [1]) := .inr (.inr (.inr (by decide)))
  obtain ⟨m, hm, hne⟩ | ⟨-, -, hne⟩ := pcr8_ne_iff.1 (h hdiffer)
  · exact hne rfl
  · exact hne rfl

end Quantra.MeasuredBoot
