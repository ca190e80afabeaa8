import Quantra.Lib.Runs
import Quantra.Net.WifiConnect

/-! `wifi_connect` called again and again: which runs leave nothing of a call that fails, and one
network block for each SSID of a call that comes through. -/
namespace Quantra.WifiConnect
open Effects

/-- The networks that a new one is added to. -/
def Call.networks (c : Call) (s : Supplicant) : List Network :=
  if c.starts s then s.conf.getD [] else s.configured

/-- `ensure_wpa_supplicant` neither writes the base configuration nor brings saved networks back. -/
def Call.quiet (c : Call) (s : Supplicant) : Bool :=
  !c.writes s && (!c.starts s || (s.conf.getD []).isEmpty)

/-- A call that adds a network comes through and is the first for its SSID; one that adds none finds
a single block for its SSID, or fails without a trace. -/
def Call.Clean (c : Call) (s : Supplicant) : Prop :=
  let there := (c.networks s).countP fun n => n.ssid = some c.ssid
  if c.adds s then c.connects s ∧ there + (if c.setSsid.applied then 1 else 0) = 1
  else if c.connects s then there = 1
  else c.quiet s ∧ (c.saves s → s.conf = some (c.networks s))

instance (c : Call) (s : Supplicant) : Decidable (c.Clean s) := by
  delta Call.Clean
  infer_instance

section Spec
variable {c : Call} {s t : Supplicant}

theorem blocks_eq {ssid : String} : s.blocks ssid = s.ssids.count (some ssid) := by
  unfold Supplicant.blocks Supplicant.ssids
  rw [List.count, List.countP_map]
  refine List.countP_congr fun n _ => ?_
  simp

theorem configured_of_starts (h : c.starts s = true) : s.configured = [] := by
  unfold Call.starts at h
  simp only [Bool.and_eq_true, Option.isNone_iff_eq_none] at h
  unfold Supplicant.configured
  rw [h.1.2]
  rfl

theorem prepared_configured : (c.prepared s).configured = c.networks s := by
  unfold Call.networks Call.prepared Supplicant.configured
  split_ifs with h
  · exact List.zipIdx_map_fst _ _
  · rfl

theorem quiet_iff : c.quiet s = true ↔
    (c.prepared s).configured = s.configured ∧ (c.prepared s).conf = s.conf := by
  have hwrites : c.writes s = false ↔ (c.prepared s).conf = s.conf := by
    unfold Call.prepared Call.based
    cases h : c.writes s with
    | false => simp
    | true =>
      unfold Call.writes at h
      simp only [Bool.and_eq_true, Option.isNone_iff_eq_none] at h
      simp [h.1.2]
  have hstarts : (c.starts s = true → s.conf.getD [] = []) ↔
      (c.prepared s).configured = s.configured := by
    rw [prepared_configured]
    unfold Call.networks
    cases h : c.starts s with
    | false => simp
    | true => simp [configured_of_starts h]
  rw [← hwrites, ← hstarts]
  unfold Call.quiet
  cases c.writes s <;> cases c.starts s <;> simp

theorem networks_length : s.configured.length ≤ (c.networks s).length := by
  unfold Call.networks
  split_ifs with h
  · rw [configured_of_starts h]
    exact Nat.zero_le _
  · exact Nat.le_refl _

theorem networks_of_running (h : s.running.isSome) : c.networks s = s.configured := by
  have hstarts : c.starts s = false := by
    unfold Call.starts
    rw [Option.isNone_eq_false_iff.2 h, Bool.and_false, Bool.false_and]
  unfold Call.networks
  rw [hstarts]
  rfl

theorem running_of_blocks {ssid : String} (h : s.blocks ssid = 1) : s.running.isSome := by
  unfold Supplicant.blocks Supplicant.configured at h
  cases hrunning : s.running with
  | none => simp [hrunning] at h
  | some bs => rfl

theorem Leaves.added (h : Leaves c s t) (hadds : c.adds s = true) :
    ∃ x, t.ssids = (c.prepared s).ssids ++ [x] ∧
      (c.connects s → x = if c.setSsid.applied then some c.ssid else none) := by
  unfold Leaves at h
  rwa [if_pos hadds] at h

theorem Leaves.kept (h : Leaves c s t) (hadds : c.adds s = false) :
    t.configured = (c.prepared s).configured ∧
      t.conf = if c.saves s then some (c.prepared s).configured else (c.prepared s).conf := by
  unfold Leaves at h
  rwa [if_neg (Bool.eq_false_iff.1 hadds)] at h

/-- How many blocks there are for an SSID after a call that comes through. -/
theorem blocks_of_leaves {ssid : String} (hconnects : c.connects s = true) (h : Leaves c s t) :
    t.blocks ssid = ((c.networks s).countP fun n => n.ssid = some ssid) +
      if c.adds s ∧ c.setSsid.applied ∧ ssid = c.ssid then 1 else 0 := by
  have hbefore : ((c.networks s).countP fun n => n.ssid = some ssid) =
      (c.prepared s).blocks ssid := by
    unfold Supplicant.blocks
    rw [prepared_configured]
  rw [hbefore]
  cases hadds : c.adds s with
  | true =>
    obtain ⟨x, hssids, hx⟩ := h.added hadds
    rw [blocks_eq, blocks_eq, hssids, hx hconnects, List.count_append]
    cases c.setSsid.applied with
    | false => simp
    | true => by_cases heq : ssid = c.ssid <;> simp [heq, eq_comm]
  | false =>
    unfold Supplicant.blocks
    rw [(h.kept hadds).1]
    simp

theorem clean_iff_of_connects (hconnects : c.connects s = true) (h : Leaves c s t) :
    c.Clean s ↔ t.blocks c.ssid = 1 := by
  rw [blocks_of_leaves hconnects h]
  unfold Call.Clean
  rw [hconnects]
  cases c.adds s <;> simp

theorem prepared_conf_of_some {nets : List Network} (h : s.conf = some nets) :
    (c.prepared s).conf = s.conf := by
  unfold Call.prepared Call.based Call.writes
  simp [h]

/-- A call that fails leaves no trace just if it has added nothing, started nothing that had
networks and saved nothing new. -/
theorem clean_iff_of_fails (hconnects : c.connects s = false) (h : Leaves c s t) :
    c.Clean s ↔ t.configured = s.configured ∧ t.conf = s.conf := by
  unfold Call.Clean
  dsimp only
  rw [hconnects]
  cases hadds : c.adds s with
  | true =>
    obtain ⟨x, hssids, -⟩ := h.added hadds
    have hlen : t.configured.length = (c.networks s).length + 1 := by
      have hlength := congrArg List.length hssids
      unfold Supplicant.ssids at hlength
      rw [prepared_configured] at hlength
      simpa using hlength
    refine iff_of_false (by simp) fun hsame => ?_
    have hle := networks_length (c := c) (s := s)
    rw [← hsame.1] at hle
    omega
  | false =>
    obtain ⟨hconfigured, hconf⟩ := h.kept hadds
    rw [hconfigured, hconf, if_neg Bool.false_ne_true, if_neg Bool.false_ne_true, quiet_iff,
      prepared_configured]
    cases hsaves : c.saves s with
    | false => simp
    | true =>
      rw [if_pos rfl]
      constructor
      · intro hclean
        exact ⟨hclean.1.1, (hclean.2 rfl).symm⟩
      · intro hsame
        exact ⟨⟨hsame.1, prepared_conf_of_some hsame.2.symm⟩, fun _ => hsame.2.symm⟩

end Spec

/-- A `wpa_supplicant`, and the SSIDs of the calls that have come through. -/
structure World where
  supplicant : Supplicant
  joined : List String
  deriving DecidableEq, Repr

def step (w : World) (c : Call) : Option World :=
  match outcome (wifiConnect c) w.supplicant with
  | (.ok _, t) => some ⟨t, c.ssid :: w.joined⟩
  | (.error _, t) => some ⟨t, w.joined⟩

/-- A call that fails leaves nothing behind, and each SSID of a call that has come through has one
network block. -/
structure Law (w : World) (c : Call) (w' : World) : Prop where
  failed : (outcome (wifiConnect c) w.supplicant).1.isOk = false →
    w'.supplicant.configured = w.supplicant.configured ∧ w'.supplicant.conf = w.supplicant.conf
  joined : ∀ ssid ∈ w'.joined, w'.supplicant.blocks ssid = 1

section Steps
variable {c : Call} {w w' : World}

theorem step_law_iff (hjoined : ∀ ssid ∈ w.joined, w.supplicant.blocks ssid = 1)
    (hstep : step w c = some w') : Law w c w' ↔ c.Clean w.supplicant := by
  have hspec := wifiConnect_spec (c := c) w.supplicant rfl
  unfold step at hstep
  cases hout : outcome (wifiConnect c) w.supplicant with
  | mk r t =>
    rw [hout] at hstep hspec
    cases r with
    | ok u =>
      obtain ⟨hconnects, hleaves⟩ := hspec
      cases hstep
      rw [clean_iff_of_connects hconnects hleaves]
      have hothers : ∀ ssid ∈ w.joined, ssid ≠ c.ssid → t.blocks ssid = 1 := by
        intro ssid hmem hne
        have hone := hjoined ssid hmem
        rw [blocks_of_leaves hconnects hleaves, networks_of_running (running_of_blocks hone),
          if_neg fun h => hne h.2.2]
        exact hone
      constructor
      · intro hlaw
        exact hlaw.joined c.ssid List.mem_cons_self
      · intro hone
        refine ⟨fun hfailed => ?_, fun ssid hmem => ?_⟩
        · rw [hout] at hfailed
          cases hfailed
        · by_cases heq : ssid = c.ssid
          · rw [heq]
            exact hone
          · exact hothers ssid ((List.mem_cons.1 hmem).resolve_left heq) heq
    | error e =>
      obtain ⟨hconnects, hleaves⟩ := hspec
      cases hstep
      rw [clean_iff_of_fails hconnects hleaves]
      constructor
      · intro hlaw
        refine hlaw.failed ?_
        rw [hout]
        rfl
      · intro hsame
        refine ⟨fun _ => hsame, fun ssid hmem => ?_⟩
        have hone := hjoined ssid hmem
        unfold Supplicant.blocks at hone ⊢
        rw [hsame.1]
        exact hone

/-- Over every run of calls: each leaves things as it should just if each is clean. -/
theorem leavesNothing_iff (s : Supplicant) (calls : List Call) :
    Runs.Obeys step Law ⟨s, []⟩ calls ↔
      Runs.Meets step (fun w c => c.Clean w.supplicant) ⟨s, []⟩ calls :=
  Runs.obeys_iff_meets (J := fun w => ∀ ssid ∈ w.joined, w.supplicant.blocks ssid = 1)
    (fun _ _ hlaw => hlaw.joined) step_law_iff (fun _ h => absurd h List.not_mem_nil) calls

theorem not_obeys_of_exec {s : Supplicant} {calls : List Call}
    (h : (Runs.exec step ⟨s, []⟩ calls).isSome)
    (hnone : Runs.exec (Runs.guarded step fun w c => c.Clean w.supplicant) ⟨s, []⟩ calls = none) :
    ¬Runs.Obeys step Law ⟨s, []⟩ calls :=
  Runs.not_obeys_of_exec (J := fun w => ∀ ssid ∈ w.joined, w.supplicant.blocks ssid = 1)
    (fun _ _ hlaw => hlaw.joined) step_law_iff (fun _ h => absurd h List.not_mem_nil) h hnone

end Steps

/-- A call on which every command succeeds and the connection is there at once. -/
def Call.smooth (ssid : String) (password : Option String) : Call where
  ssid := ssid
  password := password
  security := .wpa2Psk
  hidden := false
  createDirAll := .ok ()
  write := ⟨true, .ok ()⟩
  ping := .ok ⟨true, "PONG\n", ""⟩
  start := ⟨true, .ok ⟨true, "", ""⟩⟩
  addNetwork := ⟨true, .ok ⟨true, "0\n", ""⟩⟩
  setSsid := ⟨true, .ok ⟨true, "OK\n", ""⟩⟩
  setScanSsid := ⟨true, .ok ⟨true, "OK\n", ""⟩⟩
  setKey := ⟨true, .ok ⟨true, "OK\n", ""⟩⟩
  enableNetwork := ⟨true, .ok ⟨true, "OK\n", ""⟩⟩
  selectNetwork := ⟨true, .ok ⟨true, "OK\n", ""⟩⟩
  saveConfig := ⟨true, .ok ⟨true, "OK\n", ""⟩⟩
  status _ := .ok ⟨true, "wpa_state=COMPLETED\n", ""⟩

/-- The network of a call without a password stays, and a second call for an SSID adds a second
block. -/
theorem network_left_and_doubled :
    ¬Runs.Obeys step Law ⟨⟨some [], some []⟩, []⟩ [.smooth "Home" none] ∧
      ¬Runs.Obeys step Law ⟨⟨some [], some []⟩, []⟩
        [.smooth "Home" (some "password"), .smooth "Home" (some "password")] :=
  ⟨not_obeys_of_exec (by decide +kernel) (by decide +kernel),
    not_obeys_of_exec (by decide +kernel) (by decide +kernel)⟩

end Quantra.WifiConnect
