import Quantra.Lib.Runs
import Quantra.Net.Firewall

/-! `firewall_nat`: one table of nft for the masquerading of all interfaces, and one stored flag. -/
namespace Quantra.Masquerade
open Quantra.Firewall Runs

inductive FirewallZone
  | publicZone
  | home
  | work
  | trusted
  deriving DecidableEq, Repr

structure FirewallStatus where
  activePreset : Option FirewallPreset
  natEnabled : Bool
  zones : List (String × FirewallZone)
  deriving DecidableEq, Repr

def defaultFirewallStatus : FirewallStatus := ⟨none, false, []⟩

/-- The table `ip quantra_nat` if there is one, its chain `postrouting` if there is one, and the
interfaces that the masquerade rules of the chain name. -/
abbrev NatTable := Option (Option (List String))

/-! The arguments of nft. -/

def addTableArgs : List String := ["add", "table", "ip", "quantra_nat"]

def addChainArgs : List String :=
  ["add", "chain", "ip", "quantra_nat", "postrouting", "\x7b", "type", "nat", "hook", "postrouting",
    "priority", "100", ";", "\x7d"]

def masqueradeArgs (interface : String) : List String :=
  ["add", "rule", "ip", "quantra_nat", "postrouting", "oifname", interface, "masquerade"]

def deleteTableArgs : List String := ["delete", "table", "ip", "quantra_nat"]

/-- What nft does with them: `add table` and `add chain` leave what is there, `add rule` appends to
the chain and wants it, `delete table` wants the table and takes all of it. -/
def nft (table : NatTable) (args : List String) : Option NatTable :=
  if args = addTableArgs then some (some (table.getD none))
  else if args = addChainArgs then table.map fun chain => some (some (chain.getD []))
  else if args = deleteTableArgs then table.map fun _ => none
  else
    match args.drop 5 with
    | [field, interface, action] =>
      if args.take 5 = ["add", "rule", "ip", "quantra_nat", "postrouting"] ∧ field = "oifname" ∧
          action = "masquerade" then
        table.bind fun chain => chain.map fun rules => some (some (rules ++ [interface]))
      else none
    | _ => none

/-- `let _ = run_cmd(..)`. -/
def nftIgnored (table : NatTable) (args : List String) : NatTable := (nft table args).getD table

structure Call where
  enable : Bool
  interface : String
  deriving DecidableEq, Repr

/-- The table of nft, the state file, and the calls that have come through with the latest first. -/
structure World where
  table : NatTable := none
  file : Option FirewallStatus := none
  history : List Call := []
  deriving DecidableEq, Repr

def readFirewallState (w : World) : FirewallStatus := w.file.getD defaultFirewallStatus

/-- The table after the commands of a call, unless adding the rule fails. -/
def natCommands (table : NatTable) (c : Call) : Option NatTable :=
  if c.enable then
    nft (nftIgnored (nftIgnored table addTableArgs) addChainArgs) (masqueradeArgs c.interface)
  else some (nftIgnored table deleteTableArgs)

/-- A call that comes through. -/
def firewallNat (w : World) (c : Call) : Option World :=
  (natCommands w.table c).map fun table =>
    ⟨table, some { readFirewallState w with natEnabled := c.enable }, c :: w.history⟩

/-! What the calls are to bring about. -/

/-- The interfaces of the masquerade rules. -/
def World.rules (w : World) : List String := (w.table.bind id).getD []

def Masqueraded (w : World) (interface : String) : Prop := interface ∈ w.rules

/-- The last call for the interface was to enable. -/
def requested (interface : String) : List Call → Bool
  | [] => false
  | c :: earlier => if c.interface = interface then c.enable else requested interface earlier

structure NatLaw (w : World) : Prop where
  inForce : ∀ i, Masqueraded w i ↔ requested i w.history
  oneRule : ∀ i, requested i w.history → w.rules.count i = 1
  stored : (readFirewallState w).natEnabled ↔ ∃ i, Masqueraded w i

/-- Nothing is masqueraded yet. -/
structure Fresh (w : World) : Prop where
  rules : w.rules = []
  stored : (readFirewallState w).natEnabled = false
  history : w.history = []

/-- An enable of an interface that is not enabled, or a disable when no other interface is. -/
def Kept (w : World) (c : Call) : Prop :=
  if c.enable then requested c.interface w.history = false
  else ∀ i, i ≠ c.interface → requested i w.history = false

/-! What a call does. -/

variable {w w' : World} {c : Call} {table after : NatTable} {i interface : String}

theorem nft_masqueradeArgs (rules : List String) :
    nft (some (some rules)) (masqueradeArgs interface) =
      some (some (some (rules ++ [interface]))) := by
  have htable : masqueradeArgs interface ≠ addTableArgs := by simp [masqueradeArgs, addTableArgs]
  have hchain : masqueradeArgs interface ≠ addChainArgs := by simp [masqueradeArgs, addChainArgs]
  have hdelete : masqueradeArgs interface ≠ deleteTableArgs := by
    simp [masqueradeArgs, deleteTableArgs]
  unfold nft
  rw [if_neg htable, if_neg hchain, if_neg hdelete]
  rfl

/-- An enable finds or makes the table and the chain, and appends a rule. -/
theorem natCommands_enable (h : c.enable) :
    natCommands table c = some (some (some ((table.bind id).getD [] ++ [c.interface]))) := by
  unfold natCommands
  rw [if_pos h]
  cases table with
  | none => exact nft_masqueradeArgs []
  | some chain =>
    cases chain with
    | none => exact nft_masqueradeArgs []
    | some rules => exact nft_masqueradeArgs rules

/-- A disable takes the whole table, whatever interface it names. -/
theorem natCommands_disable (h : c.enable = false) : natCommands table c = some none := by
  unfold natCommands
  rw [h]
  cases table <;> rfl

/-- Everything that a call does. -/
theorem firewallNat_eq (w : World) (c : Call) :
    ∃ w', firewallNat w c = some w' ∧
      w'.rules = (if c.enable then w.rules ++ [c.interface] else []) ∧
      readFirewallState w' = { readFirewallState w with natEnabled := c.enable } ∧
      w'.history = c :: w.history := by
  unfold firewallNat
  cases h : c.enable with
  | true =>
    rw [natCommands_enable h]
    exact ⟨_, rfl, rfl, rfl, rfl⟩
  | false =>
    rw [natCommands_disable h]
    exact ⟨_, rfl, rfl, rfl, rfl⟩

/-- The preset and the zones stay as they are stored. -/
theorem firewallNat_frame (h : firewallNat w c = some w') :
    (readFirewallState w').activePreset = (readFirewallState w).activePreset ∧
      (readFirewallState w').zones = (readFirewallState w).zones := by
  obtain ⟨w'', hw'', -, hstate, -⟩ := firewallNat_eq w c
  cases h.symm.trans hw''
  rw [hstate]
  exact ⟨rfl, rfl⟩

theorem firewallNat_isSome (w : World) (c : Call) : (firewallNat w c).isSome := by
  obtain ⟨w', h, -⟩ := firewallNat_eq w c
  exact Option.isSome_of_eq_some h

theorem requested_cons_self (earlier : List Call) :
    requested c.interface (c :: earlier) = c.enable := if_pos rfl

theorem requested_cons_of_ne (h : i ≠ c.interface) (earlier : List Call) :
    requested i (c :: earlier) = requested i earlier := if_neg (Ne.symm h)

/-! Runs of calls. -/

theorem natLaw_of_fresh (h : Fresh w) : NatLaw w where
  inForce i := by simp [Masqueraded, h.rules, h.history, requested]
  oneRule i hi := by
    rw [h.history] at hi
    cases hi
  stored := by simp [Masqueraded, h.rules, h.stored]

theorem natLaw_enable_iff (hw : NatLaw w) (henable : c.enable)
    (hrules : w'.rules = w.rules ++ [c.interface])
    (hstate : (readFirewallState w').natEnabled = true) (hhistory : w'.history = c :: w.history) :
    NatLaw w' ↔ requested c.interface w.history = false := by
  have hself : requested c.interface w'.history = true := by
    rw [hhistory, requested_cons_self, henable]
  have hother : ∀ {i}, i ≠ c.interface → requested i w'.history = requested i w.history := by
    intro i hi
    rw [hhistory, requested_cons_of_ne hi]
  constructor
  · intro h
    have hcount := h.oneRule _ hself
    rw [hrules, List.count_append, List.count_singleton_self] at hcount
    have hnot : c.interface ∉ w.rules := List.count_eq_zero.1 (by omega)
    exact Bool.eq_false_iff.2 fun hreq => hnot ((hw.inForce _).2 hreq)
  · intro hreq
    have hnot : c.interface ∉ w.rules := fun hmem =>
      Bool.eq_false_iff.1 hreq ((hw.inForce _).1 hmem)
    refine ⟨fun i => ?_, fun i hi => ?_, ?_⟩
    · rw [Masqueraded, hrules, List.mem_append, List.mem_singleton]
      by_cases h : i = c.interface
      · rw [h, hself]
        exact iff_of_true (.inr rfl) rfl
      · rw [hother h, ← hw.inForce i]
        exact or_iff_left h
    · rw [hrules, List.count_append]
      by_cases h : i = c.interface
      · rw [h, List.count_singleton_self, List.count_eq_zero.2 hnot]
      · rw [hother h] at hi
        rw [hw.oneRule i hi, List.count_eq_zero.2 (by simpa using h)]
    · refine iff_of_true hstate ⟨c.interface, ?_⟩
      rw [Masqueraded, hrules]
      exact List.mem_append_right _ (List.mem_singleton_self _)

theorem natLaw_disable_iff (hdisable : c.enable = false) (hrules : w'.rules = [])
    (hstate : (readFirewallState w').natEnabled = false) (hhistory : w'.history = c :: w.history) :
    NatLaw w' ↔ ∀ i, i ≠ c.interface → requested i w.history = false := by
  have hnone : ∀ i, ¬Masqueraded w' i := by simp [Masqueraded, hrules]
  constructor
  · intro h i hi
    have hforce := h.inForce i
    rw [hhistory, requested_cons_of_ne hi] at hforce
    exact Bool.eq_false_iff.2 fun hreq => hnone i (hforce.2 hreq)
  · intro h
    have hreq : ∀ i, requested i w'.history = false := by
      intro i
      rw [hhistory]
      by_cases hi : i = c.interface
      · rw [hi, requested_cons_self, hdisable]
      · rw [requested_cons_of_ne hi, h i hi]
    refine ⟨fun i => ?_, fun i hi => ?_, ?_⟩
    · rw [hreq]
      exact iff_of_false (hnone i) Bool.false_ne_true
    · rw [hreq] at hi
      cases hi
    · rw [hstate]
      exact iff_of_false Bool.false_ne_true fun ⟨i, hi⟩ => hnone i hi

/-- The step lemma of the law. -/
theorem natLaw_step_iff (hw : NatLaw w) (h : firewallNat w c = some w') :
    NatLaw w' ↔ Kept w c := by
  obtain ⟨w'', hw'', hrules, hstate, hhistory⟩ := firewallNat_eq w c
  cases h.symm.trans hw''
  have hflag : (readFirewallState w').natEnabled = c.enable := by rw [hstate]
  unfold Kept
  cases henable : c.enable with
  | true =>
    rw [henable] at hrules hflag
    exact natLaw_enable_iff hw henable hrules hflag hhistory
  | false =>
    rw [henable] at hrules hflag
    exact natLaw_disable_iff henable hrules hflag hhistory

/-- From a fresh start the law holds after every call of a sequence exactly if none of them enables
an interface a second time or disables one while another is enabled. -/
theorem natLaw_always_iff (hw : Fresh w) (calls : List Call) :
    Always firewallNat NatLaw w calls ↔ Meets firewallNat Kept w calls :=
  always_iff_meets natLaw_step_iff (natLaw_of_fresh hw) calls

/-- One interface is enabled and disabled, and then another. -/
theorem natLaw_always_in_turn :
    Fresh {} ∧ Always firewallNat NatLaw {}
      [⟨true, "eth0"⟩, ⟨false, "eth0"⟩, ⟨true, "eth1"⟩, ⟨false, "eth1"⟩] := by
  have hfresh : Fresh {} := ⟨rfl, rfl, rfl⟩
  refine ⟨hfresh, (natLaw_always_iff hfresh _).2 ?_⟩
  refine meets_cons rfl rfl (meets_cons rfl ?_ (meets_cons rfl rfl (meets_cons rfl ?_ trivial)))
  · intro i hi
    simp [requested, hi.symm]
  · intro i hi
    simp [requested, hi.symm]

/-- Disabling one interface ends the masquerading of another, and enabling one twice adds a second
rule for it. -/
theorem disable_ends_other_interface :
    (Runs.exec firewallNat {} [⟨true, "eth0"⟩, ⟨true, "eth1"⟩, ⟨false, "eth1"⟩]).any
        (fun w => requested "eth0" w.history && w.rules.isEmpty &&
          !(readFirewallState w).natEnabled) ∧
      (Runs.exec firewallNat {} [⟨true, "eth0"⟩, ⟨true, "eth0"⟩]).any
        (fun w => w.rules.count "eth0" == 2) ∧
      ¬Always firewallNat NatLaw {} [⟨true, "eth0"⟩, ⟨true, "eth1"⟩, ⟨false, "eth1"⟩] := by
  refine ⟨by decide, by decide, fun h => ?_⟩
  have hlaw := Always.last h rfl
  have hmem : "eth0" ∈ ([] : List String) := (hlaw.inForce "eth0").2 rfl
  cases hmem

end Quantra.Masquerade
