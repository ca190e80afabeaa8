import Quantra.Lib.Nft
import Quantra.Lib.Runs
import Quantra.Lib.Text

/-! `firewall.rs`: the calls of nft that presets, permissions and blocks come to, and the chain of
incoming packets that they make. -/
namespace Quantra.Firewall
open Nft Runs

inductive FirewallPreset
  | home
  | work
  | publicNet
  | gaming
  deriving DecidableEq, Repr

inductive Op
  | applyFirewallPreset (preset : FirewallPreset)
  | firewallAllow (service : String) (src : Option String) (port : Option UInt16)
  | firewallBlock (port : UInt16) (src : Option String)
  deriving DecidableEq, Repr

/-- An incoming TCP packet. -/
structure Packet (α : Type) where
  source : α
  port : UInt16

/-- What a rule asks of the source and of the destination port. -/
structure Match (α : Type) where
  saddr : Option (α → Bool)
  dport : Option ℕ

variable {α : Type}

def Match.holds (m : Match α) (p : Packet α) : Bool :=
  m.saddr.all (· p.source) && m.dport.all (· == p.port.toNat)

/-- The table `inet quantra` by its chain `input`, if it has been loaded. -/
abbrev Table (α : Type) := Option (Chain (Match α))

/-! The arguments of nft. -/

def inputPolicy : FirewallPreset → Verdict
  | .home | .work | .gaming => .accept
  | .publicNet => .drop

def saddrArgs : Option String → List String
  | some src => ["ip", "saddr", src]
  | none => []

def dportArgs : Option UInt16 → List String
  | some port => ["tcp", "dport", toString port.toNat]
  | none => []

def allowArgs (src : Option String) (port : Option UInt16) : List String :=
  ["add", "rule", "inet", "quantra", "input"] ++ saddrArgs src ++ dportArgs port ++ ["accept"]

def blockArgs (port : UInt16) (src : Option String) : List String :=
  ["add", "rule", "inet", "quantra", "input"] ++ saddrArgs src ++ dportArgs (some port) ++ ["drop"]

/-! What nft does with them. -/

section Nft
variable (sourceOf : String → Option (α → Bool))

def readVerdict : List String → Option Verdict
  | [word] => if word = "accept" then some .accept else if word = "drop" then some .drop else none
  | _ => none

def readDport : List String → Option (Option ℕ × List String)
  | proto :: field :: port :: rest =>
    if proto = "tcp" ∧ field = "dport" then do
      let port ← (Text.digitsToNat port.toList).filter (· < 65536)
      some (some port, rest)
    else some (none, proto :: field :: port :: rest)
  | args => some (none, args)

def readSaddr : List String → Option (Option (α → Bool) × List String)
  | family :: field :: src :: rest =>
    if family = "ip" ∧ field = "saddr" then do
      let source ← sourceOf src
      some (some source, rest)
    else some (none, family :: field :: src :: rest)
  | args => some (none, args)

def readRule (args : List String) : Option (Rule (Match α)) := do
  let (saddr, args) ← readSaddr sourceOf args
  let (dport, args) ← readDport args
  let v ← readVerdict args
  some ⟨⟨saddr, dport⟩, v⟩

/-- `nft add rule`, which wants the table. -/
def nftAddRule (table : Table α) (args : List String) : Option (Table α) := do
  let chain ← table
  if args.take 5 = ["add", "rule", "inet", "quantra", "input"] then do
    let rule ← readRule sourceOf (args.drop 5)
    some (some (chain.add rule))
  else none

/-- A call that comes through; a preset puts its own table in the place of the one that is there. -/
def apply (table : Table α) : Op → Option (Table α)
  | .applyFirewallPreset preset => some (some ⟨[], inputPolicy preset⟩)
  | .firewallAllow _ src port => nftAddRule sourceOf table (allowArgs src port)
  | .firewallBlock port src => nftAddRule sourceOf table (blockArgs port src)

/-! What the calls are to bring about. -/

/-- The source of the packet is one that is named, if any is. -/
def covers (src : Option String) (p : Packet α) : Bool :=
  src.all fun text => (sourceOf text).any (· p.source)

variable (portsOf : String → UInt16 → Bool)

/-- What the call asks for the packet. -/
def asks (p : Packet α) : Op → Option Verdict
  | .applyFirewallPreset _ => none
  | .firewallAllow service src port =>
    if covers sourceOf src p ∧ port.elim (portsOf service p.port) (· == p.port) then some .accept
    else none
  | .firewallBlock port src =>
    if covers sourceOf src p ∧ port = p.port then some .drop else none

/-- The last word on the packet in a history with the latest call first. -/
def expected (p : Packet α) : List Op → Option Verdict
  | [] => none
  | .applyFirewallPreset preset :: _ => some (inputPolicy preset)
  | op :: earlier => (asks sourceOf portsOf p op).or (expected p earlier)

end Nft

/-! The rule that a call adds. -/

variable {sourceOf : String → Option (α → Bool)} {portsOf : String → UInt16 → Bool}
  {table after : Table α} {chain : Chain (Match α)} {src : Option String} {port : Option UInt16}
  {word : String} {v : Verdict} {op : Op}

theorem readDport_args :
    readDport (dportArgs port ++ [word]) = some (port.map (·.toNat), [word]) := by
  cases port with
  | none => rfl
  | some port =>
    have hread : Text.digitsToNat (toString port.toNat).toList = some port.toNat := by
      rw [Nat.toString_eq_ofList_toDigits, String.toList_ofList, Text.digitsToNat_toDigits]
    have hlt : port.toNat < 65536 := port.toNat_lt
    simp only [dportArgs, List.cons_append, List.nil_append, readDport, and_self, if_true, hread,
      Option.filter_some, decide_eq_true hlt]
    rfl

theorem readSaddr_args : readSaddr sourceOf (saddrArgs src ++ (dportArgs port ++ [word])) =
    (src.elim (some none) fun text => (sourceOf text).map some).map
      (·, dportArgs port ++ [word]) := by
  cases src with
  | none =>
    cases port with
    | none => rfl
    | some port => rfl
  | some text =>
    simp only [saddrArgs, List.cons_append, List.nil_append, readSaddr, and_self, if_true,
      Option.elim_some]
    cases sourceOf text <;> rfl

/-- A rule that nft reads asks of a packet what the call names. -/
theorem holds_of_readRule {r : Rule (Match α)} (hv : readVerdict [word] = some v)
    (h : readRule sourceOf (saddrArgs src ++ (dportArgs port ++ [word])) = some r) :
    r.verdict = v ∧
      ∀ p, r.cond.holds p = (covers sourceOf src p && port.all (· == p.port)) := by
  have hport : ∀ p : Packet α, (port.map (·.toNat)).all (· == p.port.toNat) =
      port.all (· == p.port) := by
    intro p
    cases port with
    | none => rfl
    | some port =>
      exact Bool.eq_iff_iff.mpr (by simp [UInt16.toNat_inj])
  unfold readRule at h
  rw [readSaddr_args] at h
  cases src with
  | none =>
    simp only [Option.elim_none, Option.map_some, Option.bind_some, readDport_args, hv,
      Option.bind_eq_bind, Option.some.injEq] at h
    subst h
    exact ⟨rfl, fun p => congrArg _ (hport p)⟩
  | some text =>
    cases hs : sourceOf text with
    | none =>
      rw [Option.elim_some, hs] at h
      cases h
    | some source =>
      simp only [Option.elim_some, hs, Option.map_some, Option.bind_some, readDport_args, hv,
        Option.bind_eq_bind, Option.some.injEq] at h
      subst h
      refine ⟨rfl, fun p => ?_⟩
      rw [covers, Option.all_some, hs, Option.any_some]
      exact congrArg _ (hport p)

/-- What a call that adds a rule does to the chain. -/
theorem nftAddRule_eq_some (hv : readVerdict [word] = some v)
    (h : nftAddRule sourceOf table (["add", "rule", "inet", "quantra", "input"] ++ saddrArgs src ++
      dportArgs port ++ [word]) = some after) :
    ∃ chain r, table = some chain ∧ after = some (chain.add r) ∧ r.verdict = v ∧
      ∀ p, r.cond.holds p = (covers sourceOf src p && port.all (· == p.port)) := by
  cases table with
  | none => cases h
  | some chain =>
    rw [List.append_assoc, List.append_assoc] at h
    change (readRule sourceOf (saddrArgs src ++ (dportArgs port ++ [word]))).bind
      (fun rule => some (some (chain.add rule))) = some after at h
    obtain ⟨r, hr, hafter⟩ := Option.bind_eq_some_iff.1 h
    obtain ⟨hverdict, hholds⟩ := holds_of_readRule hv hr
    exact ⟨chain, r, rfl, (Option.some.inj hafter).symm, hverdict, hholds⟩

/-! Runs of the calls that come through. -/

/-- The table, and the calls that have led to it with the latest first. -/
structure World (α : Type) where
  table : Table α := none
  history : List Op := []

def World.verdict (w : World α) (p : Packet α) : Option Verdict :=
  w.table.map (·.verdict Match.holds p)

/-- What the rules say, without the policy. -/
def World.decided (w : World α) (p : Packet α) : Option Verdict :=
  w.table.bind fun chain => Nft.decided Match.holds chain.rules p

section World
variable (sourceOf portsOf)

def step (w : World α) (op : Op) : Option (World α) :=
  (apply sourceOf w.table op).map (⟨·, op :: w.history⟩)

/-- The verdict on every packet is the last word that was said on it. -/
def FollowsHistory (w : World α) : Prop :=
  ∀ p, w.verdict p = expected sourceOf portsOf p w.history

/-- A permission without a port opens no port but those of the service. -/
def OpensOnly (w : World α) (op : Op) : Prop :=
  ∀ service src after, op = .firewallAllow service src none → step sourceOf w op = some after →
    ∀ p, portsOf service p.port = false → after.verdict p = some .accept →
      w.verdict p = some .accept

/-- The rule of the call matches a packet on which the call asks nothing. -/
def Stray (p : Packet α) : Op → Prop
  | .firewallAllow service src none =>
    covers sourceOf src p ∧ portsOf service p.port = false
  | _ => False

/-- No earlier rule decides otherwise on what the call is about, and what its rule matches beyond
that is decided already or accepted anyway. -/
def Heeded (w : World α) (op : Op) : Prop :=
  ∀ p, (∀ v, asks sourceOf portsOf p op = some v → w.decided p = none ∨ w.decided p = some v) ∧
    (Stray sourceOf portsOf p op → w.decided p = none →
      w.table.map (·.policy) = some .accept)

end World

/-- One packet and one new rule, which matches what the call is about and what is stray. -/
theorem verdict_add_iff {c : Chain (Match α)} {r : Rule (Match α)} {p : Packet α}
    {said : Option Verdict} {stray : Prop}
    (hmatch : r.cond.holds p = true →
      said = some r.verdict ∧ ¬stray ∨ said = none ∧ stray ∧ r.verdict = .accept)
    (hmiss : r.cond.holds p = false → said = none ∧ ¬stray) :
    (c.add r).verdict Match.holds p = said.getD (c.verdict Match.holds p) ↔
      (∀ v, said = some v →
        decided Match.holds c.rules p = none ∨ decided Match.holds c.rules p = some v) ∧
      (stray → decided Match.holds c.rules p = none → c.policy = .accept) := by
  cases hr : r.cond.holds p with
  | false =>
    obtain ⟨hsaid, hstray⟩ := hmiss hr
    rw [verdict_add_of_not hr, hsaid]
    exact iff_of_true rfl ⟨fun _ hv => (by cases hv), fun h => absurd h hstray⟩
  | true =>
    rw [verdict_add_of_holds hr, Chain.verdict]
    rcases hmatch hr with ⟨hsaid, hstray⟩ | ⟨hsaid, hstray, haccept⟩
    · rw [hsaid]
      cases hd : decided Match.holds c.rules p with
      | none => exact iff_of_true rfl ⟨fun _ _ => .inl rfl, fun h => absurd h hstray⟩
      | some u =>
        constructor
        · intro h
          refine ⟨fun v hv => .inr ?_, fun h => absurd h hstray⟩
          rw [← hv]
          exact congrArg some h
        · rintro ⟨h, -⟩
          rcases h _ rfl with h | h
          · cases h
          · exact Option.some.inj h
    · rw [hsaid, haccept]
      cases hd : decided Match.holds c.rules p with
      | none =>
        constructor
        · exact fun h => ⟨fun _ hv => (by cases hv), fun _ _ => h.symm⟩
        · exact fun h => (h.2 hstray rfl).symm
      | some u =>
        exact iff_of_true rfl ⟨fun _ hv => (by cases hv), fun _ h => by cases h⟩

/-- What a rule of the call matches is what the call is about, or stray. -/
structure Adds (sourceOf : String → Option (α → Bool)) (portsOf : String → UInt16 → Bool)
    (r : Rule (Match α)) (op : Op) : Prop where
  matched : ∀ p, r.cond.holds p = true →
    asks sourceOf portsOf p op = some r.verdict ∧ ¬Stray sourceOf portsOf p op ∨
      asks sourceOf portsOf p op = none ∧ Stray sourceOf portsOf p op ∧ r.verdict = .accept
  missed : ∀ p, r.cond.holds p = false →
    asks sourceOf portsOf p op = none ∧ ¬Stray sourceOf portsOf p op
  expected : ∀ p earlier, expected sourceOf portsOf p (op :: earlier) =
    (asks sourceOf portsOf p op).or (Firewall.expected sourceOf portsOf p earlier)

theorem adds_allow {service : String} {r : Rule (Match α)} (hv : r.verdict = .accept)
    (h : ∀ p, r.cond.holds p = (covers sourceOf src p && port.all (· == p.port))) :
    Adds sourceOf portsOf r (.firewallAllow service src port) where
  matched p hp := by
    rw [h, Bool.and_eq_true] at hp
    rw [hv]
    cases port with
    | some port => exact .inl ⟨if_pos hp, id⟩
    | none =>
      cases hs : portsOf service p.port with
      | true => exact .inl ⟨if_pos ⟨hp.1, hs⟩, fun hstray => Bool.eq_false_iff.mp hstray.2 hs⟩
      | false => exact .inr ⟨if_neg fun hc => Bool.eq_false_iff.mp hs hc.2, ⟨hp.1, hs⟩, rfl⟩
  missed p hp := by
    rw [h, Bool.and_eq_false_iff] at hp
    cases port with
    | some port =>
      refine ⟨if_neg fun hc => ?_, id⟩
      rcases hp with hp | hp
      · exact Bool.eq_false_iff.mp hp hc.1
      · exact Bool.eq_false_iff.mp hp hc.2
    | none =>
      have hcov : covers sourceOf src p = false := hp.resolve_right fun hp => by cases hp
      exact ⟨if_neg fun hc => Bool.eq_false_iff.mp hcov hc.1,
        fun hstray => Bool.eq_false_iff.mp hcov hstray.1⟩
  expected _ _ := rfl

theorem adds_block {port : UInt16} {r : Rule (Match α)} (hv : r.verdict = .drop)
    (h : ∀ p, r.cond.holds p = (covers sourceOf src p && (some port).all (· == p.port))) :
    Adds sourceOf portsOf r (.firewallBlock port src) where
  matched p hp := by
    rw [h, Bool.and_eq_true] at hp
    rw [hv]
    exact .inl ⟨if_pos ⟨hp.1, eq_of_beq hp.2⟩, id⟩
  missed p hp := by
    rw [h, Bool.and_eq_false_iff] at hp
    refine ⟨if_neg fun hc => ?_, id⟩
    rcases hp with hp | hp
    · exact Bool.eq_false_iff.mp hp hc.1
    · exact Bool.eq_false_iff.mp hp (beq_of_eq hc.2)
  expected _ _ := rfl

/-- What a call does to the table: a new one, or one more rule. -/
theorem apply_eq_some (portsOf : String → UInt16 → Bool)
    (h : apply sourceOf table op = some after) :
    (∃ preset, op = .applyFirewallPreset preset ∧ after = some ⟨[], inputPolicy preset⟩) ∨
      ∃ chain r, table = some chain ∧ after = some (chain.add r) ∧ Adds sourceOf portsOf r op := by
  cases op with
  | applyFirewallPreset preset => exact .inl ⟨preset, rfl, (Option.some.inj h).symm⟩
  | firewallAllow service src port =>
    obtain ⟨chain, r, htable, hafter, hv, hholds⟩ := nftAddRule_eq_some (v := .accept) rfl h
    exact .inr ⟨chain, r, htable, hafter, adds_allow hv hholds⟩
  | firewallBlock port src =>
    obtain ⟨chain, r, htable, hafter, hv, hholds⟩ := nftAddRule_eq_some (v := .drop) rfl h
    exact .inr ⟨chain, r, htable, hafter, adds_block hv hholds⟩

/-- The step lemma of the verdict law. -/
theorem followsHistory_step_iff {w w' : World α} (hw : FollowsHistory sourceOf portsOf w)
    (h : step sourceOf w op = some w') :
    FollowsHistory sourceOf portsOf w' ↔ Heeded sourceOf portsOf w op := by
  obtain ⟨after, hafter, rfl⟩ := Option.map_eq_some_iff.1 h
  rcases apply_eq_some portsOf hafter with
    ⟨preset, rfl, rfl⟩ | ⟨chain, r, htable, rfl, hadds⟩
  · exact iff_of_true (fun _ => rfl) fun _ => ⟨fun _ hv => (by cases hv), fun hstray => hstray.elim⟩
  · refine forall_congr' fun p => ?_
    have hexpected : expected sourceOf portsOf p w.history =
        some (chain.verdict Match.holds p) := by
      rw [← hw p, World.verdict, htable]
      rfl
    rw [World.decided, htable, hadds.expected, hexpected, Option.map_some, Option.some_inj]
    refine Iff.trans ?_ (verdict_add_iff (hadds.matched p) (hadds.missed p))
    cases asks sourceOf portsOf p op with
    | none => exact Option.some_inj
    | some v => exact Option.some_inj

/-- Where both tables follow the history, a permission without a port opens no other port. -/
theorem opensOnly_of_followsHistory {w w' : World α} (hw : FollowsHistory sourceOf portsOf w)
    (hw' : FollowsHistory sourceOf portsOf w') (h : step sourceOf w op = some w') :
    OpensOnly sourceOf portsOf w op := by
  rintro service src after rfl hafter p hport haccept
  cases h.symm.trans hafter
  obtain ⟨table, -, rfl⟩ := Option.map_eq_some_iff.1 h
  have hasks : asks sourceOf portsOf p (.firewallAllow service src none) = none :=
    if_neg fun hc => Bool.eq_false_iff.mp hport hc.2
  rw [hw' p] at haccept
  rw [hw p, ← haccept]
  change _ = (asks sourceOf portsOf p (.firewallAllow service src none)).or _
  rw [hasks, Option.none_or]

/-- In every run of calls that come through, the verdicts are those that were asked for last, and
permissions without a port open no other port, exactly if every call is heeded when it is made. -/
theorem firewall_iff (sourceOf : String → Option (α → Bool)) (portsOf : String → UInt16 → Bool)
    (ops : List Op) :
    Always (step sourceOf) (FollowsHistory sourceOf portsOf) {} ops ∧
        Meets (step sourceOf) (OpensOnly sourceOf portsOf) {} ops ↔
      Meets (step sourceOf) (Heeded sourceOf portsOf) {} ops := by
  have halways : Always (step sourceOf) (FollowsHistory sourceOf portsOf) {} ops ↔
      Meets (step sourceOf) (Heeded sourceOf portsOf) {} ops :=
    always_iff_meets followsHistory_step_iff (fun _ => rfl) ops
  constructor
  · exact fun h => halways.1 h.1
  · intro h
    exact ⟨halways.2 h, Always.meets_between opensOnly_of_followsHistory (halways.2 h)⟩

/-- Single addresses as sources, and the port of `ssh`. -/
def hostOf (text : String) : Option (String → Bool) := some (· == text)

def sshPort (service : String) (port : UInt16) : Bool := service == "ssh" && port == 22

/-- A block comes too late for a port that is permitted already, and a permission without a port
opens all of them. -/
theorem firewall_first_rule_wins :
    ¬Always (step hostOf) (FollowsHistory hostOf sshPort) {}
        [.applyFirewallPreset .publicNet, .firewallAllow "ssh" none (some 22),
          .firewallBlock 22 (some "203.0.113.9")] ∧
      ¬Meets (step hostOf) (OpensOnly hostOf sshPort) {}
        [.applyFirewallPreset .publicNet, .firewallAllow "ssh" none none] := by
  constructor
  · intro h
    have hlast := (h.2 _ rfl).2 _ rfl
    have hverdict := (hlast.2 _ rfl) ⟨"203.0.113.9", 22⟩
    exact absurd hverdict (by decide)
  · intro h
    have hopens := ((h _ rfl).2 _ rfl).1 "ssh" none _ rfl rfl ⟨"203.0.113.9", 80⟩ rfl rfl
    exact absurd hopens (by decide)

end Quantra.Firewall
