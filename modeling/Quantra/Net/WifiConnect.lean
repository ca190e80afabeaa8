import Quantra.Lib.Effects
import Quantra.Net.WifiScan

/-! `wifi_connect`: what it leaves in `wpa_supplicant` and in its configuration file. -/
namespace Quantra.WifiConnect
open Effects NetConfig Wifi

/-- What is set of a network; the quotes around an SSID or a passphrase are taken off. -/
structure Network where
  ssid : Option String := none
  scanSsid : Option String := none
  keyMgmt : Option String := none
  psk : Option String := none
  disabled : Bool := true
  deriving DecidableEq, Repr

/-- The `wpa_supplicant` of an interface: its networks with their ids if it runs, and those in its
configuration file if there is one. -/
structure Supplicant where
  running : Option (List (Network × ℕ))
  conf : Option (List Network)
  deriving DecidableEq, Repr

def Supplicant.configured (s : Supplicant) : List Network := (s.running.getD []).map Prod.fst

/-- The network blocks for an SSID. -/
def Supplicant.blocks (ssid : String) (s : Supplicant) : ℕ :=
  s.configured.countP fun n => n.ssid = some ssid

/-- How a command goes: whether it takes effect, and what it is seen to come to. -/
structure Ran (α : Type) where
  applied : Bool
  result : Except String α

def Ran.after {α : Type} (r : Ran α) (effect : Supplicant → Supplicant) (s : Supplicant) :
    Supplicant :=
  if r.applied then effect s else s

def Ran.exits (r : Ran Output) : Bool :=
  match r.result with
  | .ok output => output.success
  | .error _ => false

/-- A call and how the commands go that it may run. -/
structure Call where
  ssid : String
  password : Option String
  security : WifiSecurity
  hidden : Bool
  createDirAll : Except String Unit
  write : Ran Unit
  ping : Except String Output
  start : Ran Output
  addNetwork : Ran Output
  setSsid : Ran Output
  setScanSsid : Ran Output
  setKey : Ran Output
  enableNetwork : Ran Output
  selectNetwork : Ran Output
  saveConfig : Ran Output
  status : ℕ → Except String Output

/-! `wpa_supplicant`. -/

/-- It loads the configuration file; one that runs already goes on with its networks. -/
def Supplicant.start (s : Supplicant) : Supplicant :=
  { s with running := some (s.running.getD (s.conf.getD []).zipIdx) }

def nextId : List (Network × ℕ) → ℕ
  | [] => 0
  | b :: bs => max (b.2 + 1) (nextId bs)

def Supplicant.addNetwork (s : Supplicant) : Supplicant :=
  { s with running := s.running.map fun bs => bs ++ [({}, nextId bs)] }

inductive Setting
  | ssid (value : String)
  | scanSsid (value : String)
  | keyMgmt (value : String)
  | psk (value : String)
  deriving DecidableEq, Repr

def Setting.put : Setting → Network → Network
  | .ssid v, n => { n with ssid := some v }
  | .scanSsid v, n => { n with scanSsid := some v }
  | .keyMgmt v, n => { n with keyMgmt := some v }
  | .psk v, n => { n with psk := some v }

/-- The commands that `run_wpa` is given. An id is `none` if the text that stands for it is not that
of a network. -/
inductive Command
  | setNetwork (id : Option ℕ) (setting : Setting)
  | enableNetwork (id : Option ℕ)
  | selectNetwork (id : Option ℕ)
  | saveConfig
  deriving DecidableEq, Repr

def Supplicant.update (s : Supplicant) (f : Network × ℕ → Network) : Supplicant :=
  { s with running := s.running.map fun bs => bs.map fun b => (f b, b.2) }

/-- What a command does that `wpa_supplicant` accepts. -/
def Command.effect : Command → Supplicant → Supplicant
  | .setNetwork id setting, s => s.update fun b => if id = some b.2 then setting.put b.1 else b.1
  | .enableNetwork id, s => s.update fun b =>
      if id = some b.2 then { b.1 with disabled := false } else b.1
  | .selectNetwork none, s => s
  -- the others are disabled
  | .selectNetwork (some i), s => s.update fun b => { b.1 with disabled := b.2 ≠ i }
  | .saveConfig, s => { s with conf := s.running.elim s.conf fun bs => some (bs.map Prod.fst) }

/-! `wifi.rs`. -/

abbrev Wpa (α : Type) := Eff Supplicant String α

def perform {α : Type} (effect : Supplicant → Supplicant) (r : Ran α) : Wpa α := do
  modify (r.after effect)
  answer r.result

/-- A command whose exit status is looked at. -/
def checked (context : String) (failure : Output → String) (effect : Supplicant → Supplicant)
    (r : Ran Output) : Wpa Unit := do
  let output ← mapErr (context ++ ·) (perform effect r)
  if output.success then pure () else throw (failure output)

/-- `ping` finds a `wpa_supplicant` that runs. -/
def pongs (ping : Except String Output) (s : Supplicant) : Bool :=
  match ping with
  | .ok output => s.running.isSome && output.success && contains output.stdout "PONG"
  | .error _ => false

def writeBase (r : Ran Unit) (s : Supplicant) : Wpa Unit :=
  if s.conf.isNone then
    mapErr ("Failed to write wpa_supplicant base config: " ++ ·)
      (perform (fun s => { s with conf := some [] }) r)
  else pure ()

def ensureWpaSupplicant (c : Call) : Wpa Unit := do
  mapErr ("Failed to create /run/quantra-system: " ++ ·) (answer c.createDirAll)
  writeBase c.write (← get)
  if pongs c.ping (← get) then pure ()
  else
    checked "Failed to start wpa_supplicant: "
      (fun output => "wpa_supplicant failed: " ++ Text.trim output.stderr) Supplicant.start c.start

def runWpa (cmd : Command) (r : Ran Output) : Wpa Unit :=
  checked "Failed to run wpa_cli: " (fun output => "wpa_cli failed: " ++ Text.trim output.stderr)
    cmd.effect r

/-- The id that is printed, unless no network is added. -/
def addNetwork (r : Ran Output) : Wpa (Option ℕ) := do
  let s ← get
  checked "wpa_cli add_network failed: "
    (fun output => "wpa_cli add_network failed: " ++ output.stderr) Supplicant.addNetwork r
  return if r.applied then s.running.map nextId else none

/-- Its failure is not looked at. -/
def setScanSsid (c : Call) (id : Option ℕ) : Wpa Unit :=
  if c.hidden then ignore (runWpa (.setNetwork id (.scanSsid "1")) c.setScanSsid) else pure ()

def setKey (c : Call) (id : Option ℕ) : Wpa Unit :=
  match c.security with
  | .openNetwork => runWpa (.setNetwork id (.keyMgmt "NONE")) c.setKey
  | .wpa2Psk | .wpa3Psk =>
    match c.password with
    | none => throw "Password required for secured WiFi"
    | some pw => runWpa (.setNetwork id (.psk pw)) c.setKey
  | .wpa2Enterprise | .wpa3Enterprise => throw "Enterprise WiFi is not supported yet"

/-- The loop over the answers to `status`. -/
def pollStatus (status : ℕ → Except String Output) : ℕ → Except String Unit
  | 0 => .error ("WiFi connection timed out. " ++
      "Tip: check `wpa_cli -i <iface> log_level DEBUG` and try again.")
  | n + 1 =>
    match status 0 with
    | .error e => .error ("wpa_cli status failed: " ++ e)
    | .ok output =>
      if contains output.stdout "wpa_state=COMPLETED" then .ok ()
      else pollStatus (fun i => status (i + 1)) n

/-- `wifi_connect` from the id of the network on. -/
def configure (c : Call) (id : Option ℕ) : Wpa Unit := do
  runWpa (.setNetwork id (.ssid c.ssid)) c.setSsid
  setScanSsid c id
  setKey c id
  runWpa (.enableNetwork id) c.enableNetwork
  runWpa (.selectNetwork id) c.selectNetwork
  ignore (runWpa .saveConfig c.saveConfig)
  answer (pollStatus c.status 30)

def wifiConnect (c : Call) : Wpa Unit := do
  ensureWpaSupplicant c
  let id ← addNetwork c.addNetwork
  configure c id

/-! What a call needs, and what it leaves. -/

def Call.preparesDir (c : Call) (s : Supplicant) : Bool :=
  c.createDirAll.isOk && (s.conf.isSome || c.write.result.isOk)

/-- The base configuration is written. -/
def Call.writes (c : Call) (s : Supplicant) : Bool :=
  c.createDirAll.isOk && s.conf.isNone && c.write.applied

/-- A `wpa_supplicant` is started, and there was none. -/
def Call.starts (c : Call) (s : Supplicant) : Bool :=
  c.preparesDir s && s.running.isNone && c.start.applied

/-- `ensure_wpa_supplicant` comes through. -/
def Call.ensures (c : Call) (s : Supplicant) : Bool :=
  c.preparesDir s && (pongs c.ping s || c.start.exits)

/-- The supplicant with the base configuration, if it is written. -/
def Call.based (c : Call) (s : Supplicant) : Supplicant :=
  { s with conf := if c.writes s then some [] else s.conf }

/-- What `ensure_wpa_supplicant` leaves. -/
def Call.prepared (c : Call) (s : Supplicant) : Supplicant :=
  { c.based s with running := if c.starts s then some (s.conf.getD []).zipIdx else s.running }

/-- A network is added. -/
def Call.adds (c : Call) (s : Supplicant) : Bool :=
  c.ensures s && c.addNetwork.applied && (c.starts s || s.running.isSome)

def Call.keyAccepted (c : Call) : Bool :=
  match c.security with
  | .openNetwork => c.setKey.exits
  | .wpa2Psk | .wpa3Psk => c.password.isSome && c.setKey.exits
  | .wpa2Enterprise | .wpa3Enterprise => false

/-- From the id on, every command up to `save_config` exits with success. -/
def Call.reachesSave (c : Call) : Bool :=
  c.setSsid.exits && c.keyAccepted && c.enableNetwork.exits && c.selectNetwork.exits

def completed : Except String Output → Bool
  | .ok output => contains output.stdout "wpa_state=COMPLETED"
  | .error _ => false

/-- One of the 30 answers to `status` is that the connection is there, and none before is missing. -/
def Call.completes (c : Call) : Bool :=
  (List.range 30).any fun i =>
    completed (c.status i) && (List.range i).all fun j => (c.status j).isOk

/-- The call comes through. -/
def Call.connects (c : Call) (s : Supplicant) : Bool :=
  c.ensures s && c.addNetwork.exits && c.reachesSave && c.completes

/-- `save_config` takes effect. -/
def Call.saves (c : Call) (s : Supplicant) : Bool :=
  c.ensures s && c.addNetwork.exits && c.reachesSave && c.saveConfig.applied &&
    (c.starts s || s.running.isSome)

section Spec
variable {α : Type} {c : Call} {s t : Supplicant} {I J K : Supplicant → Prop}
  {effect : Supplicant → Supplicant}

theorem perform_spec {r : Ran α} (h : ∀ s, I s → J (r.after effect s)) :
    Triple I (perform effect r) (fun a t => r.result = .ok a ∧ J t)
      fun e t => r.result = .error e ∧ J t := by
  refine triple_bind (triple_modify (Q := fun _ => J) h) fun _ => ?_
  exact triple_answer (fun a t ht hr => ⟨hr, ht⟩) fun e t ht hr => ⟨hr, ht⟩

theorem decided_perform {r : Ran α} (h : ∀ s, I s → J (r.after effect s)) :
    Decided I (perform effect r) r.result.isOk J :=
  triple_bind (triple_modify (Q := fun _ => J) h) fun _ => decided_answer fun _ ht => ht

theorem exits_of_ok {r : Ran Output} {output : Output} (h : r.result = .ok output) :
    r.exits = output.success := by
  unfold Ran.exits
  rw [h]

theorem exits_of_error {r : Ran Output} {e : String} (h : r.result = .error e) :
    r.exits = false := by
  unfold Ran.exits
  rw [h]

theorem decided_checked {context : String} {failure : Output → String} {r : Ran Output}
    (h : ∀ s, I s → J (r.after effect s)) :
    Decided I (checked context failure effect r) r.exits J := by
  refine triple_bind (triple_mapErr (perform_spec h) fun e t ht => ?_) fun output => ?_
  · exact ⟨exits_of_error ht.1, ht.2⟩
  · refine triple_ite (fun hok => triple_pure fun t ht => ?_) fun hno => triple_throw fun t ht => ?_
    · exact ⟨(exits_of_ok ht.1).trans hok, ht.2⟩
    · exact ⟨(exits_of_ok ht.1).trans (Bool.eq_false_iff.2 hno), ht.2⟩

/-! `ensure_wpa_supplicant`. -/

theorem decided_writeBase (hdir : c.createDirAll.isOk = true) :
    Decided (· = s) (writeBase c.write s) (s.conf.isSome || c.write.result.isOk)
      (· = c.based s) := by
  have hbased : c.based s =
      { s with conf := if s.conf.isNone && c.write.applied then some [] else s.conf } := by
    unfold Call.based Call.writes
    rw [hdir, Bool.true_and]
  rw [hbased]
  obtain ⟨running, conf⟩ := s
  cases conf with
  | some nets => exact decided_pure fun t ht => ht
  | none =>
    refine (decided_perform fun t ht => ?_).mapErr
    rw [ht]
    cases happlied : c.write.applied <;> simp [Ran.after, happlied]

theorem prepared_eq_based (h : c.starts s = false) : c.prepared s = c.based s := by
  unfold Call.prepared
  rw [h]
  rfl

theorem prepared_eq_self (h : c.createDirAll.isOk = false) : c.prepared s = s := by
  have hstarts : c.starts s = false := by
    unfold Call.starts Call.preparesDir
    simp only [h, Bool.false_and]
  rw [prepared_eq_based hstarts]
  unfold Call.based Call.writes
  simp only [h, Bool.false_and, Bool.false_eq_true, if_false]

theorem not_starts_of_pongs (h : pongs c.ping s = true) : c.starts s = false := by
  have hrunning : s.running.isSome = true := by
    unfold pongs at h
    split at h
    · simp only [Bool.and_eq_true] at h
      exact h.1.1
    · cases h
  unfold Call.starts
  rw [Option.isNone_eq_false_iff.2 hrunning, Bool.and_false, Bool.false_and]

/-- A start where one runs already changes nothing. -/
theorem prepared_eq_start (h : c.preparesDir s = true) :
    c.prepared s = c.start.after Supplicant.start (c.based s) := by
  have hsaved : (c.based s).conf.getD [] = s.conf.getD [] := by
    unfold Call.based Call.writes
    cases s.conf with
    | some nets => simp
    | none => split_ifs <;> rfl
  unfold Call.prepared Call.starts Ran.after Supplicant.start
  rw [h, hsaved]
  cases hrunning : s.running with
  | none => cases c.start.applied <;> simp [Call.based, hrunning]
  | some bs => cases c.start.applied <;> simp [Call.based, hrunning]

theorem decided_ensureWpaSupplicant :
    Decided (· = s) (ensureWpaSupplicant c) (c.ensures s) (· = c.prepared s) := by
  have hdir : Decided (· = s) (mapErr ("Failed to create /run/quantra-system: " ++ ·)
      (answer c.createDirAll)) c.createDirAll.isOk (· = s) :=
    (decided_answer fun t ht => ht).mapErr
  have hstart : c.preparesDir s = true →
      Decided (· = c.based s) (do
        if pongs c.ping (← get) then pure ()
        else
          checked "Failed to start wpa_supplicant: "
            (fun output => "wpa_supplicant failed: " ++ Text.trim output.stderr) Supplicant.start
            c.start)
        (pongs c.ping s || c.start.exits) (· = c.prepared s) := by
    intro hprepares
    refine triple_bind (triple_get (Q := fun u t => u = c.based s ∧ t = c.based s)
      fun t ht => ⟨ht, ht⟩) fun u => triple_assume fun hu => ?_
    have hpongs : pongs c.ping (c.based s) = pongs c.ping s := rfl
    rw [hu, hpongs]
    cases hp : pongs c.ping s with
    | true =>
      rw [prepared_eq_based (not_starts_of_pongs hp)]
      exact decided_pure fun t ht => ht
    | false =>
      rw [prepared_eq_start hprepares]
      exact decided_checked fun t ht => by rw [ht]
  unfold Call.ensures Call.preparesDir
  rw [Bool.and_assoc]
  refine hdir.bind_decided (fun hok _ => ?_) fun hno t ht => ?_
  · refine triple_bind (triple_get (Q := fun u t => u = s ∧ t = s) fun t ht => ⟨ht, ht⟩) fun u =>
      triple_assume fun hu => ?_
    rw [hu]
    refine (decided_writeBase hok).bind_decided (fun hwrite _ => ?_) fun hwrite t ht => ?_
    · exact hstart (Bool.and_eq_true_iff.2 ⟨hok, hwrite⟩)
    · have hstarts : c.starts s = false := by
        unfold Call.starts Call.preparesDir
        rw [hwrite, Bool.and_false, Bool.false_and, Bool.false_and]
      rw [ht, prepared_eq_based hstarts]
  · rw [ht, prepared_eq_self hno]

/-! From the id on. -/

theorem decided_runWpa {cmd : Command} {r : Ran Output}
    (h : ∀ s, I s → J (r.after cmd.effect s)) : Decided I (runWpa cmd r) r.exits J :=
  decided_checked h

/-- The commands on a network that leave its SSID alone. -/
def Command.isMinor (id : Option ℕ) : Command → Bool
  | .setNetwork _ (.ssid _) => false
  | .setNetwork id' _ => id' = id
  | .enableNetwork id' => id' = id
  | .selectNetwork id' => id' = id
  | .saveConfig => false

variable {id : Option ℕ}

theorem isMinor_scanSsid (v : String) :
    (Command.setNetwork id (.scanSsid v)).isMinor id = true := decide_eq_true rfl

theorem isMinor_keyMgmt (v : String) :
    (Command.setNetwork id (.keyMgmt v)).isMinor id = true := decide_eq_true rfl

theorem isMinor_psk (v : String) :
    (Command.setNetwork id (.psk v)).isMinor id = true := decide_eq_true rfl

theorem isMinor_enableNetwork : (Command.enableNetwork id).isMinor id = true := decide_eq_true rfl

theorem isMinor_selectNetwork : (Command.selectNetwork id).isMinor id = true := decide_eq_true rfl

theorem after_keeps {r : Ran Output} (h : J s → J (effect s)) (hs : J s) : J (r.after effect s) := by
  unfold Ran.after
  split_ifs
  · exact h hs
  · exact hs

theorem decided_minor (hkeep : ∀ cmd : Command, cmd.isMinor id → ∀ s, J s → J (cmd.effect s))
    {cmd : Command} (hcmd : cmd.isMinor id) {r : Ran Output} :
    Decided J (runWpa cmd r) r.exits J :=
  decided_runWpa fun s hs => after_keeps (hkeep cmd hcmd s) hs

theorem decided_setKey (hkeep : ∀ cmd : Command, cmd.isMinor id → ∀ s, J s → J (cmd.effect s)) :
    Decided J (setKey c id) c.keyAccepted J := by
  have hpsk : Decided J (match c.password with
      | none => throw "Password required for secured WiFi"
      | some pw => runWpa (.setNetwork id (.psk pw)) c.setKey)
      (c.password.isSome && c.setKey.exits) J := by
    cases c.password with
    | none => exact decided_throw fun s hs => hs
    | some pw => exact decided_minor hkeep (isMinor_psk pw)
  unfold setKey Call.keyAccepted
  cases c.security with
  | openNetwork => exact decided_minor hkeep (isMinor_keyMgmt "NONE")
  | wpa2Psk => exact hpsk
  | wpa3Psk => exact hpsk
  | wpa2Enterprise => exact decided_throw fun s hs => hs
  | wpa3Enterprise => exact decided_throw fun s hs => hs

theorem pollStatus_isOk (status : ℕ → Except String Output) (n : ℕ) :
    (pollStatus status n).isOk = (List.range n).any fun i =>
      completed (status i) && (List.range i).all fun j => (status j).isOk := by
  induction n generalizing status with
  | zero => rfl
  | succ n ih =>
    rw [List.range_succ_eq_map, List.any_cons, List.any_map]
    have hall : ∀ i, ((List.range (i + 1)).all fun j => (status j).isOk) =
        ((status 0).isOk && (List.range i).all fun j => (status (j + 1)).isOk) := by
      intro i
      rw [List.range_succ_eq_map, List.all_cons, List.all_map]
      rfl
    simp only [Function.comp_def, Nat.succ_eq_add_one, hall]
    unfold pollStatus
    cases status 0 with
    | error e => simp [completed, Except.isOk, Except.toBool]
    | ok output =>
      have hcompleted : completed (.ok output) = contains output.stdout "wpa_state=COMPLETED" := rfl
      rw [hcompleted]
      dsimp only
      cases contains output.stdout "wpa_state=COMPLETED" with
      | true => rfl
      | false => exact ih fun i => status (i + 1)

theorem configure_spec
    (hssid : ∀ s, I s → J (c.setSsid.after (Command.setNetwork id (.ssid c.ssid)).effect s))
    (hkeep : ∀ cmd : Command, cmd.isMinor id → ∀ s, J s → J (cmd.effect s))
    (hsave : ∀ s, J s → K (c.saveConfig.after Command.saveConfig.effect s)) :
    Triple I (configure c id) (fun _ t => (c.reachesSave && c.completes) = true ∧ K t)
      fun _ t => (c.reachesSave && c.completes) = false ∧ if c.reachesSave then K t else J t := by
  have hstop : c.reachesSave = false → ∀ (e : String) t, J t →
      (c.reachesSave && c.completes) = false ∧ if c.reachesSave then K t else J t := by
    intro hno e t ht
    rw [hno]
    exact ⟨rfl, ht⟩
  refine (decided_runWpa hssid).bind (fun hset _ => ?_) fun hno =>
    hstop (by simp [Call.reachesSave, hno])
  refine triple_bind (Q := fun _ => J) ?_ fun _ => ?_
  · refine triple_ite (fun _ => ?_) fun _ => triple_pure fun t ht => ht
    exact (decided_minor hkeep (isMinor_scanSsid "1")).ignore
  refine (decided_setKey hkeep).bind (fun hkey _ => ?_) fun hno =>
    hstop (by simp [Call.reachesSave, hno])
  refine (decided_minor hkeep isMinor_enableNetwork).bind (fun henable _ => ?_) fun hno =>
    hstop (by simp [Call.reachesSave, hno])
  refine (decided_minor hkeep isMinor_selectNetwork).bind (fun hselect _ => ?_) fun hno =>
    hstop (by simp [Call.reachesSave, hno])
  have hreaches : c.reachesSave = true := by
    unfold Call.reachesSave
    rw [hset, hkey, henable, hselect]
    rfl
  refine triple_bind (decided_runWpa hsave).ignore fun _ => ?_
  rw [hreaches, Bool.true_and]
  have hpoll : Decided K (answer (pollStatus c.status 30)) c.completes K := by
    have h := decided_answer (ε := String) (r := pollStatus c.status 30) fun s (hs : K s) => hs
    rwa [pollStatus_isOk] at h
  exact hpoll

/-! What the commands do to the networks. -/

theorem addNetwork_spec {r : Ran Output} : Triple (· = s) (addNetwork r)
    (fun id t => (r.exits = true ∧ id = if r.applied then s.running.map nextId else none) ∧
      t = r.after Supplicant.addNetwork s)
    fun _ t => r.exits = false ∧ t = r.after Supplicant.addNetwork s := by
  refine triple_bind (triple_get (Q := fun u t => u = s ∧ t = s) fun t ht => ⟨ht, ht⟩) fun u =>
    triple_assume fun hu => ?_
  have hadd : Decided (· = s) (checked "wpa_cli add_network failed: "
      (fun output => "wpa_cli add_network failed: " ++ output.stderr) Supplicant.addNetwork r)
      r.exits (· = r.after Supplicant.addNetwork s) :=
    decided_checked fun t ht => by rw [ht]
  refine hadd.bind (fun hexits _ => triple_pure fun t ht => ?_) fun hno e t ht => ⟨hno, ht⟩
  rw [hu]
  exact ⟨⟨hexits, rfl⟩, ht⟩

theorem update_eq_self {f : Network × ℕ → Network} (h : ∀ b, f b = b.1) : s.update f = s := by
  unfold Supplicant.update
  cases s with
  | mk running conf => simp [h]

/-- A command for no network has no effect. -/
theorem effect_minor_none {cmd : Command} (hcmd : cmd.isMinor none) : cmd.effect s = s := by
  cases cmd with
  | setNetwork id setting =>
    cases setting with
    | ssid v => cases hcmd
    | scanSsid v | keyMgmt v | psk v =>
      obtain rfl := of_decide_eq_true hcmd
      exact update_eq_self fun b => rfl
  | enableNetwork id =>
    obtain rfl := of_decide_eq_true hcmd
    exact update_eq_self fun b => rfl
  | selectNetwork id =>
    obtain rfl := of_decide_eq_true hcmd
    rfl
  | saveConfig => cases hcmd

/-- The SSIDs with the ids of their networks. -/
def Supplicant.labels (s : Supplicant) : Option (List (Option String × ℕ)) :=
  s.running.map fun bs => bs.map fun b => (b.1.ssid, b.2)

/-- The networks of `ls`, and one more. -/
def Supplicant.Extends (ls : List (Option String × ℕ)) (x : Option String) (i : ℕ)
    (s : Supplicant) : Prop :=
  s.labels = some (ls ++ [(x, i)])

theorem labels_update {f : Network × ℕ → Network} {g : Option String × ℕ → Option String}
    (h : ∀ b, (f b).ssid = g (b.1.ssid, b.2)) :
    (s.update f).labels = s.labels.map fun ls => ls.map fun l => (g l, l.2) := by
  unfold Supplicant.labels Supplicant.update
  simp [Function.comp_def, h]

theorem labels_update_of_ssid {f : Network × ℕ → Network} (h : ∀ b, (f b).ssid = b.1.ssid) :
    (s.update f).labels = s.labels := by
  rw [labels_update (g := Prod.fst) h]
  simp

theorem labels_minor {cmd : Command} (hcmd : cmd.isMinor id) :
    (cmd.effect s).labels = s.labels := by
  cases cmd with
  | setNetwork id setting =>
    cases setting with
    | ssid v => cases hcmd
    | scanSsid v | keyMgmt v | psk v =>
      refine labels_update_of_ssid fun b => ?_
      split_ifs <;> rfl
  | enableNetwork id =>
    refine labels_update_of_ssid fun b => ?_
    split_ifs <;> rfl
  | selectNetwork id =>
    cases id with
    | none => rfl
    | some i => exact labels_update_of_ssid fun b => rfl
  | saveConfig => cases hcmd

theorem lt_nextId {bs : List (Network × ℕ)} : ∀ b ∈ bs, b.2 < nextId bs := by
  induction bs with
  | nil => simp
  | cons b bs ih =>
    intro b' hb'
    unfold nextId
    rcases List.mem_cons.1 hb' with rfl | hmem
    · omega
    · have hlt := ih b' hmem
      omega

/-- The id that a new network gets is that of no other. -/
theorem extends_setSsid {ls : List (Option String × ℕ)} {i : ℕ} {v : String}
    (hnew : ∀ l ∈ ls, l.2 < i) (hs : s.Extends ls none i) :
    ((Command.setNetwork (some i) (.ssid v)).effect s).Extends ls (some v) i := by
  have hg : ∀ b : Network × ℕ, (if some i = some b.2 then (Setting.ssid v).put b.1 else b.1).ssid =
      if some i = some b.2 then some v else b.1.ssid := by
    intro b
    split_ifs <;> rfl
  have hold : ls.map (fun l => (if some i = some l.2 then some v else l.1, l.2)) = ls := by
    refine (List.map_congr_left fun l hl => ?_).trans (List.map_id ls)
    have hne : some i ≠ some l.2 := fun heq => by
      have hlt := hnew l hl
      rw [Option.some.inj heq] at hlt
      omega
    rw [if_neg hne]
    rfl
  have hs' : s.labels = some (ls ++ [(none, i)]) := hs
  unfold Supplicant.Extends Command.effect
  rw [labels_update (g := fun l => if some i = some l.2 then some v else l.1) hg, hs',
    Option.map_some, List.map_append, hold, List.map_singleton, if_pos rfl]

/-! The whole call. -/

def Supplicant.ssids (s : Supplicant) : List (Option String) := s.configured.map (·.ssid)

theorem ssids_of_labels {ls : List (Option String × ℕ)} (h : s.labels = some ls) :
    s.ssids = ls.map Prod.fst := by
  unfold Supplicant.labels at h
  unfold Supplicant.ssids Supplicant.configured
  cases hrunning : s.running with
  | none => simp [hrunning] at h
  | some bs =>
    rw [hrunning] at h
    cases h
    simp

/-- What a call leaves: one network more, or what there was, which may have been saved. -/
def Leaves (c : Call) (s t : Supplicant) : Prop :=
  if c.adds s then
    ∃ x, t.ssids = (c.prepared s).ssids ++ [x] ∧
      (c.connects s → x = if c.setSsid.applied then some c.ssid else none)
  else
    t.configured = (c.prepared s).configured ∧
      t.conf = if c.saves s then some (c.prepared s).configured else (c.prepared s).conf

theorem prepared_running : (c.prepared s).running.isSome = (c.starts s || s.running.isSome) := by
  unfold Call.prepared
  cases c.starts s <;> rfl

/-- A network that is added stays, whatever comes after it. -/
theorem leaves_of_labels {ls : List (Option String × ℕ)} {x : Option String} {i : ℕ}
    (hadds : c.adds s = true) (hls : (c.prepared s).labels = some ls)
    (ht : t.Extends ls x i)
    (hx : c.connects s → x = if c.setSsid.applied then some c.ssid else none) : Leaves c s t := by
  unfold Leaves
  rw [if_pos hadds]
  refine ⟨x, ?_, hx⟩
  rw [ssids_of_labels ht, ssids_of_labels hls, List.map_append]
  rfl

theorem connects_eq (hens : c.ensures s = true) (hexits : c.addNetwork.exits = true) :
    c.connects s = (c.reachesSave && c.completes) := by
  unfold Call.connects
  rw [hens, hexits, Bool.true_and, Bool.true_and]

theorem extends_addNetwork {bs : List (Network × ℕ)} (hbs : s.running = some bs) :
    s.addNetwork.Extends (bs.map fun b => (b.1.ssid, b.2)) none (nextId bs) := by
  unfold Supplicant.Extends Supplicant.labels Supplicant.addNetwork
  rw [hbs]
  simp

theorem configure_added {ls : List (Option String × ℕ)} {i : ℕ} (hens : c.ensures s = true)
    (hexits : c.addNetwork.exits = true) (hadds : c.adds s = true)
    (hls : (c.prepared s).labels = some ls) (hnew : ∀ l ∈ ls, l.2 < i) :
    Decided (Supplicant.Extends ls none i) (configure c (some i)) (c.connects s)
      (Leaves c s) := by
  let x := if c.setSsid.applied then some c.ssid else none
  have hssid : ∀ t : Supplicant, t.Extends ls none i →
      (c.setSsid.after (Command.setNetwork (some i) (.ssid c.ssid)).effect t).Extends ls x i := by
    intro t ht
    unfold Ran.after x
    split_ifs
    · exact extends_setSsid hnew ht
    · exact ht
  have hminor : ∀ cmd : Command, cmd.isMinor (some i) → ∀ t : Supplicant, t.Extends ls x i →
      (cmd.effect t).Extends ls x i :=
    fun cmd hcmd t ht => (labels_minor hcmd).trans ht
  have hsave : ∀ t : Supplicant, t.Extends ls x i →
      (c.saveConfig.after Command.saveConfig.effect t).Extends ls x i :=
    fun t ht => after_keeps (fun h => h) ht
  have hleaves : ∀ t : Supplicant, t.Extends ls x i → Leaves c s t :=
    fun t ht => leaves_of_labels hadds hls ht fun _ => rfl
  rw [connects_eq hens hexits]
  refine (configure_spec hssid hminor hsave).mono (fun _ h => h) (fun _ t ht => ⟨ht.1, ?_⟩)
    fun e t ht => ⟨ht.1, ?_⟩
  · exact hleaves t ht.2
  · rw [ite_self] at ht
    exact hleaves t ht.2

theorem conf_saveConfig :
    (Command.saveConfig.effect s).conf =
      if s.running.isSome then some s.configured else s.conf := by
  obtain ⟨running, conf⟩ := s
  cases running <;> rfl

/-- A call that has not come to `save_config`. -/
theorem leaves_prepared (hadds : c.adds s = false) (hsaves : c.saves s = false) :
    Leaves c s (c.prepared s) := by
  unfold Leaves
  simp [hadds, hsaves]

theorem leaves_saved (hens : c.ensures s = true) (hexits : c.addNetwork.exits = true)
    (hadds : c.adds s = false) (hreaches : c.reachesSave = true) :
    Leaves c s (c.saveConfig.after Command.saveConfig.effect (c.prepared s)) := by
  have hsaves : c.saves s = (c.saveConfig.applied && (c.prepared s).running.isSome) := by
    unfold Call.saves
    rw [hens, hexits, hreaches, prepared_running]
    rfl
  unfold Leaves Ran.after
  rw [if_neg (Bool.eq_false_iff.1 hadds), hsaves]
  cases c.saveConfig.applied with
  | false => exact ⟨rfl, rfl⟩
  | true =>
    refine ⟨rfl, ?_⟩
    rw [if_pos rfl, conf_saveConfig, Bool.true_and]

/-- Without a network of its own a call changes nothing before `save_config`. -/
theorem configure_kept (hens : c.ensures s = true) (hexits : c.addNetwork.exits = true)
    (hadds : c.adds s = false) :
    Decided (· = c.prepared s) (configure c none) (c.connects s) (Leaves c s) := by
  have hssid : ∀ t, t = c.prepared s →
      c.setSsid.after (Command.setNetwork none (.ssid c.ssid)).effect t = c.prepared s :=
    fun t ht => after_keeps (J := (· = c.prepared s))
      (fun hu => (update_eq_self fun b => rfl).trans hu) ht
  have hminor : ∀ cmd : Command, cmd.isMinor none → ∀ t, t = c.prepared s →
      cmd.effect t = c.prepared s :=
    fun cmd hcmd t ht => (effect_minor_none hcmd).trans ht
  have hsave : ∀ t, t = c.prepared s →
      c.saveConfig.after Command.saveConfig.effect t =
        c.saveConfig.after Command.saveConfig.effect (c.prepared s) :=
    fun t ht => by rw [ht]
  rw [connects_eq hens hexits]
  refine (configure_spec (J := (· = c.prepared s)) (K := (· = _)) hssid hminor hsave).mono
    (fun _ h => h) (fun _ t ht => ⟨ht.1, ?_⟩) fun e t ht => ⟨ht.1, ?_⟩
  · rw [ht.2]
    exact leaves_saved hens hexits hadds (Bool.and_eq_true_iff.1 ht.1).1
  · cases hreaches : c.reachesSave with
    | true =>
      rw [hreaches, if_pos rfl] at ht
      rw [ht.2]
      exact leaves_saved hens hexits hadds hreaches
    | false =>
      rw [hreaches, if_neg Bool.false_ne_true] at ht
      rw [ht.2]
      refine leaves_prepared hadds ?_
      unfold Call.saves
      simp [hreaches]

/-- The id that `add_network` comes to, and what it leaves, if a network is added. -/
theorem added_of_adds (hens : c.ensures s = true) (hadds : c.adds s = true) :
    ∃ ls i, (c.prepared s).labels = some ls ∧ (∀ l ∈ ls, l.2 < i) ∧
      (c.addNetwork.after Supplicant.addNetwork (c.prepared s)).Extends ls none i ∧
      (if c.addNetwork.applied then (c.prepared s).running.map nextId else none) = some i := by
  unfold Call.adds at hadds
  rw [hens, Bool.true_and, Bool.and_eq_true, ← prepared_running] at hadds
  obtain ⟨happlied, hruns⟩ := hadds
  obtain ⟨bs, hbs⟩ := Option.isSome_iff_exists.1 hruns
  refine ⟨bs.map fun b => (b.1.ssid, b.2), nextId bs, ?_, ?_, ?_, ?_⟩
  · unfold Supplicant.labels
    rw [hbs]
    rfl
  · intro l hl
    obtain ⟨b, hb, rfl⟩ := List.mem_map.1 hl
    exact lt_nextId b hb
  · unfold Ran.after
    rw [if_pos happlied]
    exact extends_addNetwork hbs
  · rw [if_pos happlied, hbs]
    rfl

theorem kept_of_not_adds (hens : c.ensures s = true) (hadds : c.adds s = false) :
    c.addNetwork.after Supplicant.addNetwork (c.prepared s) = c.prepared s ∧
      (if c.addNetwork.applied then (c.prepared s).running.map nextId else none) = none := by
  unfold Call.adds at hadds
  rw [hens, Bool.true_and, Bool.and_eq_false_iff, ← prepared_running] at hadds
  unfold Ran.after Supplicant.addNetwork
  rcases hadds with happlied | hruns
  · simp [happlied]
  · rw [Option.isSome_eq_false_iff, Option.isNone_iff_eq_none] at hruns
    rw [hruns, Option.map_none, ← hruns]
    exact ⟨ite_self _, by rw [hruns]; exact ite_self _⟩

theorem fails_of_not_ensures (h : c.ensures s = false) :
    c.connects s = false ∧ c.adds s = false ∧ c.saves s = false := by
  unfold Call.connects Call.adds Call.saves
  simp [h]

theorem fails_of_not_exits (h : c.addNetwork.exits = false) :
    c.connects s = false ∧ c.saves s = false := by
  unfold Call.connects Call.saves
  simp [h]

/-- A network that `add_network` adds before it fails stays, too. -/
theorem leaves_of_not_exits (hens : c.ensures s = true) (hno : c.addNetwork.exits = false) :
    Leaves c s (c.addNetwork.after Supplicant.addNetwork (c.prepared s)) := by
  obtain ⟨hconnects, hsaves⟩ := fails_of_not_exits (s := s) hno
  cases hadds : c.adds s with
  | true =>
    obtain ⟨ls, i, hls, _, hextends, _⟩ := added_of_adds hens hadds
    refine leaves_of_labels hadds hls hextends fun h => ?_
    rw [hconnects] at h
    cases h
  | false =>
    rw [(kept_of_not_adds hens hadds).1]
    exact leaves_prepared hadds hsaves

theorem wifiConnect_spec : Decided (· = s) (wifiConnect c) (c.connects s) (Leaves c s) := by
  refine decided_ensureWpaSupplicant.bind (fun hens _ => ?_) fun hno e t ht => ?_
  · refine triple_bind (addNetwork_spec.mono (fun _ h => h) (fun _ _ h => h) fun e t ht => ?_)
      fun id => triple_assume fun hid => ?_
    · rw [ht.2]
      exact ⟨(fails_of_not_exits ht.1).1, leaves_of_not_exits hens ht.1⟩
    · rw [hid.2]
      cases hadds : c.adds s with
      | true =>
        obtain ⟨ls, i, hls, hnew, hextends, hi⟩ := added_of_adds hens hadds
        rw [hi]
        refine Triple.mono (configure_added hens hid.1 hadds hls hnew) (fun t ht => ?_)
          (fun _ _ h => h) fun _ _ h => h
        rw [ht]
        exact hextends
      | false =>
        obtain ⟨hkept, hnone⟩ := kept_of_not_adds hens hadds
        rw [hkept, hnone]
        exact configure_kept hens hid.1 hadds
  · obtain ⟨hconnects, hadds, hsaves⟩ := fails_of_not_ensures hno
    rw [ht]
    exact ⟨hconnects, leaves_prepared hadds hsaves⟩

end Spec

end Quantra.WifiConnect
