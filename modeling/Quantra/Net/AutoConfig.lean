import Quantra.Lib.Attempts
import Quantra.Lib.Plans
import Quantra.Net.WifiScan

/-! `auto_configure_once`: the interfaces that are tried for an address, where every call has one
answer. -/
namespace Quantra.AutoConfig
open Calls Calls.Prog Attempts NetConfig Wifi

/-- `dhcp_acquire` within its 60 seconds; the address is that of the lease. -/
inductive Dhcp
  | timedOut
  | failed (error : String)
  | lease (ipCidr : Option String)
  deriving DecidableEq, Repr

def Dhcp.hasAddress : Dhcp → Bool
  | .lease (some _) => true
  | _ => false

inductive Call
  | swapRunning
  | clearRunning
  | getAllLinks
  | readConfig
  | setLinkState (interface : String)
  | dhcpAcquire (interface : String)
  | wifiScan (interface : String)
  | wifiConnect (interface ssid : String) (password : Option String) (security : WifiSecurity)
      (hidden : Bool)
  | saveConfig
  deriving DecidableEq, Repr

/-- An answer; each call looks at the field that it asks for. -/
structure Reply where
  running : Bool := false
  result : Except String Unit := .ok ()
  links : Except String (List String) := .ok []
  config : Except String NetworkConfig := .ok .empty
  networks : Except String (List WifiNetwork) := .ok []
  dhcp : Dhcp := .timedOut

/-- How a run comes to its end; an `overflow` is none. -/
inductive Ended
  | ok
  | err (message : String)
  | overflow
  deriving DecidableEq, Repr

abbrev Auto (α : Type) := Prog Call Reply α

def isEthernetIface (name : String) : Bool :=
  "eth".toList.isPrefixOf name.toList || "en".toList.isPrefixOf name.toList ||
    "eno".toList.isPrefixOf name.toList || "ens".toList.isPrefixOf name.toList ||
    "bond".toList.isPrefixOf name.toList

def isWifiIface (name : String) : Bool :=
  "wlan".toList.isPrefixOf name.toList || "wlp".toList.isPrefixOf name.toList

/-- `i32` addition. -/
def addI32 (a b : ℤ) : Option ℤ :=
  if -2 ^ 31 ≤ a + b ∧ a + b < 2 ^ 31 then some (a + b) else none

def profileOf (cfg : NetworkConfig) (ssid : String) : Option WifiProfile :=
  cfg.wifi.find? fun p => p.ssid = ssid

/-- One turn of the loop over the networks. -/
def keepBest (cfg : NetworkConfig) (best : Option (WifiProfile × WifiNetwork)) (net : WifiNetwork) :
    Option (Option (WifiProfile × WifiNetwork)) :=
  match profileOf cfg net.ssid with
  | none => some best
  | some profile => do
    let score ← addI32 net.signal (if profile.autoconnect then 100 else 0)
    let replace ← match best with
      | none => some true
      | some (_, cur) =>
        let cb := if ((profileOf cfg cur.ssid).map (·.autoconnect)).getD false then 100 else 0
        (addI32 cur.signal cb).map fun top => decide (score > top)
    some (if replace then some (profile, net) else best)

def bestNetwork (cfg : NetworkConfig) (networks : List WifiNetwork) :
    Option (Option (WifiProfile × WifiNetwork)) :=
  networks.foldlM (keepBest cfg) none

/-- The loop over the ethernet interfaces, and what comes after it. -/
def tryEthernet (next : Auto Ended) : List String → Auto Ended
  | [] => next
  | iface :: rest =>
    call (.setLinkState iface) fun r =>
      match r.result with
      | .error e => ret (.err e)
      | .ok _ =>
        call (.dhcpAcquire iface) fun r =>
          if r.dhcp.hasAddress then call .saveConfig fun _ => ret .ok else tryEthernet next rest

/-- The join of a network, and `next` if it comes to no address. -/
def joinWifi (next : Auto Ended) (iface : String) (profile : WifiProfile) : Auto Ended :=
  call (.wifiConnect iface profile.ssid profile.password profile.security profile.hidden) fun r =>
    match r.result with
    | .error e => ret (.err e)
    | .ok _ =>
      call (.dhcpAcquire iface) fun r =>
        match r.dhcp with
        | .timedOut => ret (.err "DHCP timed out: deadline has elapsed")
        | .failed e => ret (.err e)
        | .lease none => next
        | .lease (some _) => call .saveConfig fun _ => ret .ok

/-- The loop over the WiFi interfaces. -/
def tryWifi (cfg : NetworkConfig) : List String → Auto Ended
  | [] => ret (.err "No working network found")
  | iface :: rest =>
    if ¬(cfg.wifiAutoconnect.lookup iface).getD true then tryWifi cfg rest
    else if cfg.wifi = [] then tryWifi cfg rest
    else
      call (.setLinkState iface) fun r =>
        match r.result with
        | .error e => ret (.err e)
        | .ok _ =>
          call (.wifiScan iface) fun r =>
            match bestNetwork cfg (r.networks.toOption.getD []) with
            | none => ret .overflow
            | some none => tryWifi cfg rest
            | some (some (profile, _)) => joinWifi (tryWifi cfg rest) iface profile

def configure : Auto Ended :=
  call .getAllLinks fun r =>
    match r.links with
    | .error e => ret (.err e)
    | .ok interfaces =>
      tryEthernet
        (call .readConfig fun r =>
          tryWifi (r.config.toOption.getD .empty) (interfaces.filter isWifiIface))
        (interfaces.filter isEthernetIface)

/-- An overflow leaves the flag as it is. -/
def autoConfigureOnce : Auto Ended :=
  call .swapRunning fun r =>
    if r.running then ret .ok
    else
      configure.bind fun res =>
        if res = .overflow then ret res else call .clearRunning fun _ => ret res

/-! What a run is to bring about. -/

/-- The score of a network by its profile. -/
def score (cfg : NetworkConfig) (net : WifiNetwork) : ℤ :=
  net.signal + if ((profileOf cfg net.ssid).map (·.autoconnect)).getD false then 100 else 0

def known (cfg : NetworkConfig) (networks : List WifiNetwork) : List WifiNetwork :=
  networks.filter fun net => (profileOf cfg net.ssid).isSome

/-- The known network of the highest score, the first of several. -/
def strongest (cfg : NetworkConfig) (networks : List WifiNetwork) : Option WifiNetwork :=
  (known cfg networks).maxOn? (score cfg)

/-- The score is no `i32`. -/
def outOfRange (cfg : NetworkConfig) (net : WifiNetwork) : Bool :=
  !decide (-2 ^ 31 ≤ score cfg net ∧ score cfg net < 2 ^ 31)

section Candidates
variable (env : Call → Reply)

def config : NetworkConfig := (env .readConfig).config.toOption.getD .empty

def scanned (iface : String) : List WifiNetwork := (env (.wifiScan iface)).networks.toOption.getD []

/-- It has not been disabled. -/
def autoconnects (iface : String) : Bool := ((config env).wifiAutoconnect.lookup iface).getD true

def linkUp (iface : String) : Bool := (env (.setLinkState iface)).result.isOk

def leases (iface : String) : Bool := (env (.dhcpAcquire iface)).dhcp.hasAddress

/-- The network that the profile is for is joined. -/
def joins (iface : String) (p : WifiProfile) : Bool :=
  (env (.wifiConnect iface p.ssid p.password p.security p.hidden)).result.isOk

/-- An ethernet interface, or a WiFi interface with a known network in range. -/
def isCandidate (iface : String) : Bool :=
  isEthernetIface iface ||
    autoconnects env iface && !(known (config env) (scanned env iface)).isEmpty

/-- What a candidate would come to if it was tried. -/
def wouldObtain (iface : String) : Bool :=
  linkUp env iface && leases env iface &&
    (isEthernetIface iface ||
      ((strongest (config env) (scanned env iface)).bind fun net =>
        profileOf (config env) net.ssid).any (joins env iface))

def candidates (interfaces : List String) : List String :=
  (interfaces.filter isEthernetIface ++ interfaces.filter isWifiIface).filter (isCandidate env)

/-- The interfaces that have been brought up. -/
def broughtUp (log : List Call) : List String :=
  log.filterMap fun
    | .setLinkState iface => some iface
    | _ => none

/-- The run ends, with an address if there is a candidate that would get one; the candidates are tried
up to that one; and what is joined has the highest score. -/
structure TriesAll (interfaces : List String) : Prop where
  ends : autoConfigureOnce.value env ≠ .overflow
  ok_iff : autoConfigureOnce.value env = .ok ↔
    ∃ iface ∈ candidates env interfaces, wouldObtain env iface
  tried : (upTo (wouldObtain env) (candidates env interfaces)).Sublist
    (broughtUp (autoConfigureOnce.trace env))
  maximal : ∀ iface ssid password security hidden,
    .wifiConnect iface ssid password security hidden ∈ autoConfigureOnce.trace env →
      ∃ net ∈ known (config env) (scanned env iface), net.ssid = ssid ∧
        ∀ other ∈ known (config env) (scanned env iface),
          score (config env) other ≤ score (config env) net

/-- A known network in range has a score that is no `i32`. -/
def overflows (iface : String) : Bool :=
  linkUp env iface && !isEthernetIface iface &&
    (known (config env) (scanned env iface)).any (outOfRange (config env))

/-- The link cannot be brought up; or a WiFi network cannot be joined, or gives no answer to DHCP. -/
def failsHard (iface : String) : Bool :=
  !linkUp env iface || !isEthernetIface iface &&
    ((strongest (config env) (scanned env iface)).bind fun net =>
      profileOf (config env) net.ssid).any fun p =>
        !joins env iface p || !((env (.dhcpAcquire iface)).dhcp matches .lease _)

/-- The interfaces that are there to be tried. -/
def attempts (interfaces : List String) : List String :=
  interfaces.filter isEthernetIface ++ (interfaces.filter isWifiIface).filter fun iface =>
    autoconnects env iface && !(config env).wifi.isEmpty

/-- Before the first that would get an address, no score overflows, and no interface fails hard that has
a candidate behind it. -/
def NothingInTheWay (interfaces : List String) : Prop :=
  ∀ before iface after, attempts env interfaces = before ++ iface :: after →
    (∀ b ∈ before, ¬wouldObtain env b) →
      ¬overflows env iface ∧ (failsHard env iface → ∀ b ∈ after, ¬isCandidate env b)

def judge (iface : String) : Verdict :=
  if overflows env iface then .breaks
  else if failsHard env iface then .stops
  else if wouldObtain env iface then .works
  else .passes

end Candidates

/-! The running maximum. -/

section Best
variable {cfg : NetworkConfig} {networks : List WifiNetwork} {net : WifiNetwork}

theorem known_concat_of_none (h : profileOf cfg net.ssid = none) :
    known cfg (networks ++ [net]) = known cfg networks := by
  simp [known, h]

theorem known_concat_of_some {p : WifiProfile} (h : profileOf cfg net.ssid = some p) :
    known cfg (networks ++ [net]) = known cfg networks ++ [net] := by
  simp [known, h]

theorem addI32_score {p : WifiProfile} (h : profileOf cfg net.ssid = some p) :
    addI32 net.signal (if p.autoconnect then 100 else 0) =
      if outOfRange cfg net then none else some (score cfg net) := by
  have hscore : net.signal + (if p.autoconnect then 100 else 0) = score cfg net := by
    rw [score, h, Option.map_some, Option.getD_some]
  rw [addI32, hscore, outOfRange]
  by_cases hfits : -2 ^ 31 ≤ score cfg net ∧ score cfg net < 2 ^ 31
  · rw [if_pos hfits, decide_eq_true hfits]
    rfl
  · rw [if_neg hfits, decide_eq_false hfits]
    rfl

/-- A network with its profile. -/
def withProfile (cfg : NetworkConfig) (net : WifiNetwork) : Option (WifiProfile × WifiNetwork) :=
  (profileOf cfg net.ssid).map fun p => (p, net)

/-- One turn, where the best so far has been scored already. -/
theorem keepBest_of_none {best : Option (WifiProfile × WifiNetwork)}
    (h : profileOf cfg net.ssid = none) : keepBest cfg best net = some best := by
  rw [keepBest, h]

theorem keepBest_of_outOfRange {best : Option (WifiProfile × WifiNetwork)} {p : WifiProfile}
    (h : profileOf cfg net.ssid = some p) (hout : outOfRange cfg net) :
    keepBest cfg best net = none := by
  rw [keepBest, h]
  dsimp only
  rw [addI32_score h, if_pos hout]
  rfl

theorem keepBest_first {p : WifiProfile} (h : profileOf cfg net.ssid = some p)
    (hout : ¬outOfRange cfg net) : keepBest cfg none net = some (withProfile cfg net) := by
  rw [keepBest, h, withProfile, h]
  dsimp only
  rw [addI32_score h, if_neg hout]
  rfl

theorem keepBest_next {p q : WifiProfile} {cur : WifiNetwork} (h : profileOf cfg net.ssid = some p)
    (hout : ¬outOfRange cfg net) (hcur : profileOf cfg cur.ssid = some q)
    (hcurout : ¬outOfRange cfg cur) : keepBest cfg (some (q, cur)) net =
      some (withProfile cfg (if score cfg cur < score cfg net then net else cur)) := by
  rw [keepBest, h]
  dsimp only
  rw [addI32_score h, if_neg hout, hcur]
  dsimp only [Option.map_some, Option.getD_some]
  rw [addI32_score hcur, if_neg hcurout]
  by_cases hlt : score cfg cur < score cfg net
  · rw [if_pos hlt, withProfile, h]
    simp [hlt]
  · rw [if_neg hlt, withProfile, hcur]
    simp [hlt]

theorem score_le_strongest {other : WifiNetwork} (h : strongest cfg networks = some net)
    (hother : other ∈ known cfg networks) : score cfg other ≤ score cfg net := by
  have hle := List.le_apply_get_maxOn?_of_mem (f := score cfg) hother
  unfold strongest at h
  simp only [h, Option.get_some] at hle
  exact hle

theorem profileOf_of_mem_known (h : net ∈ known cfg networks) :
    ∃ p, profileOf cfg net.ssid = some p :=
  Option.isSome_iff_exists.1 (List.mem_filter.1 h).2

/-- The loop finds the strongest, unless a score overflows. -/
theorem bestNetwork_eq (cfg : NetworkConfig) (networks : List WifiNetwork) :
    bestNetwork cfg networks = if (known cfg networks).any (outOfRange cfg) then none
      else some ((strongest cfg networks).bind (withProfile cfg)) := by
  induction networks using List.reverseRecOn with
  | nil => rfl
  | append_singleton networks net ih =>
    have hfold : bestNetwork cfg (networks ++ [net]) =
        (bestNetwork cfg networks).bind fun best => keepBest cfg best net := by
      simp only [bestNetwork, List.foldlM_append, List.foldlM_cons, List.foldlM_nil, bind_pure]
      rfl
    rw [hfold, ih]
    cases hprofile : profileOf cfg net.ssid with
    | none =>
      have hkeep : (fun best => keepBest cfg best net) = some :=
        funext fun best => keepBest_of_none hprofile
      rw [strongest, strongest, known_concat_of_none hprofile, hkeep, Option.bind_fun_some]
    | some p =>
      rw [strongest, strongest, known_concat_of_some hprofile, List.any_append,
        List.maxOn?_append, List.maxOn?_singleton]
      by_cases hany : (known cfg networks).any (outOfRange cfg)
      · rw [if_pos hany, hany]
        rfl
      · rw [if_neg hany, Option.bind_some]
        by_cases hout : outOfRange cfg net
        · rw [keepBest_of_outOfRange hprofile hout]
          simp [hout]
        · rw [if_neg (by simp [hany, hout])]
          cases hmax : (known cfg networks).maxOn? (score cfg) with
          | none => exact keepBest_first hprofile hout
          | some cur =>
            have hcur := List.maxOn?_mem hmax
            obtain ⟨q, hq⟩ := profileOf_of_mem_known hcur
            have hcurout : ¬outOfRange cfg cur := fun h => hany (List.any_eq_true.2 ⟨cur, hcur, h⟩)
            have hbest : (some cur).bind (withProfile cfg) = some (q, cur) := by
              rw [Option.bind_some, withProfile, hq, Option.map_some]
            rw [hbest, keepBest_next hprofile hout hq hcurout]
            have hnext : (some cur).merge (maxOn (score cfg)) (some net) =
                some (if score cfg cur < score cfg net then net else cur) := by
              rw [Option.merge_some_some]
              split
              · rename_i hlt
                rw [maxOn_eq_right (Int.not_le.2 hlt)]
              · rename_i hge
                rw [maxOn_eq_left (Int.not_lt.1 hge)]
            rw [hnext, Option.bind_some]

end Best

/-! What the loops do, by the verdicts on their interfaces. -/

/-- The end of a run by what has ended the attempts. -/
def Fits : Option Verdict → Ended → Prop
  | some .works, res => res = .ok
  | some .breaks, res => res = .overflow
  | _, res => ∃ message, res = .err message

section Runs
variable (env : Call → Reply)

/-- A network that is joined is the strongest. -/
def Joined (c : Call) : Prop :=
  ∀ iface ssid password security hidden, c = .wifiConnect iface ssid password security hidden →
    ∃ net, strongest (config env) (scanned env iface) = some net ∧ net.ssid = ssid

/-- The program tries these interfaces. -/
structure Runs (p : Auto Ended) (ifaces : List String) : Prop where
  value : Fits (outcome (judge env) ifaces) (p.value env)
  log : broughtUp (p.trace env) = tried (judge env) ifaces
  joined : ∀ c ∈ p.trace env, Joined env c

variable {env} {p q : Auto Ended} {iface : String} {ifaces eths wfis : List String}

theorem broughtUp_append (xs ys : List Call) : broughtUp (xs ++ ys) = broughtUp xs ++ broughtUp ys :=
  List.filterMap_append

/-- A verdict that ends the run. -/
theorem runs_of_end {verdict : Verdict} (calls : List Call) (hjudge : judge env iface = verdict)
    (hends : verdict ≠ .passes) (hvalue : Fits (some verdict) (p.value env))
    (htrace : p.trace env = calls) (hlog : broughtUp calls = [iface])
    (hjoined : ∀ c ∈ calls, Joined env c) : Runs env p (iface :: ifaces) where
  value := by
    rw [(outcome_cons_of_ne _ (hjudge.trans_ne hends)).1, hjudge]
    exact hvalue
  log := by rw [(outcome_cons_of_ne _ (hjudge.trans_ne hends)).2, htrace, hlog]
  joined := by
    rw [htrace]
    exact hjoined

theorem runs_of_next (calls : List Call) (h : judge env iface = .passes) (hq : Runs env q ifaces)
    (hvalue : p.value env = q.value env) (htrace : p.trace env = calls ++ q.trace env)
    (hlog : broughtUp calls = [iface]) (hjoined : ∀ c ∈ calls, Joined env c) :
    Runs env p (iface :: ifaces) where
  value := by
    rw [(outcome_cons_of_passes _ h).1, hvalue]
    exact hq.value
  log := by
    rw [(outcome_cons_of_passes _ h).2, htrace, broughtUp_append, hlog, hq.log]
    rfl
  joined := by
    intro c hc
    rw [htrace] at hc
    rcases List.mem_append.1 hc with hc | hc
    · exact hjoined c hc
    · exact hq.joined c hc

/-- Calls before and after that have nothing to do with the interfaces. -/
theorem Runs.wrap (before after : List Call) (h : Runs env p ifaces) (hvalue : q.value env = p.value env)
    (htrace : q.trace env = before ++ p.trace env ++ after)
    (hlog : broughtUp before = [] ∧ broughtUp after = [])
    (hjoined : ∀ c ∈ before ++ after, Joined env c) : Runs env q ifaces where
  value := by
    rw [hvalue]
    exact h.value
  log := by
    rw [htrace, broughtUp_append, broughtUp_append, hlog.1, hlog.2, List.nil_append, List.append_nil]
    exact h.log
  joined := by
    intro c hc
    rw [htrace, List.mem_append, List.mem_append] at hc
    rcases hc with (hc | hc) | hc
    · exact hjoined c (List.mem_append_left after hc)
    · exact h.joined c hc
    · exact hjoined c (List.mem_append_right before hc)

theorem fits_iff {o : Option Verdict} {res : Ended} (h : Fits o res) :
    (res = .ok ↔ o = some .works) ∧ (res = .overflow ↔ o = some .breaks) := by
  unfold Fits at h
  split at h
  · subst h
    exact ⟨iff_of_true rfl rfl, by simp⟩
  · subst h
    exact ⟨by simp, iff_of_true rfl rfl⟩
  · rename_i hworks hbreaks
    obtain ⟨message, rfl⟩ := h
    exact ⟨iff_of_false (by simp) hworks, iff_of_false (by simp) hbreaks⟩

/-- What an ethernet interface comes to. -/
theorem judge_ethernet (env : Call → Reply) (h : isEthernetIface iface) : judge env iface =
    if ¬linkUp env iface then .stops else if leases env iface then .works else .passes := by
  cases hlink : linkUp env iface <;> simp [judge, overflows, failsHard, wouldObtain, h, hlink]

theorem tryEthernet_runs (heth : ∀ i ∈ eths, isEthernetIface i) (h : Runs env q ifaces) :
    Runs env (tryEthernet q eths) (eths ++ ifaces) := by
  induction eths with
  | nil => exact h
  | cons iface eths ih =>
    have hjudge := judge_ethernet env (heth iface List.mem_cons_self)
    have hrest := ih fun i hi => heth i (List.mem_cons_of_mem iface hi)
    rw [List.cons_append]
    cases hlink : (env (.setLinkState iface)).result with
    | error e =>
      have hstops : judge env iface = .stops := by
        simp [hjudge, linkUp, hlink, Except.isOk, Except.toBool]
      refine runs_of_end [.setLinkState iface] hstops (by decide) ?_ ?_ rfl (by simp [Joined])
      · exact ⟨e, by simp [tryEthernet, hlink]⟩
      · simp [tryEthernet, hlink]
    | ok _ =>
      have hup : linkUp env iface = true := by simp [linkUp, hlink, Except.isOk, Except.toBool]
      cases hlease : (env (.dhcpAcquire iface)).dhcp.hasAddress with
      | true =>
        have hworks : judge env iface = .works := by simp [hjudge, hup, leases, hlease]
        refine runs_of_end [.setLinkState iface, .dhcpAcquire iface, .saveConfig] hworks
          (by decide) ?_ ?_ rfl (by simp [Joined])
        · simp [tryEthernet, hlink, hlease, Fits]
        · simp [tryEthernet, hlink, hlease]
      | false =>
        have hpasses : judge env iface = .passes := by simp [hjudge, hup, leases, hlease]
        refine runs_of_next [.setLinkState iface, .dhcpAcquire iface] hpasses hrest ?_ ?_ rfl
          (by simp [Joined])
        · simp [tryEthernet, hlink, hlease]
        · simp [tryEthernet, hlink, hlease]

/-- What a joined network comes to. -/
def judgeLease : Dhcp → Verdict
  | .lease (some _) => .works
  | .lease none => .passes
  | _ => .stops

/-- What a WiFi interface comes to. -/
theorem judge_wifi (env : Call → Reply) (h : isEthernetIface iface = false) : judge env iface =
    if ¬linkUp env iface then .stops
    else match bestNetwork (config env) (scanned env iface) with
      | none => .breaks
      | some none => .passes
      | some (some (profile, _)) =>
        if ¬joins env iface profile then .stops else judgeLease (env (.dhcpAcquire iface)).dhcp := by
  cases hlink : linkUp env iface with
  | false => simp [judge, overflows, failsHard, hlink]
  | true =>
    rw [bestNetwork_eq]
    by_cases hany : (known (config env) (scanned env iface)).any (outOfRange (config env))
    · rw [if_pos hany]
      simp [judge, overflows, h, hlink, hany]
    · have hno : overflows env iface = false := by simp [overflows, hany]
      rw [if_neg hany]
      cases hbest : strongest (config env) (scanned env iface) with
      | none => simp [judge, hno, failsHard, wouldObtain, h, hlink, hbest]
      | some net =>
        obtain ⟨profile, hprofile⟩ := profileOf_of_mem_known (List.maxOn?_mem hbest)
        have hwith : (some net).bind (withProfile (config env)) = some (profile, net) := by
          rw [Option.bind_some, withProfile, hprofile, Option.map_some]
        rw [hwith]
        dsimp only
        cases hjoin : joins env iface profile with
        | false => simp [judge, hno, failsHard, h, hlink, hbest, hprofile, hjoin]
        | true =>
          cases hdhcp : (env (.dhcpAcquire iface)).dhcp with
          | timedOut => simp [judge, hno, failsHard, h, hlink, hbest, hprofile, hdhcp, judgeLease]
          | failed e => simp [judge, hno, failsHard, h, hlink, hbest, hprofile, hdhcp, judgeLease]
          | lease ip =>
            cases ip <;> simp [judge, hno, failsHard, wouldObtain, leases, h, hlink, hbest, hprofile,
              hjoin, hdhcp, judgeLease, Dhcp.hasAddress]

/-- The network that is chosen is the strongest, and its profile is the one for it. -/
theorem strongest_of_bestNetwork {profile : WifiProfile} {net : WifiNetwork}
    (h : bestNetwork (config env) (scanned env iface) = some (some (profile, net))) :
    strongest (config env) (scanned env iface) = some net ∧ net.ssid = profile.ssid := by
  rw [bestNetwork_eq] at h
  split at h
  · cases h
  · obtain ⟨net', hbest, hwith⟩ := Option.bind_eq_some_iff.1 (Option.some.inj h)
    obtain ⟨profile', hprofile, hpair⟩ := Option.map_eq_some_iff.1 hwith
    cases hpair
    have hfound := List.find?_some hprofile
    exact ⟨hbest, (of_decide_eq_true hfound).symm⟩

/-- A network is joined, and the interfaces after it are tried if it gives no address. -/
theorem joinWifi_runs {profile : WifiProfile} (hjudge : judge env iface =
      if ¬joins env iface profile then .stops else judgeLease (env (.dhcpAcquire iface)).dhcp)
    (hjoined : Joined env (.wifiConnect iface profile.ssid profile.password profile.security
      profile.hidden))
    (h : Runs env q ifaces) (hvalue : p.value env = (joinWifi q iface profile).value env)
    (htrace : p.trace env =
      [Call.setLinkState iface, .wifiScan iface] ++ (joinWifi q iface profile).trace env) :
    Runs env p (iface :: ifaces) := by
  have hcalls : ∀ after : List Call, (∀ c ∈ after, Joined env c) → ∀ c ∈ .setLinkState iface ::
      .wifiScan iface :: .wifiConnect iface profile.ssid profile.password profile.security
        profile.hidden :: after, Joined env c := by
    intro after hafter
    rw [List.forall_mem_cons, List.forall_mem_cons, List.forall_mem_cons]
    exact ⟨by simp [Joined], by simp [Joined], hjoined, hafter⟩
  have hacquire : ∀ c ∈ [.dhcpAcquire iface], Joined env c := by simp [Joined]
  unfold joinWifi at hvalue htrace
  cases hconnect : (env (.wifiConnect iface profile.ssid profile.password profile.security
      profile.hidden)).result with
  | error e =>
    have hstops : judge env iface = .stops := by
      simp [hjudge, joins, hconnect, Except.isOk, Except.toBool]
    simp only [value_call, trace_call, hconnect, value_ret, trace_ret] at hvalue htrace
    exact runs_of_end _ hstops (by decide) ⟨e, hvalue⟩ htrace rfl (hcalls [] (by simp))
  | ok _ =>
    have hlease : judge env iface = judgeLease (env (.dhcpAcquire iface)).dhcp := by
      simp [hjudge, joins, hconnect, Except.isOk, Except.toBool]
    simp only [value_call, trace_call, hconnect] at hvalue htrace
    -- from here on the answer to DHCP decides
    cases hdhcp : (env (.dhcpAcquire iface)).dhcp with
    | timedOut =>
      rw [hdhcp] at hlease hvalue htrace
      exact runs_of_end _ hlease (by decide) ⟨_, hvalue⟩ htrace rfl (hcalls _ hacquire)
    | failed e =>
      rw [hdhcp] at hlease hvalue htrace
      exact runs_of_end _ hlease (by simp [judgeLease]) ⟨e, hvalue⟩ htrace rfl
        (hcalls _ hacquire)
    | lease ip =>
      cases ip with
      | none =>
        rw [hdhcp] at hlease hvalue htrace
        refine runs_of_next [.setLinkState iface, .wifiScan iface, .wifiConnect iface profile.ssid
          profile.password profile.security profile.hidden, .dhcpAcquire iface] hlease h hvalue
          htrace rfl (hcalls _ hacquire)
      | some ip =>
        rw [hdhcp] at hlease hvalue htrace
        exact runs_of_end _ hlease (by simp [judgeLease]) hvalue htrace rfl
          (hcalls [.dhcpAcquire iface, .saveConfig] (by simp [Joined]))

/-- One interface that is not passed over, and the others after it. -/
theorem tryWifi_cons_runs (hwifi : isEthernetIface iface = false)
    (hauto : autoconnects env iface = true) (hprofiles : (config env).wifi ≠ [])
    (h : Runs env (tryWifi (config env) wfis) ifaces) :
    Runs env (tryWifi (config env) (iface :: wfis)) (iface :: ifaces) := by
  have hjudge := judge_wifi env hwifi
  unfold autoconnects at hauto
  rw [tryWifi, if_neg (not_not.2 hauto), if_neg hprofiles]
  cases hlink : (env (.setLinkState iface)).result with
  | error e =>
    have hstops : judge env iface = .stops := by
      simp [hjudge, linkUp, hlink, Except.isOk, Except.toBool]
    refine runs_of_end [.setLinkState iface] hstops (by decide) ?_ ?_ rfl (by simp [Joined])
    · exact ⟨e, by simp [hlink]⟩
    · simp [hlink]
  | ok _ =>
    have hup : linkUp env iface = true := by simp [linkUp, hlink, Except.isOk, Except.toBool]
    cases hbest : bestNetwork (config env) (scanned env iface) with
    | none =>
      have hbreaks : judge env iface = .breaks := by simp [hjudge, hup, hbest]
      unfold scanned at hbest
      refine runs_of_end [.setLinkState iface, .wifiScan iface] hbreaks (by decide) ?_ ?_ rfl
        (by simp [Joined])
      · simp [hlink, hbest, Fits]
      · simp [hlink, hbest]
    | some best =>
      cases best with
      | none =>
        have hpasses : judge env iface = .passes := by simp [hjudge, hup, hbest]
        unfold scanned at hbest
        refine runs_of_next [.setLinkState iface, .wifiScan iface] hpasses h ?_ ?_ rfl (by simp [Joined])
        · simp [hlink, hbest]
        · simp [hlink, hbest]
      | some pair =>
        obtain ⟨profile, net⟩ := pair
        obtain ⟨hstrongest, hssid⟩ := strongest_of_bestNetwork hbest
        have hjoined : Joined env (.wifiConnect iface profile.ssid profile.password profile.security
            profile.hidden) := by
          rintro _ _ _ _ _ ⟨⟩
          exact ⟨net, hstrongest, hssid⟩
        have hlease : judge env iface = if ¬joins env iface profile then .stops
            else judgeLease (env (.dhcpAcquire iface)).dhcp := by
          rw [hjudge, if_neg (not_not.2 hup), hbest]
        unfold scanned at hbest
        refine joinWifi_runs hlease hjoined h ?_ ?_
        · rw [value_call, hlink, value_call, hbest]
        · rw [trace_call, hlink, trace_call, hbest]
          rfl

theorem tryWifi_runs (hwifi : ∀ i ∈ wfis, isEthernetIface i = false) :
    Runs env (tryWifi (config env) wfis) (wfis.filter fun iface =>
      autoconnects env iface && !(config env).wifi.isEmpty) := by
  induction wfis with
  | nil => exact ⟨⟨_, rfl⟩, rfl, fun c hc => absurd hc List.not_mem_nil⟩
  | cons iface wfis ih =>
    have hrest := ih fun i hi => hwifi i (List.mem_cons_of_mem iface hi)
    by_cases hauto : autoconnects env iface
    · by_cases hprofiles : (config env).wifi = []
      · rw [List.filter_cons_of_neg (by simp [hprofiles]), tryWifi]
        simpa [hprofiles] using hrest
      · rw [List.filter_cons_of_pos (by simp [hauto, hprofiles])]
        exact tryWifi_cons_runs (hwifi iface List.mem_cons_self) hauto hprofiles hrest
    · rw [List.filter_cons_of_neg (by simp [hauto])]
      unfold autoconnects at hauto
      rw [tryWifi, if_pos hauto]
      exact hrest

/-- A name is not of both kinds. -/
theorem isEthernetIface_of_isWifiIface (h : isWifiIface iface) : isEthernetIface iface = false := by
  unfold isWifiIface at h
  unfold isEthernetIface
  cases hname : iface.toList with
  | nil => rfl
  | cons c cs =>
    have hw : c = 'w' := by
      rw [hname, Bool.or_eq_true, List.isPrefixOf_iff_prefix, List.isPrefixOf_iff_prefix] at h
      rcases h with h | h
      · exact (List.cons_prefix_cons.1 h).1.symm
      · exact (List.cons_prefix_cons.1 h).1.symm
    subst hw
    rfl

theorem isEmpty_known_of_wifi {cfg : NetworkConfig} (h : cfg.wifi = [])
    (networks : List WifiNetwork) : known cfg networks = [] := by
  simp [known, profileOf, h]

theorem mem_attempts {interfaces : List String} (h : iface ∈ attempts env interfaces) :
    isEthernetIface iface ∨ autoconnects env iface := by
  rcases List.mem_append.1 h with h | h
  · exact .inl (List.mem_filter.1 h).2
  · have hauto := (List.mem_filter.1 h).2
    rw [Bool.and_eq_true] at hauto
    exact .inr hauto.1

/-- The candidates are among the interfaces that are there to be tried. -/
theorem candidates_eq (env : Call → Reply) (interfaces : List String) :
    candidates env interfaces = (attempts env interfaces).filter (isCandidate env) := by
  rw [candidates, attempts, List.filter_append, List.filter_append]
  congr 1
  conv_rhs => rw [List.filter_filter]
  apply List.filter_congr
  intro iface hmem
  have hkind := isEthernetIface_of_isWifiIface (List.mem_filter.1 hmem).2
  by_cases hprofiles : (config env).wifi = []
  · simp [isCandidate, hkind, isEmpty_known_of_wifi hprofiles]
  · cases hauto : autoconnects env iface <;> simp [isCandidate, hkind, hauto, hprofiles]

theorem not_wouldObtain_of_failsHard (h : failsHard env iface) : wouldObtain env iface = false := by
  unfold failsHard at h
  unfold wouldObtain
  cases hlink : linkUp env iface with
  | false => rfl
  | true =>
    rw [hlink, Bool.not_true, Bool.false_or, Bool.and_eq_true] at h
    obtain ⟨hkind, hany⟩ := h
    cases hprofile : (strongest (config env) (scanned env iface)).bind fun net =>
        profileOf (config env) net.ssid with
    | none => rw [hprofile] at hany; cases hany
    | some profile =>
      rw [hprofile, Option.any_some] at hany
      cases hjoins : joins env iface profile with
      | false =>
        rw [Bool.not_eq_true'] at hkind
        simp [hkind, hjoins]
      | true =>
        rw [hjoins, Bool.not_true, Bool.false_or] at hany
        have hnone : leases env iface = false := by
          unfold leases
          cases hdhcp : (env (.dhcpAcquire iface)).dhcp with
          | lease ip => rw [hdhcp] at hany; cases hany
          | timedOut => rfl
          | failed e => rfl
        rw [hnone]
        rfl

theorem isCandidate_of_known (h : isEthernetIface iface ∨ autoconnects env iface)
    (hknown : isEthernetIface iface = false → known (config env) (scanned env iface) ≠ []) :
    isCandidate env iface := by
  cases hkind : isEthernetIface iface with
  | true => simp [isCandidate, hkind]
  | false =>
    rw [hkind] at h
    rcases h with h | h
    · cases h
    · simp [isCandidate, h, hknown hkind]

/-- The verdict on an interface says what it would come to. -/
theorem judged (env : Call → Reply) (interfaces : List String) :
    Judged (judge env) (wouldObtain env) (isCandidate env) (attempts env interfaces) where
  works iface _ h := by
    unfold judge at h
    split_ifs at h with _ _ hwould
    exact hwould
  passes iface _ h := by
    unfold judge at h
    split_ifs at h with _ _ hwould
    exact hwould
  stops iface _ h := by
    unfold judge at h
    split_ifs at h with _ hfails
    rw [not_wouldObtain_of_failsHard hfails]
    exact Bool.false_ne_true
  breaks iface hmem h := by
    unfold judge at h
    split_ifs at h with hover
    refine isCandidate_of_known (mem_attempts hmem) fun _ hnone => ?_
    simp [overflows, hnone] at hover
  would iface hmem h := by
    refine isCandidate_of_known (mem_attempts hmem) fun hkind hnone => ?_
    simp [wouldObtain, hkind, strongest, hnone] at h

theorem nothingInTheWay_iff (env : Call → Reply) (interfaces : List String) :
    Clear (judge env) (wouldObtain env) (isCandidate env) (attempts env interfaces) ↔
      NothingInTheWay env interfaces := by
  have hjudge : ∀ (iface : String) (after : List String), (judge env iface ≠ .breaks ∧
      (judge env iface = .stops → ∀ b ∈ after, ¬isCandidate env b)) ↔
      ¬overflows env iface ∧ (failsHard env iface → ∀ b ∈ after, ¬isCandidate env b) := by
    intro iface after
    unfold judge
    cases overflows env iface with
    | true => simp
    | false =>
      cases failsHard env iface with
      | true => simp
      | false => cases wouldObtain env iface <;> simp
  unfold Clear NothingInTheWay
  simp only [hjudge]

theorem configure_runs {interfaces : List String}
    (hlinks : (env .getAllLinks).links = .ok interfaces) :
    Runs env configure (attempts env interfaces) := by
  have hwifi : ∀ i ∈ interfaces.filter isWifiIface, isEthernetIface i = false := fun i hi =>
    isEthernetIface_of_isWifiIface (List.mem_filter.1 hi).2
  have heth : ∀ i ∈ interfaces.filter isEthernetIface, isEthernetIface i := fun i hi =>
    (List.mem_filter.1 hi).2
  have hread : Runs env (call .readConfig fun r =>
      tryWifi (r.config.toOption.getD .empty) (interfaces.filter isWifiIface)) _ :=
    (tryWifi_runs hwifi).wrap [.readConfig] [] rfl (by simp [config]) ⟨rfl, rfl⟩ (by simp [Joined])
  refine (tryEthernet_runs heth hread).wrap [.getAllLinks] [] ?_ ?_ ⟨rfl, rfl⟩ (by simp [Joined])
  · rw [configure, value_call, hlinks]
  · rw [configure, trace_call, hlinks, List.append_nil]
    rfl

theorem autoConfigureOnce_runs {interfaces : List String}
    (hidle : (env .swapRunning).running = false)
    (hlinks : (env .getAllLinks).links = .ok interfaces) :
    Runs env autoConfigureOnce (attempts env interfaces) := by
  refine (configure_runs hlinks).wrap [.swapRunning]
    (if configure.value env = .overflow then [] else [.clearRunning]) ?_ ?_ ?_ ?_
  · rw [autoConfigureOnce, value_call, hidle, if_neg Bool.false_ne_true, value_bind]
    split <;> rfl
  · rw [autoConfigureOnce, trace_call, hidle, if_neg Bool.false_ne_true, trace_bind]
    split <;> rfl
  · split <;> exact ⟨rfl, rfl⟩
  · split <;> simp [Joined]

end Runs

/-- Everything is tried just when nothing is in the way. -/
theorem triesAll_iff (env : Call → Reply) (interfaces : List String)
    (hidle : (env .swapRunning).running = false)
    (hlinks : (env .getAllLinks).links = .ok interfaces) :
    TriesAll env interfaces ↔ NothingInTheWay env interfaces := by
  have hruns := autoConfigureOnce_runs hidle hlinks
  obtain ⟨hok, hoverflow⟩ := fits_iff hruns.value
  have hexists : (∃ iface ∈ candidates env interfaces, wouldObtain env iface) ↔
      ∃ iface ∈ attempts env interfaces, wouldObtain env iface := by
    rw [candidates_eq]
    constructor
    · rintro ⟨iface, hmem, hwould⟩
      exact ⟨iface, (List.mem_filter.1 hmem).1, hwould⟩
    · rintro ⟨iface, hmem, hwould⟩
      exact ⟨iface, List.mem_filter.2 ⟨hmem, (judged env interfaces).would iface hmem hwould⟩, hwould⟩
  rw [← nothingInTheWay_iff, ← exhaustive_iff (judged env interfaces)]
  constructor
  · intro ⟨hends, hobtains, htried, _⟩
    rw [candidates_eq, hruns.log] at htried
    exact ⟨fun h => hends (hoverflow.2 h), hok.symm.trans (hobtains.trans hexists), htried⟩
  · intro ⟨hends, hworks, htried⟩
    refine ⟨fun h => hends (hoverflow.1 h), hok.trans (hworks.trans hexists.symm), ?_, ?_⟩
    · rw [candidates_eq, hruns.log]
      exact htried
    · intro iface ssid password security hidden hmem
      obtain ⟨net, hnet, hssid⟩ := hruns.joined _ hmem iface ssid password security hidden rfl
      exact ⟨net, List.maxOn?_mem hnet, hssid, fun other hother => score_le_strongest hnet hother⟩

/-- Two ethernet interfaces, of which only the second has a DHCP server. -/
def noOfferAtFirst : Call → Reply
  | .getAllLinks => { links := .ok ["eth0", "eth1"] }
  | .dhcpAcquire iface =>
    { dhcp := if iface = "eth0" then .failed "no offer" else .lease (some "192.168.1.7/24") }
  | _ => {}

/-- The second interface gets its address after the first has got none. -/
theorem triesAll_noOfferAtFirst : TriesAll noOfferAtFirst ["eth0", "eth1"] := by
  refine (triesAll_iff noOfferAtFirst ["eth0", "eth1"] rfl rfl).2 ?_
  intro before iface after hsplit _
  have hmem : iface ∈ attempts noOfferAtFirst ["eth0", "eth1"] := by
    rw [hsplit]
    exact List.mem_append_right _ (List.mem_cons_self ..)
  have hquiet : ∀ i ∈ attempts noOfferAtFirst ["eth0", "eth1"],
      ¬overflows noOfferAtFirst i ∧ ¬failsHard noOfferAtFirst i := by decide +kernel
  exact ⟨(hquiet iface hmem).1, fun hfails => absurd hfails (hquiet iface hmem).2⟩

/-- Both interfaces are ethernet; only the second can be brought up, and has a DHCP server. -/
def secondPort : Call → Reply
  | .getAllLinks => { links := .ok ["eth0", "eth1"] }
  | .setLinkState iface => { result := if iface = "eth0" then .error "Device or resource busy" else .ok () }
  | .dhcpAcquire iface =>
    { dhcp := if iface = "eth0" then .failed "no offer" else .lease (some "192.168.1.7/24") }
  | _ => {}

/-- The second interface is never tried. -/
theorem first_link_ends_run : (secondPort .swapRunning).running = false ∧
    (secondPort .getAllLinks).links = .ok ["eth0", "eth1"] ∧
    ¬TriesAll secondPort ["eth0", "eth1"] := by
  refine ⟨rfl, rfl, fun h => ?_⟩
  have hok := h.ok_iff.2 ⟨"eth1", by decide, by decide⟩
  exact absurd hok (by decide)

end Quantra.AutoConfig
