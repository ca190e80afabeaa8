import Quantra.Net.Resolver

/-! `Resolver::query_with_fallback` of `resolver.rs`: whose answer is taken, and what of it is
cached. -/
namespace Quantra.Dns
open Quantra.Net

def rcodeNoerror : UInt8 := 0

/-- What the servers answer, in the order in which they are asked; `none` for an error or a
timeout. -/
def asked (cfg : ResolverConfig) (up : Upstream) (now : Instant) (name : String) (qtype : ℕ) :
    List (Option DnsResponse) :=
  (if cfg.dotEnabled && cfg.dotFirst then
    cfg.dotServers.map fun server => up.dot server name qtype now
  else []) ++ cfg.servers.map fun server => up.udp server name qtype now

/-- What `query_with_fallback` returns. -/
def queryResult (cfg : ResolverConfig) (up : Upstream) (now : Instant) (name : String)
    (qtype : ℕ) : Except String (List IpAddr) :=
  match queryWithFallback cfg up now name qtype with
  | some resp => .ok resp.addresses
  | none => .error ("DNS: all servers failed for '" ++ name ++ "' (type=" ++ toString qtype ++ ")")

/-! What the fallback should do. -/

/-- A server has answered the question: the name has records, or it does not exist. -/
def DnsResponse.Usable (resp : DnsResponse) : Prop :=
  resp.rcode = rcodeNoerror ∨ resp.rcode = rcodeNxdomain

instance (resp : DnsResponse) : Decidable resp.Usable := inferInstanceAs (Decidable (_ ∨ _))

/-- The first usable response. -/
def firstUsable (outcomes : List (Option DnsResponse)) : Option DnsResponse :=
  outcomes.findSome? fun outcome => outcome.filter fun resp => decide resp.Usable

/-- The first usable response is taken, returned and cached, and nothing else is. -/
structure FallbackLaw (cfg : ResolverConfig) (up : Upstream) (now : Instant) (name : String)
    (qtype : ℕ) : Prop where
  taken : queryWithFallback cfg up now name qtype = firstUsable (asked cfg up now name qtype)
  returned : ∀ addrs, queryResult cfg up now name qtype = .ok addrs ↔
    ∃ resp, firstUsable (asked cfg up now name qtype) = some resp ∧ resp.addresses = addrs
  cached : ∀ c victim, cacheAnswer cfg up now victim name qtype c =
    match firstUsable (asked cfg up now name qtype) with
    | none => some c
    | some resp => c.insert now victim name qtype resp.addresses (cacheTtl cfg resp)
        (resp.rcode == rcodeNxdomain)

/-- Behind servers that give no response, the first one to respond gives a usable response. -/
def FirstResponseUsable (outcomes : List (Option DnsResponse)) : Prop :=
  ∀ before resp after, outcomes = before ++ some resp :: after → (∀ o ∈ before, o = none) →
    resp.Usable

variable {cfg : ResolverConfig} {up : Upstream} {now : Instant} {name : String} {qtype : ℕ}

/-- The code takes the first response there is. -/
theorem queryWithFallback_eq : queryWithFallback cfg up now name qtype =
    (asked cfg up now name qtype).findSome? id := by
  unfold queryWithFallback asked
  rw [List.findSome?_append, List.findSome?_map]
  split
  · rw [List.findSome?_map]
    rfl
  · rfl

theorem usable_of_firstUsable {outcomes : List (Option DnsResponse)} {resp : DnsResponse}
    (h : firstUsable outcomes = some resp) : resp.Usable := by
  obtain ⟨o, -, ho⟩ := List.exists_of_findSome?_eq_some h
  exact of_decide_eq_true (Option.filter_eq_some_iff.1 ho).2

/-- A server without a response changes nothing. -/
theorem firstResponseUsable_none_cons {outcomes : List (Option DnsResponse)} :
    FirstResponseUsable (none :: outcomes) ↔ FirstResponseUsable outcomes := by
  constructor
  · intro h before resp after heq hnone
    have hcons : none :: outcomes = (none :: before) ++ some resp :: after := by rw [heq]; rfl
    apply h (none :: before) resp after hcons
    intro o ho
    obtain rfl | ho := List.mem_cons.1 ho
    · rfl
    · exact hnone o ho
  · intro h before resp after heq hnone
    cases before with
    | nil => cases heq
    | cons o before =>
      have hrest : outcomes = before ++ some resp :: after := (List.cons.inj heq).2
      exact h before resp after hrest fun o ho => hnone o (List.mem_cons_of_mem _ ho)

/-- The first server that responds decides. -/
theorem firstResponseUsable_some_cons {outcomes : List (Option DnsResponse)} {resp : DnsResponse} :
    FirstResponseUsable (some resp :: outcomes) ↔ resp.Usable := by
  constructor
  · intro h
    exact h [] resp outcomes rfl nofun
  · intro h before resp' after heq hnone
    cases before with
    | nil =>
      cases heq
      exact h
    | cons o before =>
      obtain ⟨rfl, -⟩ := List.cons.inj heq
      exact absurd (hnone _ List.mem_cons_self) nofun

/-- The first response is the first usable one exactly if it is usable. -/
theorem findSome?_eq_firstUsable_iff (outcomes : List (Option DnsResponse)) :
    outcomes.findSome? id = firstUsable outcomes ↔ FirstResponseUsable outcomes := by
  induction outcomes with
  | nil =>
    apply iff_of_true rfl
    intro before resp after h
    exact absurd h (List.append_ne_nil_of_right_ne_nil _ (List.cons_ne_nil _ _)).symm
  | cons o outcomes ih =>
    cases o with
    | none =>
      rw [firstResponseUsable_none_cons, ← ih]
      rfl
    | some resp =>
      have hfirst : (some resp :: outcomes).findSome? id = some resp := rfl
      rw [firstResponseUsable_some_cons, hfirst]
      constructor
      · intro h
        exact usable_of_firstUsable h.symm
      · intro h
        simp [firstUsable, Option.filter, h]

theorem fallbackLaw_of_taken
    (h : queryWithFallback cfg up now name qtype = firstUsable (asked cfg up now name qtype)) :
    FallbackLaw cfg up now name qtype where
  taken := h
  returned addrs := by
    unfold queryResult
    rw [h]
    cases firstUsable (asked cfg up now name qtype) with
    | none => simp
    | some resp => simp
  cached c victim := by
    rw [← h]
    unfold cacheAnswer
    cases queryWithFallback cfg up now name qtype <;> rfl

/-- Exactly when the first server that responds at all does so with NOERROR or NXDOMAIN are the
others rightly passed over. -/
theorem fallbackLaw_iff (cfg : ResolverConfig) (up : Upstream) (now : Instant) (name : String)
    (qtype : ℕ) : FallbackLaw cfg up now name qtype ↔
      FirstResponseUsable (asked cfg up now name qtype) := by
  rw [← findSome?_eq_firstUsable_iff, ← queryWithFallback_eq]
  exact ⟨FallbackLaw.taken, fallbackLaw_of_taken⟩

/-- Two servers over UDP. The first one fails with SERVFAIL, the second one knows the name. -/
def twoServers : ResolverConfig := { dotEnabled := false }

def servfailFirst : Upstream where
  dot _ _ _ _ := none
  udp server _ _ _ := if server = .v4 ⟨1, 1, 1, 1⟩ then some ⟨2, [], 300⟩
    else some ⟨0, [.v4 ⟨192, 0, 2, 1⟩], 300⟩

/-- The second server is not asked, and that there are no addresses is cached for 300 seconds. -/
theorem servfail_taken : ¬FallbackLaw twoServers servfailFirst 0 "example.com" 1 ∧
    queryWithFallback twoServers servfailFirst 0 "example.com" 1 = some ⟨2, [], 300⟩ ∧
    firstUsable (asked twoServers servfailFirst 0 "example.com" 1) =
      some ⟨0, [.v4 ⟨192, 0, 2, 1⟩], 300⟩ ∧
    cacheAnswer twoServers servfailFirst 0 "" "example.com" 1 .new =
      some ⟨[("example.com:1", ⟨[], fromSecs 300, false⟩)]⟩ := by
  have htaken : queryWithFallback twoServers servfailFirst 0 "example.com" 1 =
      some ⟨2, [], 300⟩ := by decide
  have hfirst : firstUsable (asked twoServers servfailFirst 0 "example.com" 1) =
      some ⟨0, [.v4 ⟨192, 0, 2, 1⟩], 300⟩ := by decide
  refine ⟨?_, htaken, hfirst, by decide +kernel⟩
  intro h
  have hsame := h.taken
  rw [htaken, hfirst] at hsame
  exact absurd hsame (by decide)

end Quantra.Dns
