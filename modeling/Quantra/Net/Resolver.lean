import Quantra.Lib.Runs
import Quantra.Lib.Text
import Quantra.Net.Address
import Mathlib.Data.List.Basic

/-! The caching resolver of `quantra-netd` (`resolver.rs`). A call is taken at one instant: the
clock does not move between reading the cache and the answers. -/
namespace Quantra.Dns
open Quantra.Net

/-- Instants in nanoseconds. -/
abbrev Instant := ℕ

def fromSecs (n : ℕ) : ℕ := n * 10 ^ 9

def qtypeA : ℕ := 1

def qtypeAaaa : ℕ := 28

def rcodeNxdomain : UInt8 := 3

def maxCacheEntries : ℕ := 1024

structure ResolverConfig where
  servers : List IpAddr := [.v4 ⟨1, 1, 1, 1⟩, .v4 ⟨8, 8, 8, 8⟩]
  dotServers : List String := ["1.1.1.1:853", "8.8.8.8:853", "9.9.9.9:853"]
  dotEnabled : Bool := true
  dotFirst : Bool := true
  maxTtl : ℕ := 3600
  minTtl : ℕ := 60

/-! The cache. -/

structure CacheEntry where
  addresses : List IpAddr
  expires : Instant
  nxdomain : Bool
  deriving DecidableEq, Repr

/-- `HashMap<String, CacheEntry>` as the list of its entries. -/
structure DnsCache where
  entries : List (String × CacheEntry)
  deriving DecidableEq, Repr

def cacheKey (name : String) (qtype : ℕ) : String := name ++ ":" ++ toString qtype

namespace DnsCache

def new : DnsCache := ⟨[]⟩

def lookup (c : DnsCache) (key : String) : Option CacheEntry := c.entries.lookup key

def remove (c : DnsCache) (key : String) : DnsCache := ⟨c.entries.filter (·.1 ≠ key)⟩

def put (c : DnsCache) (key : String) (entry : CacheEntry) : DnsCache :=
  ⟨(key, entry) :: (c.remove key).entries⟩

/-- The cached addresses at `now`; a cached negative answer is an empty list. -/
def get (c : DnsCache) (now : Instant) (name : String) (qtype : ℕ) : Option (List IpAddr) :=
  (c.lookup (cacheKey name qtype)).bind fun entry =>
    if now > entry.expires then none
    else if entry.nxdomain then some []
    else some entry.addresses

/-- A full map gives up an entry with the earliest expiry. The iteration order of the map picks
one among several, so the choice `victim` is taken from outside and must be such an entry. -/
def insert (c : DnsCache) (now : Instant) (victim name : String) (qtype : ℕ)
    (addrs : List IpAddr) (ttl : ℕ) (nxdomain : Bool) : Option DnsCache :=
  let entry : CacheEntry := ⟨addrs, now + fromSecs ttl, nxdomain⟩
  if c.entries.length ≥ maxCacheEntries then
    (c.lookup victim).bind fun oldest =>
      if ∀ p ∈ c.entries, oldest.expires ≤ p.2.expires then
        some ((c.remove victim).put (cacheKey name qtype) entry)
      else none
  else some (c.put (cacheKey name qtype) entry)

end DnsCache

/-! Upstream. -/

/-- What `query_udp` and `query_dot` return. -/
structure DnsResponse where
  rcode : UInt8
  addresses : List IpAddr
  minTtl : UInt32
  deriving DecidableEq, Repr

/-- What the servers answer at each instant; `none` for an error or a timeout. -/
structure Upstream where
  dot : String → String → ℕ → Instant → Option DnsResponse
  udp : IpAddr → String → ℕ → Instant → Option DnsResponse

/-- The answer that `query_with_fallback` takes: the first DoT server that answers, then the first
UDP server. -/
def queryWithFallback (cfg : ResolverConfig) (up : Upstream) (now : Instant) (name : String)
    (qtype : ℕ) : Option DnsResponse :=
  (if cfg.dotEnabled && cfg.dotFirst then
    cfg.dotServers.findSome? fun server => up.dot server name qtype now
  else none).or (cfg.servers.findSome? fun server => up.udp server name qtype now)

/-- The time in seconds for which an answer is cached. -/
def cacheTtl (cfg : ResolverConfig) (resp : DnsResponse) : ℕ :=
  min (max resp.minTtl.toNat (cfg.minTtl % 2 ^ 32)) (cfg.maxTtl % 2 ^ 32)

/-- The insertion that goes with an answer. -/
def cacheAnswer (cfg : ResolverConfig) (up : Upstream) (now : Instant) (victim name : String)
    (qtype : ℕ) (c : DnsCache) : Option DnsCache :=
  match queryWithFallback cfg up now name qtype with
  | none => some c
  | some resp => c.insert now victim name qtype resp.addresses (cacheTtl cfg resp)
      (resp.rcode == rcodeNxdomain)

/-! `Resolver::resolve`. -/

/-- What the cache contributes for a name: A, then AAAA. -/
def cachedAddresses (c : DnsCache) (now : Instant) (name : String) : List IpAddr :=
  (c.get now name qtypeA).getD [] ++ (c.get now name qtypeAaaa).getD []

/-- `unwrap_or_default` of a query. -/
def queriedAddresses (cfg : ResolverConfig) (up : Upstream) (now : Instant) (name : String)
    (qtype : ℕ) : List IpAddr :=
  ((queryWithFallback cfg up now name qtype).map (·.addresses)).getD []

def resolve (cfg : ResolverConfig) (up : Upstream) (c : DnsCache) (now : Instant)
    (name : String) : Except String (List IpAddr) :=
  let results := cachedAddresses c now name
  if results ≠ [] then .ok results
  else
    let v4 := queriedAddresses cfg up now name qtypeA
    let v6 := queriedAddresses cfg up now name qtypeAaaa
    if v4 = [] ∧ v6 = [] then .error ("DNS: no addresses found for '" ++ name ++ "'")
    else .ok (v4 ++ v6)

/-- One call of `resolve`. The two queries run together, so either may be inserted first. -/
structure Call where
  name : String
  now : Instant
  victimA : String := ""
  victimAaaa : String := ""
  aaaaFirst : Bool := false

/-- The cache that a call leaves. -/
def resolveCache (cfg : ResolverConfig) (up : Upstream) (c : DnsCache) (call : Call) :
    Option DnsCache :=
  if cachedAddresses c call.now call.name ≠ [] then some c
  else if call.aaaaFirst then
    (cacheAnswer cfg up call.now call.victimAaaa call.name qtypeAaaa c).bind
      (cacheAnswer cfg up call.now call.victimA call.name qtypeA)
  else
    (cacheAnswer cfg up call.now call.victimA call.name qtypeA c).bind
      (cacheAnswer cfg up call.now call.victimAaaa call.name qtypeAaaa)

/-- The resolver between calls: its cache and the instant of the last call. -/
structure Resolver where
  cache : DnsCache
  now : Instant
  deriving DecidableEq, Repr

def Resolver.init : Resolver := ⟨.new, 0⟩

def resolverStep (cfg : ResolverConfig) (up : Upstream) (r : Resolver) (call : Call) :
    Option Resolver :=
  if r.now ≤ call.now then (resolveCache cfg up r.cache call).map (⟨·, call.now⟩) else none

/-! Cache operations. -/

private theorem toList_toString (n : ℕ) : (toString n).toList = Nat.toDigits 10 n := by
  rw [Nat.toString_eq_ofList_toDigits, String.toList_ofList]

private theorem colon_not_mem (n : ℕ) : ':' ∉ (toString n).toList := by
  intro hmem
  rw [toList_toString] at hmem
  have hdigit := Nat.isDigit_of_mem_toDigits (by decide) (by decide) hmem
  cases hdigit

/-- Names may hold colons; the last one starts the query type. -/
theorem cacheKey_inj {name name' : String} {q q' : ℕ} (h : cacheKey name q = cacheKey name' q') :
    name = name' ∧ q = q' := by
  have hlists : name.toList ++ ':' :: (toString q).toList =
      name'.toList ++ ':' :: (toString q').toList := by
    have hchars := congrArg String.toList h
    have hcolon : ":".toList = [':'] := rfl
    simpa only [cacheKey, String.toList_append, List.append_assoc, hcolon,
      List.singleton_append] using hchars
  have hsplit : name.toList = name'.toList ∧ (toString q).toList = (toString q').toList := by
    obtain ⟨rest, hname, htail⟩ | ⟨rest, hname, htail⟩ := List.append_eq_append_iff.1 hlists
    · cases rest with
      | nil =>
        rw [List.append_nil] at hname
        exact ⟨hname.symm, (List.cons.inj htail).2⟩
      | cons c rest =>
        have hin : ':' ∈ (toString q).toList := by
          rw [(List.cons.inj htail).2]
          simp
        exact absurd hin (colon_not_mem q)
    · cases rest with
      | nil =>
        rw [List.append_nil] at hname
        exact ⟨hname, (List.cons.inj htail).2.symm⟩
      | cons c rest =>
        have hin : ':' ∈ (toString q').toList := by
          rw [(List.cons.inj htail).2]
          simp
        exact absurd hin (colon_not_mem q')
  refine ⟨String.toList_inj.1 hsplit.1, ?_⟩
  have hdigits := hsplit.2
  rw [toList_toString, toList_toString] at hdigits
  have hsome : some q = some q' := by
    rw [← Text.digitsToNat_toDigits q, ← Text.digitsToNat_toDigits q', hdigits]
  exact Option.some.inj hsome

namespace DnsCache

variable {c c' : DnsCache} {key key' : String} {entry e : CacheEntry}

private theorem lookup_cons_ite (k : String) (v : CacheEntry) (ps : List (String × CacheEntry))
    (key : String) : ((k, v) :: ps).lookup key = if key = k then some v else ps.lookup key := by
  by_cases hkey : key = k
  · rw [if_pos hkey, hkey, List.lookup_cons_self]
  · have hb : (key == k) = false := beq_false_of_ne hkey
    rw [if_neg hkey, List.lookup_cons, hb]

theorem lookup_remove :
    (c.remove key).lookup key' = if key' = key then none else c.lookup key' := by
  obtain ⟨entries⟩ := c
  unfold remove lookup
  dsimp only
  induction entries with
  | nil => simp
  | cons p ps ih =>
    obtain ⟨k, v⟩ := p
    by_cases hk : k = key
    · have hdrop : ((k, v) :: ps).filter (·.1 ≠ key) = ps.filter (·.1 ≠ key) := by simp [hk]
      rw [hdrop, ih, lookup_cons_ite]
      split
      · rfl
      · rename_i hkey
        rw [if_neg (by rwa [hk])]
    · have hkeep : ((k, v) :: ps).filter (·.1 ≠ key) = (k, v) :: ps.filter (·.1 ≠ key) := by
        simp [hk]
      rw [hkeep, lookup_cons_ite, lookup_cons_ite, ih]
      by_cases hkey : key' = k
      · have hne : key' ≠ key := by rwa [hkey]
        rw [if_pos hkey, if_neg hne, if_pos hkey]
      · rw [if_neg hkey, if_neg hkey]

theorem lookup_put :
    (c.put key entry).lookup key' = if key' = key then some entry else c.lookup key' := by
  have hcons : (c.put key entry).lookup key' =
      if key' = key then some entry else (c.remove key).lookup key' := lookup_cons_ite _ _ _ _
  rw [hcons, lookup_remove]
  split <;> rfl

/-- What an insertion leaves is the new entry or was there before. -/
theorem lookup_insert {now : Instant} {victim name : String} {q ttl : ℕ} {addrs : List IpAddr}
    {nxdomain : Bool} (h : c.insert now victim name q addrs ttl nxdomain = some c')
    (he : c'.lookup key = some e) :
    (key = cacheKey name q ∧ e = ⟨addrs, now + fromSecs ttl, nxdomain⟩) ∨
      c.lookup key = some e := by
  have hput : ∀ {d : DnsCache}, (d.put (cacheKey name q)
      ⟨addrs, now + fromSecs ttl, nxdomain⟩).lookup key = some e →
      (key = cacheKey name q ∧ e = ⟨addrs, now + fromSecs ttl, nxdomain⟩) ∨
        d.lookup key = some e := by
    intro d hd
    rw [lookup_put] at hd
    by_cases hkey : key = cacheKey name q
    · rw [if_pos hkey] at hd
      exact .inl ⟨hkey, (Option.some.inj hd).symm⟩
    · rw [if_neg hkey] at hd
      exact .inr hd
  unfold insert at h
  simp only at h
  split at h
  · obtain ⟨oldest, -, holdest⟩ := Option.bind_eq_some_iff.1 h
    split at holdest
    · cases holdest
      obtain hnew | hold := hput he
      · exact .inl hnew
      · rw [lookup_remove] at hold
        split at hold
        · cases hold
        · exact .inr hold
    · cases holdest
  · cases h
    exact hput he

/-- Addresses in the cache are those of an entry that has not expired. -/
theorem get_of_ne_nil {now : Instant} {name : String} {q : ℕ}
    (h : (c.get now name q).getD [] ≠ []) :
    ∃ e, c.lookup (cacheKey name q) = some e ∧ now ≤ e.expires ∧
      c.get now name q = some e.addresses := by
  cases hentry : c.lookup (cacheKey name q) with
  | none => simp [get, hentry] at h
  | some e =>
    by_cases hlive : now > e.expires
    · simp [get, hentry, hlive] at h
    · cases hneg : e.nxdomain with
      | true => simp [get, hentry, hlive, hneg] at h
      | false => exact ⟨e, rfl, Nat.le_of_not_lt hlive, by simp [get, hentry, hlive, hneg]⟩

end DnsCache

/-! What a cached answer stands for. -/

section Transparency
variable {cfg : ResolverConfig} {up : Upstream} {r r' : Resolver} {now : Instant} {name : String}
  {q : ℕ}

/-- Every entry was answered upstream at some instant before `now`, and expires one cache lifetime
after it. -/
def Sourced (cfg : ResolverConfig) (up : Upstream) (now : Instant) (c : DnsCache) : Prop :=
  ∀ name q entry, c.lookup (cacheKey name q) = some entry →
    ∃ t resp, t ≤ now ∧ queryWithFallback cfg up t name q = some resp ∧
      entry = ⟨resp.addresses, t + fromSecs (cacheTtl cfg resp), resp.rcode == rcodeNxdomain⟩

/-- An upstream that, for `hold` seconds after an answer, goes on answering with the same
addresses. -/
def ConsistentFor (cfg : ResolverConfig) (up : Upstream) (hold : DnsResponse → ℕ) : Prop :=
  ∀ name q t resp, queryWithFallback cfg up t name q = some resp →
    ∀ t', t ≤ t' → t' ≤ t + fromSecs (hold resp) →
      ∃ resp', queryWithFallback cfg up t' name q = some resp' ∧
        ∀ a, a ∈ resp'.addresses ↔ a ∈ resp.addresses

/-- The same set of addresses, or the same failure. -/
def SameAnswer : Except String (List IpAddr) → Except String (List IpAddr) → Prop
  | .ok xs, .ok ys => ∀ a, a ∈ xs ↔ a ∈ ys
  | .error e, .error e' => e = e'
  | _, _ => False

instance (x y : Except String (List IpAddr)) : Decidable (SameAnswer x y) :=
  match x, y with
  | .ok xs, .ok ys => decidable_of_iff ((∀ a ∈ xs, a ∈ ys) ∧ ∀ a ∈ ys, a ∈ xs)
      ⟨fun h a => ⟨h.1 a, h.2 a⟩, fun h => ⟨fun a => (h a).1, fun a => (h a).2⟩⟩
  | .error e, .error e' => inferInstanceAs (Decidable (e = e'))
  | .ok _, .error _ => .isFalse fun h => h
  | .error _, .ok _ => .isFalse fun h => h

theorem SameAnswer.refl (x : Except String (List IpAddr)) : SameAnswer x x := by
  cases x with
  | ok xs => exact fun _ => Iff.rfl
  | error e => exact Eq.refl e

theorem Sourced.mono {c : DnsCache} {t t' : Instant} (h : Sourced cfg up t c) (ht : t ≤ t') :
    Sourced cfg up t' c := by
  intro name q entry hentry
  obtain ⟨u, resp, hu, hrest⟩ := h name q entry hentry
  exact ⟨u, resp, Nat.le_trans hu ht, hrest⟩

theorem sourced_cacheAnswer {c c' : DnsCache} {victim : String}
    (h : cacheAnswer cfg up now victim name q c = some c') (hc : Sourced cfg up now c) :
    Sourced cfg up now c' := by
  unfold cacheAnswer at h
  split at h
  · cases h
    exact hc
  · rename_i resp hresp
    intro name' q' entry hentry
    obtain ⟨hkey, rfl⟩ | hold := DnsCache.lookup_insert h hentry
    · obtain ⟨rfl, rfl⟩ := cacheKey_inj hkey
      exact ⟨now, resp, Nat.le_refl _, hresp, rfl⟩
    · exact hc name' q' entry hold

theorem sourced_resolveCache {c c' : DnsCache} {call : Call}
    (h : resolveCache cfg up c call = some c') (hc : Sourced cfg up call.now c) :
    Sourced cfg up call.now c' := by
  unfold resolveCache at h
  split at h
  · cases h
    exact hc
  · split at h
    all_goals
      obtain ⟨mid, hfirst, hsecond⟩ := Option.bind_eq_some_iff.1 h
      exact sourced_cacheAnswer hsecond (sourced_cacheAnswer hfirst hc)

theorem sourced_step {call : Call} (h : resolverStep cfg up r call = some r')
    (hr : Sourced cfg up r.now r.cache) : Sourced cfg up r'.now r'.cache := by
  unfold resolverStep at h
  split at h
  · rename_i hle
    obtain ⟨c, hcache, rfl⟩ := Option.map_eq_some_iff.1 h
    exact sourced_resolveCache hcache (hr.mono hle)
  · cases h

theorem sourced_of_reach {ok : Resolver → Call → Prop}
    (h : Runs.Reach (resolverStep cfg up) ok .init r) : Sourced cfg up r.now r.cache := by
  apply h.invariant (fun hr _ hstep => sourced_step hstep hr)
  intro name q entry hentry
  cases hentry

/-- While the upstream holds its answers, a cached record type with addresses is what a query
gives. -/
theorem mem_queried_iff {c : DnsCache} (hc : Sourced cfg up now c)
    (hup : ConsistentFor cfg up (cacheTtl cfg)) (hne : (c.get now name q).getD [] ≠ [])
    (a : IpAddr) : a ∈ queriedAddresses cfg up now name q ↔ a ∈ (c.get now name q).getD [] := by
  obtain ⟨entry, hentry, hlive, hget⟩ := DnsCache.get_of_ne_nil hne
  obtain ⟨t, resp, ht, hresp, rfl⟩ := hc name q entry hentry
  obtain ⟨resp', hnow, hsame⟩ := hup name q t resp hresp now ht hlive
  unfold queriedAddresses
  rw [hnow, hget]
  exact hsame a

/-- A name with addresses of one type in the cache has none of the other type upstream that the
cache lacks. -/
def NoPartialHit (cfg : ResolverConfig) (up : Upstream) (c : DnsCache) (now : Instant)
    (name : String) : Prop :=
  cachedAddresses c now name ≠ [] → ∀ q ∈ [qtypeA, qtypeAaaa],
    (c.get now name q).getD [] = [] → queriedAddresses cfg up now name q = []

instance {c : DnsCache} : Decidable (NoPartialHit cfg up c now name) :=
  inferInstanceAs (Decidable (_ → _))

/-- The answer with nothing cached. -/
theorem resolve_new : resolve cfg up .new now name =
    if queriedAddresses cfg up now name qtypeA = [] ∧
        queriedAddresses cfg up now name qtypeAaaa = [] then
      .error ("DNS: no addresses found for '" ++ name ++ "'")
    else .ok (queriedAddresses cfg up now name qtypeA ++
      queriedAddresses cfg up now name qtypeAaaa) := rfl

/-- Whatever the earlier calls left in the cache, a name resolves to what it would with an empty
one, provided the upstream holds its answers for the time they are cached (the TTL brought into
`min_ttl .. max_ttl`) and the name is not half in the cache. -/
theorem resolve_transparent (hr : Runs.Reach (resolverStep cfg up) (fun _ _ => True) .init r)
    (hnow : r.now ≤ now) (hup : ConsistentFor cfg up (cacheTtl cfg))
    (hwhole : NoPartialHit cfg up r.cache now name) :
    SameAnswer (resolve cfg up r.cache now name) (resolve cfg up .new now name) := by
  have hsourced : Sourced cfg up now r.cache := (sourced_of_reach hr).mono hnow
  by_cases hmiss : cachedAddresses r.cache now name = []
  · have hsame : resolve cfg up r.cache now name = resolve cfg up .new now name := by
      rw [resolve_new]
      unfold resolve
      rw [if_neg (not_not_intro hmiss)]
    rw [hsame]
    exact .refl _
  · have hhit : resolve cfg up r.cache now name = .ok (cachedAddresses r.cache now name) := by
      unfold resolve
      rw [if_pos hmiss]
    have hmem : ∀ q ∈ [qtypeA, qtypeAaaa], ∀ a, a ∈ queriedAddresses cfg up now name q ↔
        a ∈ (r.cache.get now name q).getD [] := by
      intro q hq a
      by_cases hempty : (r.cache.get now name q).getD [] = []
      · rw [hwhole hmiss q hq hempty, hempty]
      · exact mem_queried_iff hsourced hup hempty a
    have hA := hmem qtypeA (by simp)
    have hAaaa := hmem qtypeAaaa (by simp)
    obtain ⟨a, ha⟩ := List.exists_mem_of_ne_nil _ hmiss
    have hfound : ¬(queriedAddresses cfg up now name qtypeA = [] ∧
        queriedAddresses cfg up now name qtypeAaaa = []) := by
      intro hnone
      obtain hv4 | hv6 := List.mem_append.1 ha
      · have hin := (hA a).2 hv4
        rw [hnone.1] at hin
        cases hin
      · have hin := (hAaaa a).2 hv6
        rw [hnone.2] at hin
        cases hin
    rw [hhit, resolve_new, if_neg hfound]
    intro b
    unfold cachedAddresses
    rw [List.mem_append, List.mem_append, hA b, hAaaa b]

end Transparency

/-- An upstream that answers every query with `answer`. -/
def Upstream.steady (answer : ℕ → Instant → DnsResponse) : Upstream where
  dot _ _ q now := some (answer q now)
  udp _ _ q now := some (answer q now)

theorem query_steady (answer : ℕ → Instant → DnsResponse) (now : Instant) (name : String)
    (q : ℕ) : queryWithFallback {} (.steady answer) now name q = some (answer q now) := rfl

/-- One address of each family, with a TTL for each record type. -/
def dualStack (ttlA ttlAaaa : UInt32) (q : ℕ) (_ : Instant) : DnsResponse :=
  if q = qtypeA then ⟨0, [.v4 ⟨192, 0, 2, 1⟩], ttlA⟩
  else ⟨0, [.v6 ⟨#v[0x20, 0x01, 0x0d, 0xb8, 0, 0, 0, 0, 0, 0, 0, 0, 0, 0, 0, 1]⟩], ttlAaaa⟩

theorem consistentFor_dualStack (ttlA ttlAaaa : UInt32) (hold : DnsResponse → ℕ) :
    ConsistentFor {} (.steady (dualStack ttlA ttlAaaa)) hold := by
  intro name q t resp hresp t' _ _
  exact ⟨resp, hresp, fun _ => Iff.rfl⟩

/-- An A record that may not be cached (TTL 0) and that changes after ten seconds. -/
def rotating (q : ℕ) (now : Instant) : DnsResponse :=
  if q = qtypeA then
    ⟨0, [if now < fromSecs 10 then .v4 ⟨192, 0, 2, 1⟩ else .v4 ⟨192, 0, 2, 2⟩], 0⟩
  else ⟨0, [], 300⟩

theorem consistentFor_rotating :
    ConsistentFor {} (.steady rotating) fun resp => resp.minTtl.toNat := by
  intro name q t resp hresp t' hle hlt
  rw [query_steady] at hresp
  cases hresp
  refine ⟨rotating q t', rfl, fun a => ?_⟩
  unfold rotating at hlt ⊢
  by_cases hq : q = qtypeA
  · simp only [if_pos hq] at hlt ⊢
    have ht : t' = t := Nat.le_antisymm hlt hle
    rw [ht]
  · simp only [if_neg hq]

theorem resolve_transparent_dualStack :
    ∃ r, Runs.Reach (resolverStep {} (.steady (dualStack 300 300))) (fun _ _ => True) .init r ∧
      SameAnswer (resolve {} (.steady (dualStack 300 300)) r.cache (fromSecs 200) "example.com")
        (resolve {} (.steady (dualStack 300 300)) .new (fromSecs 200) "example.com") := by
  have hreach := Runs.exists_reach_of_exec (resolverStep {} (.steady (dualStack 300 300)))
    (fun _ _ => True) .init [⟨"example.com", 0, "", "", false⟩]
    (fun r => decide (r.now ≤ fromSecs 200) && decide (NoPartialHit {}
      (.steady (dualStack 300 300)) r.cache (fromSecs 200) "example.com")) (by decide +kernel)
  obtain ⟨r, hr, hcheck⟩ := hreach
  obtain ⟨hnow, hwhole⟩ := (Bool.and_eq_true _ _).mp hcheck
  exact ⟨r, hr, resolve_transparent hr (of_decide_eq_true hnow) (consistentFor_dualStack _ _ _)
    (of_decide_eq_true hwhole)⟩

/-- A cache state left by an earlier call under which `name` resolves differently at `now`. -/
def Differs (up : Upstream) (now : Instant) (name : String) : Prop :=
  ∃ r, Runs.Reach (resolverStep {} up) (fun _ _ => True) .init r ∧ r.now ≤ now ∧
    ¬SameAnswer (resolve {} up r.cache now name) (resolve {} up .new now name)

theorem differs_of_exec (up : Upstream) (now : Instant) (name : String) (calls : List Call)
    (h : (Runs.exec (Runs.guarded (resolverStep {} up) fun _ _ => True) .init calls).any
      fun r => decide (r.now ≤ now ∧
        ¬SameAnswer (resolve {} up r.cache now name) (resolve {} up .new now name))) :
    Differs up now name := by
  obtain ⟨r, hr, hdiffers⟩ := Runs.exists_reach_of_exec _ _ _ calls _ h
  exact ⟨r, hr, of_decide_eq_true hdiffers⟩

/-- Two ways in which a cached answer differs. `min_ttl` keeps an answer past its own TTL; and
once the A answer of a name has expired, its AAAA answer alone is returned. -/
theorem resolve_differs :
    (ConsistentFor {} (.steady rotating) (fun resp => resp.minTtl.toNat) ∧
      Differs (.steady rotating) (fromSecs 30) "example.com") ∧
    (ConsistentFor {} (.steady (dualStack 60 3600)) (fun resp => resp.minTtl.toNat) ∧
      Differs (.steady (dualStack 60 3600)) (fromSecs 100) "example.com") := by
  constructor
  · refine ⟨consistentFor_rotating, ?_⟩
    apply differs_of_exec _ _ _ [⟨"example.com", 0, "", "", false⟩]
    decide +kernel
  · refine ⟨consistentFor_dualStack _ _ _, ?_⟩
    apply differs_of_exec _ _ _ [⟨"example.com", 0, "", "", false⟩]
    decide +kernel

end Quantra.Dns
