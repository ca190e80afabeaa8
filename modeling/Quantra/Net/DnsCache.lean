import Quantra.Net.Resolver
import Mathlib.Data.List.Nodup

/-! `DnsCache` of `resolver.rs` over whole histories of insertions, evictions and flushes. -/
namespace Quantra.Dns
open Quantra.Net

/-! The operations, with the entries in the order in which the hash map gives them. -/

/-- `min_by_key` on the expiry: the first of the entries that expire earliest. -/
def firstToExpire : List (String × CacheEntry) → Option (String × CacheEntry)
  | [] => none
  | p :: order => some (order.foldl (fun best q =>
      if q.2.expires < best.2.expires then q else best) p)

/-- The arguments of `DnsCache::insert`. -/
structure Insertion where
  name : String
  qtype : ℕ
  addrs : List IpAddr
  ttl : ℕ
  nxdomain : Bool
  deriving DecidableEq, Repr

namespace DnsCache

/-- The key that a full map gives up before an insertion. -/
def evicted (c : DnsCache) (order : List (String × CacheEntry)) : Option String :=
  if c.entries.length ≥ maxCacheEntries then (firstToExpire order).map (·.1) else none

/-- `DnsCache::insert`, where `order` is how the map iterates over its entries. -/
def insertIn (c : DnsCache) (order : List (String × CacheEntry)) (now : Instant) (i : Insertion) :
    DnsCache :=
  let entry : CacheEntry := ⟨i.addrs, now + fromSecs i.ttl, i.nxdomain⟩
  let c := match c.evicted order with
    | some key => c.remove key
    | none => c
  c.put (cacheKey i.name i.qtype) entry

def flush (_ : DnsCache) : DnsCache := ⟨[]⟩

end DnsCache

/-! Runs. -/

inductive CacheOp
  | insert (order : List (String × CacheEntry)) (i : Insertion)
  | get (name : String) (qtype : ℕ)
  | flush
  deriving DecidableEq, Repr

/-- What has happened to the cache. -/
inductive CacheEvent
  | inserted (now : Instant) (i : Insertion)
  | evicted (key : String)
  | flushed
  deriving DecidableEq, Repr

/-- The cache, the instant of the last operation, and what has happened so far. -/
structure CacheRun where
  cache : DnsCache
  now : Instant
  log : List CacheEvent
  deriving DecidableEq, Repr

def CacheRun.init : CacheRun := ⟨.new, 0, []⟩

/-- An operation at an instant. Time does not go backwards, and the order in which the map iterates
is some order of its entries. -/
def cacheStep (r : CacheRun) (op : Instant × CacheOp) : Option CacheRun :=
  if r.now ≤ op.1 then
    match op.2 with
    | .insert order i =>
      if order.Perm r.cache.entries then
        some ⟨r.cache.insertIn order op.1 i, op.1,
          r.log ++ (r.cache.evicted order).toList.map .evicted ++ [.inserted op.1 i]⟩
      else none
    | .get _ _ => some ⟨r.cache, op.1, r.log⟩
    | .flush => some ⟨r.cache.flush, op.1, r.log ++ [.flushed]⟩
  else none

/-! What a history says. -/

/-- What undoes an insertion for a name and a type: another one for them, the eviction of their
entry, or a flush. -/
def CacheEvent.Undoes (name : String) (qtype : ℕ) : CacheEvent → Prop
  | .inserted _ i => i.name = name ∧ i.qtype = qtype
  | .evicted key => key = cacheKey name qtype
  | .flushed => True

/-- The latest insertion for a name and a type since the last flush, if its entry has not been
evicted. -/
def Latest (log : List CacheEvent) (name : String) (qtype : ℕ) (now : Instant) (i : Insertion) :
    Prop :=
  ∃ before after, log = before ++ .inserted now i :: after ∧ i.name = name ∧ i.qtype = qtype ∧
    ∀ e ∈ after, ¬e.Undoes name qtype

/-- The addresses to read from an insertion: none where the name does not exist. -/
def Insertion.answer (i : Insertion) : List IpAddr := if i.nxdomain then [] else i.addrs

/-- A key in the cache expires no later than any other. -/
def DnsCache.ExpiresFirst (c : DnsCache) (key : String) : Prop :=
  ∃ e, c.lookup key = some e ∧ ∀ key' e', c.lookup key' = some e' → e.expires ≤ e'.expires

def Insertion.entry (i : Insertion) (now : Instant) : CacheEntry :=
  ⟨i.addrs, now + fromSecs i.ttl, i.nxdomain⟩

/-- The map holds the latest insertions, each under the key of its name and type. -/
def Linked (c : DnsCache) (log : List CacheEvent) : Prop :=
  ∀ name q e, c.lookup (cacheKey name q) = some e ↔
    ∃ now i, Latest log name q now i ∧ e = i.entry now

structure CacheRun.Inv (r : CacheRun) : Prop where
  nodup : (r.cache.entries.map (·.1)).Nodup
  few : r.cache.entries.length ≤ maxCacheEntries
  linked : Linked r.cache r.log

section Cache
variable {c : DnsCache} {order : List (String × CacheEntry)} {p : String × CacheEntry}
  {key : String} {entry : CacheEntry}

theorem firstToExpire_spec (h : firstToExpire order = some p) :
    p ∈ order ∧ ∀ q ∈ order, p.2.expires ≤ q.2.expires := by
  cases order with
  | nil => cases h
  | cons first order =>
    cases h
    induction order generalizing first with
    | nil =>
      refine ⟨List.mem_cons_self, ?_⟩
      intro q hq
      rw [List.mem_singleton.1 hq]
      exact Nat.le_refl _
    | cons q order ih =>
      rw [List.foldl_cons]
      by_cases hlt : q.2.expires < first.2.expires
      · rw [if_pos hlt]
        obtain ⟨hmem, hmin⟩ := ih q
        refine ⟨List.mem_cons_of_mem first hmem, ?_⟩
        intro q' hq'
        obtain rfl | hq' := List.mem_cons.1 hq'
        · exact Nat.le_trans (hmin q List.mem_cons_self) (Nat.le_of_lt hlt)
        · exact hmin q' hq'
      · rw [if_neg hlt]
        obtain ⟨hmem, hmin⟩ := ih first
        have hfirst := hmin first List.mem_cons_self
        constructor
        · obtain hmem | hmem := List.mem_cons.1 hmem
          · rw [hmem]
            exact List.mem_cons_self
          · exact List.mem_cons_of_mem first (List.mem_cons_of_mem q hmem)
        · intro q' hq'
          obtain rfl | hq' := List.mem_cons.1 hq'
          · exact hfirst
          · obtain rfl | hq' := List.mem_cons.1 hq'
            · exact Nat.le_trans hfirst (Nat.le_of_not_lt hlt)
            · exact hmin q' (List.mem_cons_of_mem first hq')

theorem mem_entries_of_lookup (h : c.lookup key = some entry) : (key, entry) ∈ c.entries := by
  obtain ⟨before, after, hentries, -⟩ := List.lookup_eq_some_iff.1 h
  rw [hentries]
  simp

theorem lookup_of_mem (hnodup : (c.entries.map (·.1)).Nodup) (h : (key, entry) ∈ c.entries) :
    c.lookup key = some entry := by
  obtain ⟨before, after, hentries⟩ := List.append_of_mem h
  rw [hentries, List.map_append, List.map_cons, List.nodup_append] at hnodup
  apply List.lookup_eq_some_iff.2
  refine ⟨before, after, hentries, ?_⟩
  intro p hp
  have hne : p.1 ≠ key := hnodup.2.2 p.1 (List.mem_map_of_mem hp) key List.mem_cons_self
  simpa using hne.symm

theorem nodup_remove (h : (c.entries.map (·.1)).Nodup) :
    ((c.remove key).entries.map (·.1)).Nodup :=
  h.sublist (List.filter_sublist.map _)

theorem nodup_put (h : (c.entries.map (·.1)).Nodup) :
    ((c.put key entry).entries.map (·.1)).Nodup := by
  apply List.nodup_cons.2
  refine ⟨?_, nodup_remove h⟩
  intro hmem
  obtain ⟨p, hp, hkey⟩ := List.mem_map.1 hmem
  have hne : p.1 ≠ key := of_decide_eq_true (List.mem_filter.1 hp).2
  exact hne hkey

theorem length_remove_lt (h : (key, entry) ∈ c.entries) :
    (c.remove key).entries.length < c.entries.length := by
  apply List.length_filter_lt_length_iff_exists.2
  exact ⟨(key, entry), h, by simp⟩

theorem length_put_le : (c.put key entry).entries.length ≤ c.entries.length + 1 :=
  Nat.succ_le_succ (List.length_filter_le _ _)

/-- A map that is not empty gives up one of its entries, and none expires earlier. -/
theorem evicted_spec (hperm : order.Perm c.entries) (h : c.evicted order = some key) :
    ∃ e, (key, e) ∈ c.entries ∧ ∀ p ∈ c.entries, e.expires ≤ p.2.expires := by
  unfold DnsCache.evicted at h
  split at h
  · obtain ⟨p, hp, rfl⟩ := Option.map_eq_some_iff.1 h
    obtain ⟨hmem, hmin⟩ := firstToExpire_spec hp
    exact ⟨p.2, hperm.mem_iff.1 hmem, fun q hq => hmin q (hperm.mem_iff.2 hq)⟩
  · cases h

theorem expiresFirst_of_evicted (hnodup : (c.entries.map (·.1)).Nodup)
    (hperm : order.Perm c.entries) (h : c.evicted order = some key) : c.ExpiresFirst key := by
  obtain ⟨e, hmem, hmin⟩ := evicted_spec hperm h
  refine ⟨e, lookup_of_mem hnodup hmem, ?_⟩
  intro key' e' he'
  exact hmin (key', e') (mem_entries_of_lookup he')

/-- A full map always has an entry to give up. -/
theorem lt_of_evicted_eq_none (hperm : order.Perm c.entries) (h : c.evicted order = none) :
    c.entries.length < maxCacheEntries := by
  unfold DnsCache.evicted at h
  split at h
  · next hfull =>
    cases order with
    | nil =>
      have hlen := hperm.length_eq
      rw [List.length_nil] at hlen
      rw [← hlen] at hfull
      exact absurd hfull (by decide)
    | cons p order => cases h
  · next hroom => exact Nat.lt_of_not_le hroom

/-- What is left behind the eviction has room for one more entry. -/
theorem room_after_eviction (hperm : order.Perm c.entries)
    (hfew : c.entries.length ≤ maxCacheEntries) :
    ((c.evicted order).elim c c.remove).entries.length < maxCacheEntries := by
  cases hevicted : c.evicted order with
  | none => exact lt_of_evicted_eq_none hperm hevicted
  | some key =>
    obtain ⟨e, hmem, -⟩ := evicted_spec hperm hevicted
    exact Nat.lt_of_lt_of_le (length_remove_lt hmem) hfew

theorem insertIn_eq (c : DnsCache) (order : List (String × CacheEntry)) (now : Instant)
    (i : Insertion) : c.insertIn order now i =
      ((c.evicted order).elim c c.remove).put (cacheKey i.name i.qtype) (i.entry now) := by
  unfold DnsCache.insertIn
  cases c.evicted order <;> rfl

/-- The insertion with a victim from outside is this one, for the victim that the map's order
picks. -/
theorem insert_eq_insertIn {victim : String} {now : Instant} {i : Insertion}
    (hnodup : (c.entries.map (·.1)).Nodup) (hperm : order.Perm c.entries)
    (hvictim : ∀ key ∈ c.evicted order, victim = key) :
    c.insert now victim i.name i.qtype i.addrs i.ttl i.nxdomain =
      some (c.insertIn order now i) := by
  rw [insertIn_eq]
  unfold DnsCache.insert
  dsimp only
  by_cases hfull : c.entries.length ≥ maxCacheEntries
  · cases hevicted : c.evicted order with
    | none => exact absurd hfull (Nat.not_le.2 (lt_of_evicted_eq_none hperm hevicted))
    | some key =>
      obtain rfl := hvictim key hevicted
      obtain ⟨e, hmem, hmin⟩ := evicted_spec hperm hevicted
      rw [if_pos hfull, lookup_of_mem hnodup hmem, Option.bind_some, if_pos hmin]
      rfl
  · have hnone : c.evicted order = none := if_neg hfull
    rw [if_neg hfull, hnone]
    rfl

end Cache

/-! The history. -/

section History
variable {log : List CacheEvent} {name : String} {q : ℕ} {now : Instant} {i : Insertion}
  {c : DnsCache} {key : String}

/-- The last event is the insertion itself, or leaves the latest one as it is. -/
theorem latest_concat {event : CacheEvent} : Latest (log ++ [event]) name q now i ↔
    (event = .inserted now i ∧ i.name = name ∧ i.qtype = q) ∨
      (¬event.Undoes name q ∧ Latest log name q now i) := by
  constructor
  · rintro ⟨before, after, hlog, hname, hq, hafter⟩
    obtain rfl | ⟨after, last, rfl⟩ := List.eq_nil_or_concat' after
    · obtain ⟨-, hevent⟩ := List.append_inj' hlog rfl
      exact .inl ⟨List.singleton_inj.1 hevent, hname, hq⟩
    · rw [← List.cons_append, ← List.append_assoc] at hlog
      obtain ⟨rfl, hevent⟩ := List.append_inj' hlog rfl
      obtain rfl := List.singleton_inj.1 hevent
      exact .inr ⟨hafter _ (by simp), before, after, rfl, hname, hq,
        fun e he => hafter e (by simp [he])⟩
  · rintro (⟨rfl, hname, hq⟩ | ⟨hkeep, before, after, rfl, hname, hq, hafter⟩)
    · exact ⟨log, [], rfl, hname, hq, nofun⟩
    · refine ⟨before, after ++ [event], by simp, hname, hq, ?_⟩
      intro e he
      obtain he | he := List.mem_append.1 he
      · exact hafter e he
      · rwa [List.mem_singleton.1 he]

theorem linked_flush : Linked ⟨[]⟩ (log ++ [.flushed]) := by
  intro name q e
  refine iff_of_false nofun ?_
  rintro ⟨now, i, hlatest, -⟩
  obtain ⟨hevent, -⟩ | ⟨hkeep, -⟩ := latest_concat.1 hlatest
  · cases hevent
  · exact hkeep trivial

theorem linked_remove (h : Linked c log) : Linked (c.remove key) (log ++ [.evicted key]) := by
  intro name q e
  rw [DnsCache.lookup_remove]
  by_cases hkey : cacheKey name q = key
  · rw [if_pos hkey]
    refine iff_of_false nofun ?_
    rintro ⟨now, i, hlatest, -⟩
    obtain ⟨hevent, -⟩ | ⟨hkeep, -⟩ := latest_concat.1 hlatest
    · cases hevent
    · exact hkeep hkey.symm
  · rw [if_neg hkey, h name q e]
    have hkeep : ¬(CacheEvent.evicted key).Undoes name q := fun hundoes => hkey hundoes.symm
    simp [latest_concat, hkeep]

theorem linked_put (h : Linked c log) :
    Linked (c.put (cacheKey i.name i.qtype) (i.entry now)) (log ++ [.inserted now i]) := by
  intro name q e
  rw [DnsCache.lookup_put]
  by_cases hkey : cacheKey name q = cacheKey i.name i.qtype
  · obtain ⟨rfl, rfl⟩ := cacheKey_inj hkey
    have hundoes : (CacheEvent.inserted now i).Undoes i.name i.qtype := ⟨rfl, rfl⟩
    rw [if_pos hkey]
    constructor
    · intro he
      exact ⟨now, i, latest_concat.2 (.inl ⟨rfl, rfl, rfl⟩), (Option.some.inj he).symm⟩
    · rintro ⟨now', i', hlatest, rfl⟩
      obtain ⟨hevent, -⟩ | ⟨hkeep, -⟩ := latest_concat.1 hlatest
      · cases hevent
        rfl
      · exact absurd hundoes hkeep
  · have hkeep : ¬(CacheEvent.inserted now i).Undoes name q := fun hundoes =>
      hkey (by rw [← hundoes.1, ← hundoes.2])
    rw [if_neg hkey, h name q e]
    constructor
    · rintro ⟨now', i', hlatest, rfl⟩
      exact ⟨now', i', latest_concat.2 (.inr ⟨hkeep, hlatest⟩), rfl⟩
    · rintro ⟨now', i', hlatest, rfl⟩
      obtain ⟨hevent, hname, hq⟩ | ⟨-, hlatest⟩ := latest_concat.1 hlatest
      · cases hevent
        exact absurd ⟨hname, hq⟩ hkeep
      · exact ⟨now', i', hlatest, rfl⟩

end History

/-! One step, and whole runs. -/

theorem inv_init : CacheRun.init.Inv where
  nodup := List.nodup_nil
  few := Nat.zero_le _
  linked name q e := by
    refine iff_of_false nofun ?_
    rintro ⟨now, i, ⟨before, after, hlog, -⟩, -⟩
    exact absurd hlog (List.append_ne_nil_of_right_ne_nil _ (List.cons_ne_nil _ _)).symm

theorem inv_insert {r : CacheRun} {order : List (String × CacheEntry)} {now : Instant}
    {i : Insertion} (h : r.Inv) (hperm : order.Perm r.cache.entries) :
    CacheRun.Inv ⟨r.cache.insertIn order now i, now,
      r.log ++ (r.cache.evicted order).toList.map .evicted ++ [.inserted now i]⟩ := by
  have hroom := room_after_eviction hperm h.few
  have hmiddle : (((r.cache.evicted order).elim r.cache r.cache.remove).entries.map (·.1)).Nodup ∧
      Linked ((r.cache.evicted order).elim r.cache r.cache.remove)
        (r.log ++ (r.cache.evicted order).toList.map .evicted) := by
    cases r.cache.evicted order with
    | none =>
      refine ⟨h.nodup, ?_⟩
      show Linked r.cache (r.log ++ [])
      rw [List.append_nil]
      exact h.linked
    | some key => exact ⟨nodup_remove h.nodup, linked_remove h.linked⟩
  refine ⟨?_, ?_, ?_⟩
  · rw [insertIn_eq]
    exact nodup_put hmiddle.1
  · rw [insertIn_eq]
    exact Nat.le_trans length_put_le hroom
  · rw [insertIn_eq]
    exact linked_put hmiddle.2

theorem inv_step {r r' : CacheRun} {op : Instant × CacheOp} (h : cacheStep r op = some r')
    (hr : r.Inv) : r'.Inv := by
  obtain ⟨now, op⟩ := op
  unfold cacheStep at h
  split at h
  · cases op with
    | insert order i =>
      dsimp only at h
      split at h
      · next hperm =>
        cases h
        exact inv_insert hr hperm
      · cases h
    | get name q =>
      cases h
      exact ⟨hr.nodup, hr.few, hr.linked⟩
    | flush =>
      cases h
      exact ⟨List.nodup_nil, Nat.zero_le _, linked_flush⟩
  · cases h

theorem inv_of_reach {r : CacheRun} (h : Runs.Reach cacheStep (fun _ _ => True) .init r) : r.Inv :=
  h.invariant (fun hr _ hstep => inv_step hstep hr) inv_init

/-- What is read is the latest insertion, while it has not expired. -/
theorem get_eq_some_iff {c : DnsCache} {log : List CacheEvent} (h : Linked c log) {t : Instant}
    {name : String} {q : ℕ} {addrs : List IpAddr} : c.get t name q = some addrs ↔
      ∃ now i, Latest log name q now i ∧ t ≤ now + fromSecs i.ttl ∧ addrs = i.answer := by
  have hentry : ∀ now (i : Insertion), (if t > (i.entry now).expires then none
      else if (i.entry now).nxdomain then some [] else some (i.entry now).addresses) = some addrs ↔
      t ≤ now + fromSecs i.ttl ∧ addrs = i.answer := by
    intro now i
    unfold Insertion.answer
    by_cases hlive : t ≤ now + fromSecs i.ttl
    · have hread : ¬t > (i.entry now).expires := Nat.not_lt.2 hlive
      rw [if_neg hread]
      show (if i.nxdomain then some [] else some i.addrs) = some addrs ↔ _
      cases i.nxdomain <;> simp [hlive, eq_comm]
    · have hread : t > (i.entry now).expires := Nat.lt_of_not_le hlive
      rw [if_pos hread]
      exact iff_of_false nofun fun hnot => hlive hnot.1
  unfold DnsCache.get
  rw [Option.bind_eq_some_iff]
  constructor
  · rintro ⟨e, he, hread⟩
    obtain ⟨now, i, hlatest, rfl⟩ := (h name q e).1 he
    exact ⟨now, i, hlatest, (hentry now i).1 hread⟩
  · rintro ⟨now, i, hlatest, hread⟩
    exact ⟨i.entry now, (h name q _).2 ⟨now, i, hlatest, rfl⟩, (hentry now i).2 hread⟩

/-- What an operation is in the history, apart from an eviction. -/
def CacheOp.events (now : Instant) : CacheOp → List CacheEvent
  | .insert _ i => [.inserted now i]
  | .get _ _ => []
  | .flush => [.flushed]

theorem step_log {r r' : CacheRun} {op : Instant × CacheOp} (hr : r.Inv)
    (h : cacheStep r op = some r') : ∃ evicted : Option String,
      r'.log = r.log ++ evicted.toList.map .evicted ++ op.2.events op.1 ∧
        ∀ key ∈ evicted, r.cache.ExpiresFirst key := by
  obtain ⟨now, op⟩ := op
  unfold cacheStep at h
  split at h
  · cases op with
    | insert order i =>
      dsimp only at h
      split at h
      · next hperm =>
        cases h
        exact ⟨r.cache.evicted order, rfl, fun key hkey =>
          expiresFirst_of_evicted hr.nodup hperm hkey⟩
      · cases h
    | get name q =>
      cases h
      exact ⟨none, by simp [CacheOp.events], nofun⟩
    | flush =>
      cases h
      exact ⟨none, by simp [CacheOp.events], nofun⟩
  · cases h

/-- In every reachable state the cache is within its bound, what can be read is what was inserted
last and has neither expired nor been evicted or flushed, and an operation evicts at most one entry,
one that expires first. -/
theorem dnsCache_history {r : CacheRun}
    (hr : Runs.Reach cacheStep (fun _ _ => True) .init r) :
    r.cache.entries.length ≤ maxCacheEntries ∧
    (∀ t name q addrs, r.cache.get t name q = some addrs ↔
      ∃ now i, Latest r.log name q now i ∧ t ≤ now + fromSecs i.ttl ∧ addrs = i.answer) ∧
    ∀ op r', cacheStep r op = some r' → ∃ evicted : Option String,
      r'.log = r.log ++ evicted.toList.map .evicted ++ op.2.events op.1 ∧
        ∀ key ∈ evicted, r.cache.ExpiresFirst key :=
  have hinv := inv_of_reach hr
  ⟨hinv.few, fun _ _ _ _ => get_eq_some_iff hinv.linked, fun _ _ => step_log hinv⟩

/-- An address that is inserted twice, the second time as a name that does not exist. -/
def twice : List (Instant × CacheOp) :=
  [(5, .insert [] ⟨"a.example", 1, [.v4 ⟨192, 0, 2, 1⟩], 300, false⟩),
    (9, .insert [("a.example:1", ⟨[.v4 ⟨192, 0, 2, 1⟩], 5 + fromSecs 300, false⟩)]
      ⟨"a.example", 1, [], 60, true⟩)]

theorem dnsCache_history_twice : ∃ r, Runs.Reach cacheStep (fun _ _ => True) .init r ∧
    r.cache.entries.length ≤ maxCacheEntries ∧ ∃ now i, Latest r.log "a.example" 1 now i ∧
      fromSecs 60 ≤ now + fromSecs i.ttl ∧ [] = i.answer := by
  obtain ⟨r, hr, hcheck⟩ := Runs.exists_reach_of_exec cacheStep (fun _ _ => True) .init twice
    (fun r => decide (r.cache.get (fromSecs 60) "a.example" 1 = some [])) (by decide +kernel)
  obtain ⟨hfew, hget, -⟩ := dnsCache_history hr
  exact ⟨r, hr, hfew, (hget _ _ _ _).1 (of_decide_eq_true hcheck)⟩

end Quantra.Dns
