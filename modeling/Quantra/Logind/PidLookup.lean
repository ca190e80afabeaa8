import Quantra.Lib.Climb
import Quantra.Lib.Utf8
import Quantra.Logind.Session

/-! `session_by_pid` and `get_ppid` of `session.rs`, over a table of the processes that `/proc`
shows. -/
namespace Quantra.PidLookup
open Bytes Climb Logind Text

/-- A line of `/proc/<pid>/cgroup`: the number of a hierarchy with its controllers, and behind a colon
a path, which need not be text. -/
structure CgroupEntry where
  hierarchy : List UInt8
  path : List UInt8
  deriving DecidableEq, Repr

/-- A process as `/proc` shows it. In `status` the parent stands behind other lines, of which one has
the name of the process, whatever its bytes are. -/
structure Process where
  before : List (List UInt8)
  ppid : ℕ
  after : List UInt8
  cgroup : List CgroupEntry
  ppid_lt : ppid < 2 ^ 32
  before_ok : ∀ l ∈ before, 10 ∉ l ∧ ¬asBytes "PPid:\t" <+: l

def Process.status (p : Process) : List UInt8 :=
  p.before.flatMap (· ++ [10]) ++ (asBytes ("PPid:\t" ++ toString p.ppid) ++ 10 :: p.after)

def Process.cgroupFile (p : Process) : List UInt8 :=
  p.cgroup.flatMap fun e => e.hierarchy ++ 58 :: e.path ++ [10]

abbrev Processes := List (ℕ × Process)

section Code
variable (sessions : List Session) (procs : Processes)

/-- `read_to_string` of the two files, which fails on what is not UTF-8. -/
def readStatus (pid : ℕ) : Option String := (procs.lookup pid).bind fun p => decode p.status

def readCgroup (pid : ℕ) : Option String := (procs.lookup pid).bind fun p => decode p.cgroupFile

def getPpid (pid : ℕ) : Option ℕ :=
  (readStatus procs pid).bind fun stat =>
    ((lines stat).findSome? (dropLead "PPid:\t")).bind fun ppidStr => parseU32 (trim ppidStr)

/-- The recursion of `session_by_pid` to a depth; the sessions are in the order of the map. -/
def sessionByPid : ℕ → ℕ → Option (Option Session)
  | 0, _ => none
  | n + 1, pid =>
    match sessions.find? fun s => s.leaderPid = pid with
    | some s => some (some s)
    | none =>
      match (readCgroup procs pid).bind fun cgroup =>
          sessions.find? fun s => SessionManager.contains cgroup s.scope with
      | some s => some (some s)
      | none =>
        match getPpid procs pid with
        | some ppid => if ppid ≠ pid ∧ ppid > 1 then sessionByPid n ppid else some none
        | none => some none

end Code

/-! What it is to find. -/

section Spec
variable (sessions : List Session) (procs : Processes)

/-- The parent of a process, unless it is 0 or 1. -/
def parent (pid : ℕ) : Option ℕ := ((procs.lookup pid).map (·.ppid)).filter (1 < ·)

/-- The parent, if the file that tells it is text. -/
def shownParent (pid : ℕ) : Option ℕ :=
  if (readStatus procs pid).isSome then parent procs pid else none

def Leads (pid : ℕ) (s : Session) : Prop := s ∈ sessions ∧ s.leaderPid = pid

/-- The scope is a component of the path of the process's cgroup; byte 47 is the slash. -/
def InScope (pid : ℕ) (s : Session) : Prop :=
  s ∈ sessions ∧ ∃ p, procs.lookup pid = some p ∧
    ∃ e ∈ p.cgroup, asBytes s.scope ∈ e.path.splitOn 47

/-- The process's cgroup is text, and the scope stands anywhere in it. -/
def Mentions (pid : ℕ) (s : Session) : Prop :=
  s ∈ sessions ∧ ∃ cgroup, readCgroup procs pid = some cgroup ∧
    SessionManager.contains cgroup s.scope

/-- The process leads the session, or no session and is in the scope of this one. -/
def Belongs (pid : ℕ) (s : Session) : Prop :=
  Leads sessions pid s ∨ (∀ t, ¬Leads sessions pid t) ∧ InScope sessions procs pid s

/-- The same with the text for the path. -/
def Touches (pid : ℕ) (s : Session) : Prop :=
  Leads sessions pid s ∨ (∀ t, ¬Leads sessions pid t) ∧ Mentions sessions procs pid s

/-- In whatever order the map has the sessions, the search ends, and finds the session of the
nearest process upwards that belongs to one, or none if none does. -/
def LookupLaw (pid : ℕ) : Prop :=
  ∀ order, order.Perm sessions → ∃ n r, (∀ m, n ≤ m → sessionByPid order procs m pid = some r) ∧
    Nearest (parent procs) (Belongs sessions procs) pid r

/-- What the files tell as text, on the way up from a process as far as they tell it, is right. -/
inductive ToldRight : ℕ → Prop
  /-- The nearest process that leads a session or mentions a scope: what it mentions is the scope of a
  session in its path, or it has no such scope in the path and the session is that of the processes
  further up. -/
  | stop {q : ℕ} (htouch : ∃ s, Touches sessions procs q s)
      (hright : ∀ s, Touches sessions procs q s → Leads sessions q s ∨ InScope sessions procs q s ∨
        (∀ t, ¬InScope sessions procs q t) ∧ ∃ q', parent procs q = some q' ∧
          Nearest (parent procs) (Belongs sessions procs) q' (some s)) : ToldRight q
  /-- A process before it whose cgroup is no text, and in the scope of a session: so is it in that of
  each session which is then found further up. -/
  | unread {q c : ℕ} {t : Session} (hnone : ∀ s, ¬Touches sessions procs q s)
      (hread : readCgroup procs q = none) (hscope : InScope sessions procs q t)
      (hstop : Stops (shownParent procs) (Touches sessions procs) q c)
      (hsame : ∀ s, Touches sessions procs c s → InScope sessions procs q s) : ToldRight q
  | up {q q' : ℕ} (hnone : ∀ s, ¬Touches sessions procs q s)
      (hscope : ∀ t, ¬InScope sessions procs q t) (hup : shownParent procs q = some q')
      (hright : ToldRight q') : ToldRight q
  /-- The last process of which the parent is told, or that has none: nobody further up belongs to a
  session. -/
  | top {q : ℕ} (hnone : ∀ s, ¬Touches sessions procs q s)
      (hscope : ∀ t, ¬InScope sessions procs q t) (hup : shownParent procs q = none)
      (habove : ∀ q', parent procs q = some q' →
        Nearest (parent procs) (Belongs sessions procs) q' none) : ToldRight q

end Spec

variable {sessions order : List Session} {procs : Processes} {p : Process} {pid q n : ℕ}
  {s t : Session} {r : Option Session}

/-! What is read of a process. -/

theorem isDigit_of_mem_toString {m : ℕ} {c : Char} (h : c ∈ (toString m).toList) : c.isDigit := by
  rw [Nat.toString_eq_ofList_toDigits, String.toList_ofList] at h
  exact Nat.isDigit_of_mem_toDigits (by decide) (by decide) h

/-- A line that does not begin with the key is passed over. -/
theorem findSome?_lines_cons {key : String} {l : List Char} (hnl : '\n' ∉ l)
    (h : dropLead key (String.ofList l) = none) (rest : List Char) :
    (lines (String.ofList (l ++ '\n' :: rest))).findSome? (dropLead key) =
      (lines (String.ofList rest)).findSome? (dropLead key) := by
  have hnone : dropLead key (String.ofList (dropCarriageReturn l)) = none := by
    cases hlead : dropLead key (String.ofList (dropCarriageReturn l)) with
    | none => rfl
    | some v =>
      obtain ⟨w, hw⟩ := dropCarriageReturn_prefix l
      have htext := toList_of_dropLead hlead
      rw [String.toList_ofList] at htext
      rw [← hw, htext, List.append_assoc, dropLead_append] at h
      cases h
  rw [lines_cons hnl, List.findSome?_cons, hnone]

theorem findSome?_parentLine (m : ℕ) (rest : List Char) :
    (lines (String.ofList (("PPid:\t" ++ toString m).toList ++ '\n' :: rest))).findSome?
      (dropLead "PPid:\t") = some (toString m) := by
  have hcr : dropCarriageReturn (toString m).toList = (toString m).toList := by
    rw [dropCarriageReturn_eq_self_iff]
    exact fun hlast => absurd (isDigit_of_mem_toString (List.mem_of_getLast? hlast)) (by decide)
  have hnl : '\n' ∉ "PPid:\t".toList ++ (toString m).toList := by
    rw [List.mem_append, not_or]
    exact ⟨by decide, fun hmem => absurd (isDigit_of_mem_toString hmem) (by decide)⟩
  rw [String.toList_append, lines_cons hnl, dropCarriageReturn_append (by decide), hcr,
    List.findSome?_cons, dropLead_append, String.ofList_toList]

/-- Where the file is text, the line of the parent is found behind the other lines. -/
theorem findSome?_status {m : ℕ} {before : List (List UInt8)} {after : List UInt8} {cs : List Char}
    (hok : ∀ l ∈ before, 10 ∉ l ∧ ¬asBytes "PPid:\t" <+: l)
    (h : asBytes (String.ofList cs) =
      before.flatMap (· ++ [10]) ++ (asBytes ("PPid:\t" ++ toString m) ++ 10 :: after)) :
    (lines (String.ofList cs)).findSome? (dropLead "PPid:\t") = some (toString m) := by
  induction before generalizing cs with
  | nil =>
    obtain ⟨u, v, rfl, hu, -⟩ := chars_of_bytes (c := '\n') (by decide) h
    rw [asBytes_inj] at hu
    have hline : u = ("PPid:\t" ++ toString m).toList := by rw [← hu, String.toList_ofList]
    rw [hline]
    exact findSome?_parentLine m v
  | cons l before ih =>
    rw [List.flatMap_cons, List.append_assoc, List.append_assoc] at h
    obtain ⟨u, v, rfl, rfl, hv⟩ := chars_of_bytes (c := '\n') (by decide) h
    obtain ⟨hnl, hkey⟩ := hok _ List.mem_cons_self
    have hnl' : '\n' ∉ u := by
      intro hmem
      refine hnl ((mem_asBytes_iff (c := '\n') (by decide)).2 ?_)
      rw [String.toList_ofList]
      exact hmem
    have hlead : dropLead "PPid:\t" (String.ofList u) = none := by
      cases hlead : dropLead "PPid:\t" (String.ofList u) with
      | none => rfl
      | some w =>
        have htext := toList_of_dropLead hlead
        refine absurd ⟨asBytes w, ?_⟩ hkey
        rw [← asBytes_append, asBytes_inj, ← String.toList_inj, String.toList_append, htext]
    rw [findSome?_lines_cons hnl' hlead]
    exact ih (fun l' hl' => hok l' (List.mem_cons_of_mem _ hl')) hv

/-- The parent is read where the file is text. -/
theorem getPpid_eq (procs : Processes) (pid : ℕ) :
    getPpid procs pid =
      if (readStatus procs pid).isSome then (procs.lookup pid).map (·.ppid) else none := by
  unfold getPpid
  cases hread : readStatus procs pid with
  | none => rfl
  | some text =>
    obtain ⟨p, hp, hdecode⟩ := Option.bind_eq_some_iff.1 hread
    have hbytes := asBytes_of_decode hdecode
    rw [← String.ofList_toList (s := text)] at hbytes
    have htrim : trim (toString p.ppid) = toString p.ppid :=
      trim_of_forall fun c hc => isWhitespace_of_isDigit (isDigit_of_mem_toString hc)
    have hfound := findSome?_status p.before_ok hbytes
    rw [String.ofList_toList] at hfound
    rw [Option.bind_some, hfound, Option.bind_some, htrim, Nat.toString_eq_ofList_toDigits,
      parseU32_toDigits p.ppid_lt, Option.isSome_some, if_pos rfl, hp, Option.map_some]

theorem contains_iff {s sub : String} :
    SessionManager.contains s sub ↔ sub.toList <:+: s.toList := by
  unfold SessionManager.contains
  rw [List.any_eq_true]
  constructor
  · rintro ⟨cs, hcs, hpre⟩
    exact (List.isPrefixOf_iff_prefix.1 hpre).isInfix.trans (List.mem_tails _ _ |>.1 hcs).isInfix
  · intro h
    obtain ⟨cs, hpre, hsuf⟩ := List.infix_iff_prefix_suffix.1 h
    exact ⟨cs, (List.mem_tails _ _).2 hsuf, List.isPrefixOf_iff_prefix.2 hpre⟩

/-- Bytes of a text between two ASCII characters are a piece of the text. -/
theorem contains_of_bytes {text sub : String} {a b : Char} {u v : List UInt8} (ha : a.toNat < 128)
    (hb : b.toNat < 128) (h : asBytes text =
      u ++ UInt8.ofNat a.toNat :: (asBytes sub ++ UInt8.ofNat b.toNat :: v)) :
    SessionManager.contains text sub := by
  rw [← String.ofList_toList (s := text)] at h
  obtain ⟨before, rest, htext, -, hrest⟩ := chars_of_bytes ha h
  obtain ⟨piece, after, rfl, hpiece, -⟩ := chars_of_bytes hb hrest
  rw [asBytes_inj] at hpiece
  rw [contains_iff, htext, ← hpiece, String.toList_ofList]
  exact ⟨before ++ [a], b :: after, by simp⟩

/-- A component of the path stands in the text, if the file is one. -/
theorem InScope.mentions (h : InScope sessions procs pid s) {cgroup : String}
    (hread : readCgroup procs pid = some cgroup) : Mentions sessions procs pid s := by
  obtain ⟨hs, p, hp, e, he, hscope⟩ := h
  refine ⟨hs, cgroup, hread, ?_⟩
  rw [readCgroup, hp, Option.bind_some] at hread
  obtain ⟨before, after, hcgroup⟩ := List.append_of_mem he
  obtain ⟨u, v, hpath, hu, hv⟩ := append_of_mem_splitOn hscope
  -- a colon or a slash comes before the component, and a slash or the end of the line after it
  obtain ⟨a, u', ha, hbefore⟩ : ∃ (a : Char) (u' : List UInt8), a.toNat < 128 ∧
      58 :: u = u' ++ [UInt8.ofNat a.toNat] := by
    rcases hu with rfl | ⟨u', rfl⟩
    · exact ⟨':', [], by decide, rfl⟩
    · exact ⟨'/', 58 :: u', by decide, rfl⟩
  obtain ⟨b, v', hb, hafter⟩ : ∃ (b : Char) (v' : List UInt8), b.toNat < 128 ∧
      v ++ [10] = UInt8.ofNat b.toNat :: v' := by
    rcases hv with rfl | ⟨v', rfl⟩
    · exact ⟨'\n', [], by decide, rfl⟩
    · exact ⟨'/', v' ++ [10], by decide, rfl⟩
  have hline : e.hierarchy ++ 58 :: e.path ++ [10] = e.hierarchy ++ u' ++
      UInt8.ofNat a.toNat :: (asBytes s.scope ++ UInt8.ofNat b.toNat :: v') := by
    rw [hpath, List.append_assoc, List.append_assoc, ← hafter, List.append_cons, ← List.append_cons,
      ← List.cons_append, hbefore]
    simp
  refine contains_of_bytes (u := before.flatMap (fun e => e.hierarchy ++ 58 :: e.path ++ [10]) ++
    (e.hierarchy ++ u')) (v := v' ++ after.flatMap fun e => e.hierarchy ++ 58 :: e.path ++ [10]) ha hb ?_
  rw [asBytes_of_decode hread, Process.cgroupFile, hcgroup, List.flatMap_append, List.flatMap_cons,
    hline]
  simp

/-! The recursion as a climb. -/

/-- The session that the recursion finds at the process itself. -/
def found (sessions : List Session) (procs : Processes) (pid : ℕ) : Option Session :=
  (sessions.find? fun s => s.leaderPid = pid).or
    ((readCgroup procs pid).bind fun cgroup =>
      sessions.find? fun s => SessionManager.contains cgroup s.scope)

theorem parent_eq_some_iff : parent procs pid = some q ↔
    (procs.lookup pid).map (·.ppid) = some q ∧ 1 < q := by
  rw [parent, Option.filter_eq_some_iff, decide_eq_true_iff]

theorem shownParent_eq_some_iff : shownParent procs pid = some q ↔
    (readStatus procs pid).isSome ∧ parent procs pid = some q := by
  simp [shownParent]

theorem parent_of_shownParent (h : shownParent procs pid = some q) : parent procs pid = some q :=
  (shownParent_eq_some_iff.1 h).2

theorem acyclic_shown (hacyclic : Levels.Acyclic (Above (parent procs))) :
    Levels.Acyclic (Above (shownParent procs)) := by
  have hle : Above (shownParent procs) ≤ Above (parent procs) := fun _ _ => parent_of_shownParent
  exact fun q h => hacyclic q (Relation.TransGen.mono hle q q h)

/-- No process above 1 is its own parent, so that the test for it makes no difference. -/
theorem shownParent_eq (hacyclic : Levels.Acyclic (Above (parent procs))) (pid : ℕ) :
    shownParent procs pid = (getPpid procs pid).filter fun ppid => ppid ≠ pid ∧ ppid > 1 := by
  have hself : parent procs pid ≠ some pid := fun h => hacyclic pid (.single h)
  rw [getPpid_eq]
  unfold shownParent
  split
  · unfold parent at hself ⊢
    cases hppid : (procs.lookup pid).map (·.ppid) with
    | none => rfl
    | some ppid =>
      rw [hppid] at hself
      rw [Option.filter_some, Option.filter_some]
      by_cases h : 1 < ppid
      · have hne : ppid ≠ pid := by
          rintro rfl
          exact hself (by rw [Option.filter_some, if_pos (decide_eq_true h)])
        rw [if_pos (decide_eq_true h), if_pos (decide_eq_true ⟨hne, h⟩)]
      · rw [if_neg (by simpa using h), if_neg (by simpa using fun _ => Nat.le_of_not_lt h)]
  · rfl

theorem sessionByPid_eq_climb (hacyclic : Levels.Acyclic (Above (parent procs))) :
    sessionByPid sessions procs n pid = climb (shownParent procs) (found sessions procs) n pid := by
  induction n generalizing pid with
  | zero => rfl
  | succ n ih =>
    unfold sessionByPid climb found
    rw [shownParent_eq hacyclic]
    cases sessions.find? fun s => s.leaderPid = pid with
    | some s => rfl
    | none =>
      rw [Option.none_or]
      cases (readCgroup procs pid).bind fun cgroup =>
          sessions.find? fun s => SessionManager.contains cgroup s.scope with
      | some s => rfl
      | none =>
        cases getPpid procs pid with
        | none => rfl
        | some ppid =>
          by_cases h : ppid ≠ pid ∧ ppid > 1
          · rw [Option.filter_some, if_pos (decide_eq_true h), Option.elim_some]
            exact (if_pos h).trans ih
          · rw [Option.filter_some, if_neg (by simpa using h), Option.elim_none]
            exact if_neg h

theorem sessionByPid_succ_of_found (h : found sessions procs pid = some s) :
    sessionByPid sessions procs (n + 1) pid = some (some s) := by
  unfold sessionByPid
  rcases Option.or_eq_some_iff.1 h with hleads | ⟨hnone, hcgroup⟩
  · rw [hleads]
  · rw [hnone, hcgroup]

/-- On a finite table without cycles the recursion ends. -/
theorem exists_sessionByPid (hacyclic : Levels.Acyclic (Above (parent procs))) :
    ∃ n r, ∀ m, n ≤ m → sessionByPid sessions procs m pid = some r := by
  have hfinite : {ppid | ppid ∈ procs.map fun entry => entry.2.ppid}.Finite :=
    List.finite_toSet _
  have hsource : ∀ u v, Above (shownParent procs) u v → u ∈ procs.map fun entry => entry.2.ppid := by
    intro u v h
    obtain ⟨p, hp, hppid⟩ := Option.map_eq_some_iff.1
      (parent_eq_some_iff.1 (parent_of_shownParent h)).1
    obtain ⟨before, after, hprocs, -⟩ := List.lookup_eq_some_iff.1 hp
    rw [hprocs, ← hppid]
    simp
  obtain ⟨n, hn⟩ := Levels.exists_peeled_of_acyclic hfinite hsource (acyclic_shown hacyclic) pid
  obtain ⟨r, hr⟩ : ∃ r, climb (shownParent procs) (found sessions procs) n pid = some r :=
    exists_climb hn
  refine ⟨n, r, fun m hm => ?_⟩
  rw [sessionByPid_eq_climb hacyclic]
  exact climb_mono hr hm

/-! What the recursion finds at a process. -/

theorem touches_of_found (hperm : order.Perm sessions) (h : found order procs pid = some s) :
    Touches sessions procs pid s := by
  rcases Option.or_eq_some_iff.1 h with hleads | ⟨hnone, hcgroup⟩
  · exact .inl ⟨hperm.mem_iff.1 (List.mem_of_find?_eq_some hleads),
      by simpa using List.find?_some hleads⟩
  · obtain ⟨cgroup, hread, hfind⟩ := Option.bind_eq_some_iff.1 hcgroup
    have hcontains := List.find?_some hfind
    refine .inr ⟨fun t ht => ?_, hperm.mem_iff.1 (List.mem_of_find?_eq_some hfind), cgroup, hread,
      hcontains⟩
    have hno := List.find?_eq_none.1 hnone t (hperm.mem_iff.2 ht.1)
    exact hno (by simpa using ht.2)

theorem not_touches_of_found_none (hperm : order.Perm sessions)
    (h : found order procs pid = none) (s : Session) : ¬Touches sessions procs pid s := by
  obtain ⟨hleads, hcgroup⟩ := Option.or_eq_none_iff.1 h
  rintro (⟨hs, hpid⟩ | ⟨-, hs, cgroup, hread, hcontains⟩)
  · exact List.find?_eq_none.1 hleads s (hperm.mem_iff.2 hs) (by simpa using hpid)
  · rw [hread, Option.bind_some] at hcgroup
    exact List.find?_eq_none.1 hcgroup s (hperm.mem_iff.2 hs) hcontains

/-- The session that the map has first is found wherever it is touched. -/
theorem found_first (hperm : (s :: order).Perm sessions) (h : Touches sessions procs pid s) :
    found (s :: order) procs pid = some s := by
  obtain ⟨-, hpid⟩ | ⟨hno, -, cgroup, hread, hcontains⟩ := h
  · rw [found, List.find?_cons_of_pos (by simpa using hpid), Option.some_or]
  · have hleads : (s :: order).find? (fun t => t.leaderPid = pid) = none := by
      rw [List.find?_eq_none]
      intro t ht hpid
      exact hno t ⟨hperm.mem_iff.1 ht, by simpa using hpid⟩
    rw [found, hleads, Option.none_or, hread, Option.bind_some]
    exact List.find?_cons_of_pos hcontains

/-! The scopes that the login manager makes. -/

theorem not_mem_toString {m : ℕ} {c : Char} (h : c.isDigit = false) : c ∉ (toString m).toList :=
  fun hmem => Bool.eq_false_iff.1 h (isDigit_of_mem_toString hmem)

/-- In the place where the leader of session `m` is put, the scope of no other session stands. -/
theorem contains_sessionScope_iff (uid : Uid) (m k : ℕ) :
    SessionManager.contains ("0::/user.slice/user-" ++ toString uid.toNat ++ ".slice/session-" ++
      toString m ++ ".scope\n") ("session-" ++ toString k ++ ".scope") ↔ k = m := by
  -- both texts have the letter twice, and the number stands between
  have htext : ("0::/user.slice/user-" ++ toString uid.toNat ++ ".slice/session-" ++
      toString m ++ ".scope\n").toList = ("0::/user.slice/user-".toList ++
        (toString uid.toNat).toList ++ ".slice/sessi".toList) ++ 'o' ::
          (("n-".toList ++ (toString m).toList ++ ".sc".toList) ++ 'o' :: "pe\n".toList) := by
    simp
  have hscope : ("session-" ++ toString k ++ ".scope").toList =
      "sessi".toList ++ 'o' :: (("n-".toList ++ (toString k).toList ++ ".sc".toList) ++
        'o' :: "pe".toList) := by
    simp
  have hdigits : ∀ j : ℕ, 'o' ∉ (toString j).toList := fun j => not_mem_toString (by decide)
  rw [contains_iff]
  constructor
  · rintro ⟨u, v, huv⟩
    rw [htext, hscope] at huv
    have hcount := congrArg (List.count 'o') huv
    have hhead : List.count 'o' "0::/user.slice/user-".toList = 0 := by decide
    have hslice : List.count 'o' ".slice/sessi".toList = 0 := by decide
    have hline : List.count 'o' "pe\n".toList = 0 := by decide
    simp only [List.count_append, List.count_cons_self, List.count_eq_zero.2 (hdigits _), hhead,
      hslice, hline] at hcount
    have hu : 'o' ∉ u := List.count_eq_zero.1 (by omega)
    have hmid : ∀ j : ℕ, 'o' ∉ "n-".toList ++ (toString j).toList ++ ".sc".toList := by
      intro j
      simp only [List.mem_append, not_or]
      exact ⟨⟨by decide, hdigits j⟩, by decide⟩
    have hpre : 'o' ∉ "0::/user.slice/user-".toList ++ (toString uid.toNat).toList ++
        ".slice/sessi".toList := by
      simp only [List.mem_append, not_or]
      exact ⟨⟨by decide, hdigits _⟩, by decide⟩
    have hu' : 'o' ∉ u ++ "sessi".toList := by
      rw [List.mem_append, not_or]
      exact ⟨hu, by decide⟩
    have hsplit := congrArg (splitChars 'o') huv
    rw [List.append_assoc, List.append_assoc, List.cons_append, List.append_assoc,
      List.cons_append, ← List.append_assoc u, splitChars_append hu', splitChars_append (hmid k),
      splitChars_append hpre, splitChars_append (hmid m)] at hsplit
    have hnumber := (List.cons.inj (List.cons.inj hsplit).2).1
    rw [List.append_cancel_right_eq, List.append_cancel_left_eq, Nat.toString_eq_ofList_toDigits,
      Nat.toString_eq_ofList_toDigits, String.toList_ofList, String.toList_ofList] at hnumber
    have hread := congrArg digitsToNat hnumber
    rw [digitsToNat_toDigits, digitsToNat_toDigits] at hread
    exact Option.some.inj hread
  · rintro rfl
    refine ⟨"0::/user.slice/user-".toList ++ (toString uid.toNat).toList ++ ".slice/".toList,
      ['\n'], ?_⟩
    rw [htext, hscope]
    simp

/-- There the text mentions a scope exactly if it is a component of the path. -/
theorem mentions_iff_inScope {uid : Uid} {m : ℕ} (hp : procs.lookup pid = some p)
    (hcgroup : p.cgroup = [⟨asBytes "0:", asBytes ("/user.slice/user-" ++ toString uid.toNat ++
      ".slice/session-" ++ toString m ++ ".scope")⟩])
    (hs : s.scope = "session-" ++ toString s.id ++ ".scope") :
    Mentions sessions procs pid s ↔ InScope sessions procs pid s := by
  have htext : "0::/user.slice/user-" ++ toString uid.toNat ++ ".slice/session-" ++
      toString m ++ ".scope\n" = "0:" ++ (":" ++ (("/user.slice/user-" ++ toString uid.toNat ++
        ".slice/session-" ++ toString m ++ ".scope") ++ "\n")) := by
    rw [← String.toList_inj]
    simp
  have hread : readCgroup procs pid = some ("0::/user.slice/user-" ++ toString uid.toNat ++
      ".slice/session-" ++ toString m ++ ".scope\n") := by
    have hcolon : asBytes ":" = [58] := by decide +kernel
    have hnl : asBytes "\n" = [10] := by decide +kernel
    rw [readCgroup, hp, Option.bind_some, decode_eq_some_iff, Process.cgroupFile, hcgroup, htext,
      asBytes_append, asBytes_append, asBytes_append _ "\n", hcolon, hnl]
    simp
  constructor
  · rintro ⟨hmem, cgroup, hread', hcontains⟩
    rw [hread, Option.some_inj] at hread'
    rw [← hread', hs, contains_sessionScope_iff] at hcontains
    refine ⟨hmem, p, hp, _, by rw [hcgroup]; exact List.mem_singleton_self _, ?_⟩
    have hslash : ∀ {t : String}, '/' ∉ t.toList → 47 ∉ asBytes t :=
      fun ht => mt (mem_asBytes_iff (c := '/') (by decide)).1 ht
    have hpath : asBytes ("/user.slice/user-" ++ toString uid.toNat ++ ".slice/session-" ++
        toString m ++ ".scope") = [] ++ 47 :: (asBytes "user.slice" ++ 47 :: (asBytes ("user-" ++
          toString uid.toNat ++ ".slice") ++ 47 :: asBytes s.scope)) := by
      have hone : asBytes "/" = [47] := by decide +kernel
      have hparts : "/user.slice/user-" ++ toString uid.toNat ++ ".slice/session-" ++ toString m ++
          ".scope" = "/" ++ ("user.slice" ++ ("/" ++ (("user-" ++ toString uid.toNat ++ ".slice") ++
            ("/" ++ s.scope)))) := by
        rw [hs, hcontains, ← String.toList_inj]
        simp
      rw [hparts, asBytes_append "/", asBytes_append "user.slice", asBytes_append "/",
        asBytes_append _ ("/" ++ s.scope), asBytes_append "/", hone]
      rfl
    have hslice : '/' ∉ ("user-" ++ toString uid.toNat ++ ".slice").toList := by
      rw [String.toList_append, String.toList_append]
      simp only [List.mem_append, not_or]
      exact ⟨⟨by decide, not_mem_toString (by decide)⟩, by decide⟩
    have hscope : '/' ∉ s.scope.toList := by
      rw [hs, String.toList_append, String.toList_append]
      simp only [List.mem_append, not_or]
      exact ⟨⟨by decide, not_mem_toString (by decide)⟩, by decide⟩
    rw [hpath, List.splitOn_append_cons_self_of_not_mem List.not_mem_nil,
      List.splitOn_append_cons_self_of_not_mem (hslash (by decide)),
      List.splitOn_append_cons_self_of_not_mem (hslash hslice),
      List.splitOn_eq_singleton (hslash hscope)]
    simp
  · exact fun h => h.mentions hread

/-! What the process tells on the way. -/

/-- What is read of the processes on the way up from `pid`. -/
def readings (procs : Processes) : ℕ → ℕ → List SessionManager.ProcInfo
  | 0, _ => []
  | n + 1, pid =>
    ⟨readCgroup procs pid, getPpid procs pid⟩ ::
      ((getPpid procs pid).map (readings procs n)).getD []

/-- The session manager's walk over what it reads comes to the same session. -/
theorem sessionByPid_readings {sm : SessionManager}
    (h : sessionByPid sm.sessions.rows procs n pid = some r) :
    sm.sessionByPid pid (readings procs n pid) = r := by
  induction n generalizing pid with
  | zero => cases h
  | succ n ih =>
    unfold sessionByPid at h
    unfold readings SessionManager.sessionByPid
    cases hleads : sm.sessions.rows.find? fun s => s.leaderPid = pid with
    | some s =>
      rw [hleads] at h
      exact Option.some.inj h
    | none =>
      rw [hleads] at h
      rw [Option.none_or]
      dsimp only at h ⊢
      cases hcgroup : (readCgroup procs pid).bind fun cgroup =>
          sm.sessions.rows.find? fun s => SessionManager.contains cgroup s.scope with
      | some s =>
        rw [hcgroup] at h
        exact Option.some.inj h
      | none =>
        rw [hcgroup] at h
        rw [Option.none_or]
        dsimp only at h
        cases hppid : getPpid procs pid with
        | none =>
          rw [hppid] at h
          exact Option.some.inj h
        | some ppid =>
          rw [hppid] at h
          rw [Option.bind_some, Option.map_some, Option.getD_some]
          by_cases hup : ppid ≠ pid ∧ ppid > 1
          · rw [if_pos hup]
            exact ih ((if_pos hup).symm.trans h)
          · rw [if_neg hup]
            exact Option.some.inj ((if_neg hup).symm.trans h)

/-! The law. -/

/-- The search goes right where what the files tell is right. -/
theorem nearest_belongs (hperm : order.Perm sessions) (hright : ToldRight sessions procs pid)
    (h : Nearest (shownParent procs) (fun q s => found order procs q = some s) pid r) :
    Nearest (parent procs) (Belongs sessions procs) pid r := by
  have htouches : ∀ q s, found order procs q = some s → Touches sessions procs q s :=
    fun _ _ => touches_of_found hperm
  have hends : ∀ {q t}, Touches sessions procs q t → ∃ s, found order procs q = some s := by
    intro q t ht
    by_contra hnone
    exact not_touches_of_found_none hperm
      (Option.eq_none_iff_forall_ne_some.2 (not_exists.1 hnone)) t ht
  have hnot : ∀ {q}, (∀ s, ¬Touches sessions procs q s) → (∀ s, ¬InScope sessions procs q s) →
      ∀ s, ¬Belongs sessions procs q s := fun hnone hscope s hs =>
    hs.elim (fun hleads => hnone s (.inl hleads)) fun ⟨_, hs⟩ => hscope s hs
  induction hright with
  | @stop q htouch hright =>
    obtain ⟨t, ht⟩ := htouch
    obtain ⟨_, hfirst⟩ := hends ht
    obtain ⟨s, rfl, hfound⟩ := h.of_test hfirst
    have hs := htouches q s hfound
    rcases hright s hs with hleads | hscope | ⟨hnone, q', hup, hnearest⟩
    · exact .here (.inl hleads)
    · exact .here (hs.imp_right fun ⟨hno, _⟩ => ⟨hno, hscope⟩)
    · rcases hs with hleads | ⟨hno, -⟩
      · exact .here (.inl hleads)
      · refine .up (fun t ht => ?_) hup hnearest
        exact ht.elim (hno t) fun ⟨_, hscope⟩ => hnone t hscope
  | @unread q c t hnone _ _ hstop hsame =>
    obtain ⟨t, ht⟩ := hstop.exists_test
    obtain ⟨_, hfirst⟩ := hends ht
    obtain ⟨s, rfl, hfound⟩ := (hstop.nearest_above htouches h).of_test hfirst
    have hscope := hsame s (htouches c s hfound)
    exact .here (.inr ⟨fun t ht => hnone t (.inl ht), hscope⟩)
  | @up q q' hnone hscope hup _ ih =>
    have hrest := h.above (fun s hs => hnone s (htouches q s hs)) hup
    exact .up (hnot hnone hscope) (parent_of_shownParent hup) (ih hrest)
  | @top q hnone hscope hup habove =>
    cases h.eq_none (fun s hs => hnone s (htouches q s hs)) hup
    cases hparent : parent procs q with
    | none => exact .top (hnot hnone hscope) hparent
    | some q' => exact .up (hnot hnone hscope) hparent (habove q' hparent)

/-- In every order of the map what the search finds is right. -/
def Right (sessions : List Session) (procs : Processes) (pid : ℕ) : Prop :=
  ∀ order, order.Perm sessions → ∀ r,
    Nearest (shownParent procs) (fun q s => found order procs q = some s) pid r →
      Nearest (parent procs) (Belongs sessions procs) pid r

/-- A map that has `s` first finds it at the stop. -/
theorem Right.of_touches (h : Right sessions procs pid)
    (hstop : Stops (shownParent procs) (Touches sessions procs) pid q)
    (htouch : Touches sessions procs q s) :
    Nearest (parent procs) (Belongs sessions procs) pid (some s) := by
  have hmem : s ∈ sessions := htouch.elim (·.1) (·.2.1)
  have hperm : (s :: sessions.erase s).Perm sessions := (List.perm_cons_erase hmem).symm
  exact h _ hperm _ (hstop.nearest (fun _ _ ht => touches_of_found hperm ht)
    (found_first hperm htouch))

/-- If the search goes right in every order, what it goes by is right. -/
theorem Right.toldRight (h : Right sessions procs pid)
    (hnearest : Nearest (shownParent procs) (fun q s => found sessions procs q = some s) pid r) :
    ToldRight sessions procs pid := by
  have hperm := List.Perm.refl sessions
  have hnot : ∀ {order q}, order.Perm sessions → (∀ s, ¬found order procs q = some s) →
      ∀ s, ¬Touches sessions procs q s :=
    fun hperm h => not_touches_of_found_none hperm (Option.eq_none_iff_forall_ne_some.2 h)
  induction hnearest with
  | @here q s hfound =>
    refine .stop ⟨s, touches_of_found hperm hfound⟩ fun t ht => ?_
    have hbelongs := h.of_touches (.here ht) ht
    rcases ht with hleads | ⟨hno, -⟩
    · exact .inl hleads
    · cases hbelongs with
      | here hhere => exact hhere.imp_right fun hhere => .inl hhere.2
      | up hnone hup hnearest =>
        exact .inr (.inr ⟨fun t ht => hnone t (.inr ⟨hno, ht⟩), _, hup, hnearest⟩)
  | @up q q' r hnone hup hrest ih =>
    have hno := hnot hperm hnone
    by_cases hscope : ∃ t, InScope sessions procs q t
    · obtain ⟨t, ht⟩ := hscope
      have hleads : ∀ t, ¬Leads sessions q t := fun t ht => hno t (.inl ht)
      have hread : readCgroup procs q = none := by
        cases hread : readCgroup procs q with
        | none => rfl
        | some cgroup => exact absurd (.inr ⟨hleads, ht.mentions hread⟩) (hno t)
      -- as the process belongs to a session, so must what is found be one of it
      have hhere : ∀ {r}, Nearest (parent procs) (Belongs sessions procs) q r →
          ∃ s, r = some s ∧ InScope sessions procs q s := by
        intro r hr
        obtain ⟨s, rfl, hs⟩ := hr.of_test (.inr ⟨hleads, ht⟩)
        exact ⟨s, rfl, hs.elim (fun hs => absurd hs (hleads s)) (·.2)⟩
      have hfirst : Nearest (shownParent procs) _ _ _ := .up hnone hup hrest
      obtain ⟨s, rfl, -⟩ := hhere (h sessions hperm r hfirst)
      obtain ⟨c, hstop⟩ := hfirst.exists_stops (fun _ _ ht => touches_of_found hperm ht)
        fun _ => hnot hperm
      refine .unread hno hread ht hstop fun s hs => ?_
      obtain ⟨s', heq, hs'⟩ := hhere (h.of_touches hstop hs)
      cases heq
      exact hs'
    · have hscope : ∀ t, ¬InScope sessions procs q t := not_exists.1 hscope
      refine .up hno hscope hup (ih fun order hperm r hr => ?_)
      have hnone' : ∀ s, ¬found order procs q = some s := fun s hs => hno s (touches_of_found hperm hs)
      refine (h order hperm r (.up hnone' hup hr)).above (fun s hs => ?_) (parent_of_shownParent hup)
      exact hs.elim (fun hs => hno s (.inl hs)) fun hs => hscope s hs.2
  | @top q hnone hup =>
    have hno := hnot hperm hnone
    have hlaw := h sessions hperm none (.top hnone hup)
    -- it found nothing, so there was nothing to find
    have hbelongs : ∀ t, ¬Belongs sessions procs q t := by
      intro t ht
      obtain ⟨s, hs, -⟩ := hlaw.of_test ht
      cases hs
    have hscope : ∀ t, ¬InScope sessions procs q t :=
      fun t ht => hbelongs t (.inr ⟨fun s hs => hno s (.inl hs), ht⟩)
    exact .top hno hscope hup fun q' hq' => hlaw.above hbelongs hq'

/-- On a process table without cycles the search ends, and finds the session of the nearest process
that belongs to one, exactly if what the files tell as text on the way is right. -/
theorem lookupLaw_iff (sessions : List Session) (procs : Processes)
    (hacyclic : Levels.Acyclic (Above (parent procs))) (pid : ℕ) :
    LookupLaw sessions procs pid ↔ ToldRight sessions procs pid := by
  constructor
  · intro hlaw
    obtain ⟨n, r, hr, -⟩ := hlaw sessions (List.Perm.refl sessions)
    have hclimb := hr n (Nat.le_refl n)
    rw [sessionByPid_eq_climb hacyclic] at hclimb
    have hright : Right sessions procs pid := by
      intro order hperm r hnearest
      obtain ⟨n, r', hr, hbelongs⟩ := hlaw order hperm
      have hclimb := hr n (Nat.le_refl n)
      rw [sessionByPid_eq_climb hacyclic] at hclimb
      have hrr : r' = r := (nearest_of_climb hclimb).unique
        (fun _ _ _ h h' => Option.some.inj (h.symm.trans h')) hnearest
      exact hrr ▸ hbelongs
    exact hright.toldRight (nearest_of_climb hclimb)
  · intro hright order hperm
    obtain ⟨n, r, hr⟩ : ∃ n r, ∀ m, n ≤ m → sessionByPid order procs m pid = some r :=
      exists_sessionByPid hacyclic
    have hclimb := hr n (Nat.le_refl n)
    rw [sessionByPid_eq_climb hacyclic] at hclimb
    exact ⟨n, r, hr, nearest_belongs hperm hright (nearest_of_climb hclimb)⟩

/-- Sessions 1 and 2, with the processes 100 and 200 as leaders. -/
def twoSessions : List Session :=
  [{ id := 1, uid := 1000, username := "a", sessionType := .tty, sessionClass := .user,
     leaderPid := 100, createdAt := 0 },
   { id := 2, uid := 1001, username := "b", sessionType := .tty, sessionClass := .user,
     leaderPid := 200, createdAt := 0 }]

/-- A process with nothing else before the parent in its status than a name. -/
def named (name path : List UInt8) (ppid : ℕ) (hppid : ppid < 2 ^ 32)
    (hname : ∀ l ∈ [asBytes "Name:\t" ++ name], 10 ∉ l ∧ ¬asBytes "PPid:\t" <+: l) : Process where
  before := [asBytes "Name:\t" ++ name]
  ppid
  after := []
  cgroup := [⟨asBytes "0:", path⟩]
  ppid_lt := hppid
  before_ok := hname

/-- A shell under a process of session 2, whose name is not text, under the leader. -/
def shells : Processes :=
  [(301, named (asBytes "sh") (asBytes "/") 300 (by decide) (by decide +kernel)),
   (300, named [0x63, 0x61, 0x66, 0xe9]
      (asBytes "/user.slice/user-1001.slice/session-2.scope") 200 (by decide) (by decide +kernel)),
   (200, named (asBytes "login") (asBytes "/") 1 (by decide) (by decide +kernel))]

/-- A child has a higher number than its parent. -/
theorem acyclic_of_lt (h : ∀ entry ∈ procs, entry.2.ppid < entry.1) :
    Levels.Acyclic (Above (parent procs)) := by
  refine Levels.acyclic_of_rank id fun u v hup => ?_
  obtain ⟨p, hp, rfl⟩ := Option.map_eq_some_iff.1 (parent_eq_some_iff.1 hup).1
  obtain ⟨before, after, hprocs, -⟩ := List.lookup_eq_some_iff.1 hp
  exact h (v, p) (by rw [hprocs]; simp)

/-- The shell is in no session itself, and found to be of session 2 by its parent. -/
theorem lookupLaw_iff_shells :
    Levels.Acyclic (Above (parent shells)) ∧ LookupLaw twoSessions shells 301 := by
  have hacyclic : Levels.Acyclic (Above (parent shells)) := acyclic_of_lt (by decide)
  refine ⟨hacyclic, (lookupLaw_iff twoSessions shells hacyclic 301).2 ?_⟩
  have hshell : readCgroup shells 301 = some "0::/\n" := by decide +kernel
  have hparent : readCgroup shells 300 = some "0::/user.slice/user-1001.slice/session-2.scope\n" := by
    decide +kernel
  have hleads : ∀ s ∈ twoSessions, s.leaderPid ≠ 301 ∧ s.leaderPid ≠ 300 := by decide
  have hscopes : ∀ s ∈ twoSessions, ¬SessionManager.contains "0::/\n" s.scope ∧
      (SessionManager.contains "0::/user.slice/user-1001.slice/session-2.scope\n" s.scope →
        asBytes s.scope ∈
          (asBytes "/user.slice/user-1001.slice/session-2.scope").splitOn 47) := by
    decide +kernel
  have hnone : ∀ s, ¬Touches twoSessions shells 301 s := by
    rintro s (⟨hs, hpid⟩ | ⟨-, hs, cgroup, hread, hcontains⟩)
    · exact (hleads s hs).1 hpid
    · rw [hshell] at hread
      cases hread
      exact (hscopes s hs).1 hcontains
  refine .up hnone (fun t ht => ?_) (by decide +kernel : shownParent shells 301 = some 300) ?_
  · exact hnone t (.inr ⟨fun s hs => hnone s (.inl hs), ht.mentions hshell⟩)
  refine .stop ⟨twoSessions[1], .inr ⟨fun s hs => (hleads s hs.1).2 hs.2, ?_⟩⟩ ?_
  · exact ⟨by decide, _, hparent, by decide +kernel⟩
  · rintro s (⟨hs, hpid⟩ | ⟨-, hs, cgroup, hread, hcontains⟩)
    · exact absurd hpid (hleads s hs).2
    · rw [hparent] at hread
      cases hread
      exact .inr (.inl ⟨hs, _, rfl, _, List.mem_singleton_self _, (hscopes s hs).2 hcontains⟩)

/-- A child of the leader of session 2, in a cgroup whose name ends in the scope of session 1. -/
def misplaced : Processes :=
  [(300, named (asBytes "sh") (asBytes "/user.slice/xsession-1.scope") 200 (by decide)
     (by decide +kernel)),
   (200, named (asBytes "login") (asBytes "/user.slice/user-1001.slice/session-2.scope") 1
     (by decide) (by decide +kernel))]

/-- It is taken for one of session 1. -/
theorem substring_takes_other_session : ¬LookupLaw twoSessions misplaced 300 := by
  intro h
  obtain ⟨n, r, hr, hnearest⟩ := h _ (List.Perm.refl _)
  have hfirst := hr (n + 1) (Nat.le_succ n)
  rw [sessionByPid_succ_of_found (s := twoSessions[0]) (by decide +kernel)] at hfirst
  rw [← Option.some.inj hfirst] at hnearest
  cases hnearest with
  | here hbelongs =>
    obtain ⟨-, hpid⟩ | ⟨-, -, p, hp, e, he, hscope⟩ := hbelongs
    · exact absurd hpid (by decide)
    · cases hp
      rw [List.mem_singleton.1 he] at hscope
      exact absurd hscope (by decide +kernel)
  | up _ hup hrest =>
    cases hup
    cases hrest with
    | here hbelongs =>
      obtain ⟨-, hpid⟩ | ⟨hno, -⟩ := hbelongs
      · exact absurd hpid (by decide)
      · exact hno _ ⟨List.mem_cons_of_mem _ List.mem_cons_self, rfl⟩
    | up hno _ _ => exact hno _ (.inl ⟨List.mem_cons_of_mem _ List.mem_cons_self, rfl⟩)

end Quantra.PidLookup
