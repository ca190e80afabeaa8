import Quantra.Lib.LineFile
import Quantra.Net.Address
import Mathlib.Data.List.Infix

/-! `resolv.conf`: what `write_resolv_conf` and `append_ipv6_dns` leave in it, and what
`read_dns_servers` finds there. -/
namespace Quantra.Net

open Text

/-- The comment that stands at the start of a file that was written for a lease. -/
def resolvHeader : List String :=
  ["# Generated by quantra-netd — do not edit manually",
    "# This file is overwritten on each DHCP lease renewal"]

/-- The comment as it is written, each line with its line feed. -/
def resolvComment : String := String.join (resolvHeader.map (· ++ "\n"))

/-- `Ipv4Addr` as it is displayed. -/
def Ipv4Addr.text (ip : Ipv4Addr) : String :=
  String.ofList (Nat.toDigits 10 ip.a.toNat ++ '.' :: Nat.toDigits 10 ip.b.toNat ++
    '.' :: Nat.toDigits 10 ip.c.toNat ++ '.' :: Nat.toDigits 10 ip.d.toNat)

/-- `nameserver {}\n`. -/
def entry (server : String) : String := "nameserver " ++ server ++ "\n"

def pushEntries (content : String) (servers : List String) : String :=
  servers.foldl (fun content server => content ++ entry server) content

def writeResolvConf (servers : List Ipv4Addr) : String :=
  let content := pushEntries resolvComment (servers.map Ipv4Addr.text)
  if servers = [] then pushEntries content ["1.1.1.1", "8.8.8.8"] else content

/-- `str::contains`. -/
def contains (content pattern : String) : Bool := pattern.toList <:+: content.toList

/-- `append_ipv6_dns`, where `existing` is none for a file that cannot be read. -/
def appendIpv6Dns (existing : Option String) (servers : List String) : String :=
  servers.foldl
    (fun content server =>
      if contains content (entry server) then content else content ++ entry server)
    (existing.getD "")

def serverOfLine (line : String) : Option String :=
  let t := trim line
  if t.toList.head? = some '#' then none
  else ((dropLead "nameserver " t).map trim).filter (· ≠ "")

def parseDnsFromContent (content : String) : List String := (lines content).filterMap serverOfLine

/-- `read_dns_servers().unwrap_or_default()`. -/
def readDnsServers (file : Option String) : List String := (file.map parseDnsFromContent).getD []

/-! The file over a run of the daemon. -/

/-- A lease that is applied, with its servers. -/
inductive LeaseApplied
  | dhcp (dns : List Ipv4Addr)
  | dhcp6 (dns : List Ipv6Addr)

/-- What is written for it; a lease without servers leaves the file as it is. -/
def applyDns (show6 : Ipv6Addr → String) (file : Option String) : LeaseApplied → Option String
  | .dhcp dns => if dns = [] then file else some (writeResolvConf dns)
  | .dhcp6 dns => if dns = [] then file else some (appendIpv6Dns file (dns.map show6))

/-- A server is taken where it is not there yet. -/
def addServer (servers : List String) (server : String) : List String :=
  if server ∈ servers then servers else servers ++ [server]

/-- The servers that should be known: those of a lease in place of all before, those of a DHCPv6
lease after them. -/
def known (show6 : Ipv6Addr → String) (servers : List String) : LeaseApplied → List String
  | .dhcp dns => if dns = [] then servers else dns.map Ipv4Addr.text
  | .dhcp6 dns => (dns.map show6).foldl addServer servers

/-- How an address is displayed: without a blank, and not empty. -/
def Shown (s : String) : Prop := s ≠ "" ∧ ∀ c ∈ s.toList, isWhitespace c = false

/-- The lines of a file with the servers. -/
def fileLines (header servers : List String) : List (List Char) :=
  header.map String.toList ++ servers.map fun s => "nameserver ".toList ++ s.toList

/-- The file has been written by the daemon and has these servers, or is not there and there are
none. -/
def Written (file : Option String) (servers : List String) : Prop :=
  (∀ s ∈ servers, Shown s) ∧
    ((file = none ∧ servers = []) ∨
      ∃ header, (header = [] ∨ header = resolvHeader) ∧
        file = some (String.ofList (LineFile.text (fileLines header servers))))

section Files
variable {show6 : Ipv6Addr → String} {file : Option String} {servers ss header : List String}
  {s : String}

theorem toList_keyword (cs : List Char) :
    "nameserver ".toList ++ cs = "nameserver".toList ++ ' ' :: cs := by
  rw [String.toList_ofList, String.toList_ofList]
  rfl

theorem toList_entry (s : String) :
    (entry s).toList = ("nameserver".toList ++ ' ' :: s.toList) ++ ['\n'] := by
  unfold entry
  rw [String.toList_append, String.toList_append, toList_keyword]
  rfl

theorem resolvComment_eq :
    resolvComment = String.ofList (LineFile.text (resolvHeader.map String.toList)) := by
  rw [← String.toList_inj, String.toList_ofList, resolvComment, String.toList_join, LineFile.text,
    List.flatMap_map, List.flatMap_map]
  apply List.flatMap_congr
  intro l _
  rw [String.toList_append]
  rfl

theorem fileLines_concat (header ss : List String) (s : String) :
    fileLines header (ss ++ [s]) =
      fileLines header ss ++ ["nameserver".toList ++ ' ' :: s.toList] := by
  unfold fileLines
  rw [List.map_append, ← List.append_assoc, List.map_singleton, toList_keyword]

/-- One more entry at the end of the file. -/
theorem text_append_entry (header ss : List String) (s : String) :
    String.ofList (LineFile.text (fileLines header ss)) ++ entry s =
      String.ofList (LineFile.text (fileLines header (ss ++ [s]))) := by
  rw [← String.toList_inj, String.toList_append, String.toList_ofList, String.toList_ofList,
    fileLines_concat, LineFile.text_concat, toList_entry]

theorem pushEntries_eq (header ss servers : List String) :
    pushEntries (String.ofList (LineFile.text (fileLines header ss))) servers =
      String.ofList (LineFile.text (fileLines header (ss ++ servers))) := by
  induction servers generalizing ss with
  | nil => rw [List.append_nil]; rfl
  | cons s servers ih =>
    have hnext := ih (ss ++ [s])
    rw [← text_append_entry, List.append_assoc] at hnext
    exact hnext

theorem writeResolvConf_eq {dns : List Ipv4Addr} (h : dns ≠ []) : writeResolvConf dns =
    String.ofList (LineFile.text (fileLines resolvHeader (dns.map Ipv4Addr.text))) := by
  have hcomment : resolvComment = String.ofList (LineFile.text (fileLines resolvHeader [])) := by
    rw [resolvComment_eq]
    rfl
  have hpush := pushEntries_eq resolvHeader [] (dns.map Ipv4Addr.text)
  unfold writeResolvConf
  rw [if_neg h, hcomment, hpush]
  rfl

theorem not_mem_of_shown {c : Char} (hc : isWhitespace c = true) (hs : Shown s) : c ∉ s.toList := by
  intro hmem
  rw [hs.2 c hmem] at hc
  cases hc

theorem shown_text (ip : Ipv4Addr) : Shown ip.text := by
  have hdigit (n : ℕ) : ∀ c ∈ Nat.toDigits 10 n, isWhitespace c = false := fun c hc =>
    isWhitespace_of_isDigit (Nat.isDigit_of_mem_toDigits (by decide) (by decide) hc)
  constructor
  · intro hempty
    have hnil := congrArg String.toList hempty
    rw [Ipv4Addr.text, String.toList_ofList] at hnil
    simp at hnil
  · intro c hc
    rw [Ipv4Addr.text, String.toList_ofList] at hc
    simp only [List.append_assoc, List.cons_append, List.mem_append, List.mem_cons] at hc
    rcases hc with h | rfl | h | rfl | h | rfl | h
    · exact hdigit _ c h
    · decide
    · exact hdigit _ c h
    · decide
    · exact hdigit _ c h
    · decide
    · exact hdigit _ c h

/-- No line of the comment ends as an entry does. -/
theorem not_suffix_header {l : String} (hs : Shown s) (hl : l ∈ resolvHeader) :
    ¬"nameserver".toList ++ ' ' :: s.toList <:+ l.toList := by
  have hspace : ' ' ∉ s.toList := not_mem_of_shown (by decide) hs
  intro hsuffix
  rcases List.mem_cons.1 hl with rfl | hl
  · have hcut : "# Generated by quantra-netd — do not edit manually".toList =
        "# Generated by quantra-netd — do not edit".toList ++ ' ' :: "manually".toList := by
      rw [String.toList_ofList, String.toList_ofList, String.toList_ofList]
      rfl
    rw [hcut] at hsuffix
    have hend := (LineFile.eq_of_suffix hspace (by decide) hsuffix).2
    rw [String.toList_ofList, String.toList_ofList] at hend
    exact absurd hend (by decide)
  · rw [List.mem_singleton.1 hl] at hsuffix
    have hcut : "# This file is overwritten on each DHCP lease renewal".toList =
        "# This file is overwritten on each DHCP lease".toList ++ ' ' :: "renewal".toList := by
      rw [String.toList_ofList, String.toList_ofList, String.toList_ofList]
      rfl
    rw [hcut] at hsuffix
    have hend := (LineFile.eq_of_suffix hspace (by decide) hsuffix).2
    rw [String.toList_ofList, String.toList_ofList] at hend
    exact absurd hend (by decide)

/-- What `fileLines` puts into the file can be read as lines. -/
theorem line_of_mem (hheader : header = [] ∨ header = resolvHeader) (hss : ∀ s ∈ ss, Shown s)
    {l : List Char} (hl : l ∈ fileLines header ss) : '\n' ∉ l ∧ l.getLast? ≠ some '\r' := by
  unfold fileLines at hl
  rcases List.mem_append.1 hl with hl | hl
  · have hcomment : l ∈ resolvHeader.map String.toList := by
      rcases hheader with rfl | rfl
      · cases hl
      · exact hl
    rcases List.mem_cons.1 hcomment with rfl | hcomment
    · rw [String.toList_ofList]
      decide
    · rw [List.mem_singleton.1 hcomment, String.toList_ofList]
      decide
  · obtain ⟨s, hs, rfl⟩ := List.mem_map.1 hl
    have hshown := hss s hs
    have hne : s.toList ≠ [] := fun hnil => hshown.1 (String.toList_eq_nil_iff.1 hnil)
    constructor
    · rw [List.mem_append, not_or]
      exact ⟨by decide, not_mem_of_shown (by decide) hshown⟩
    · rw [List.getLast?_append_of_ne_nil _ hne]
      intro hlast
      exact not_mem_of_shown (by decide) hshown (List.mem_of_getLast? hlast)

/-- The check of `append_ipv6_dns` finds the servers of the file and no others. -/
theorem contains_entry (hheader : header = [] ∨ header = resolvHeader) (hss : ∀ s ∈ ss, Shown s)
    (hs : Shown s) :
    contains (String.ofList (LineFile.text (fileLines header ss))) (entry s) = decide (s ∈ ss) := by
  have hnl : '\n' ∉ "nameserver".toList ++ ' ' :: s.toList := by
    rw [List.mem_append, List.mem_cons, not_or, not_or]
    exact ⟨by decide, by decide, not_mem_of_shown (by decide) hs⟩
  have hlines : ∀ l ∈ fileLines header ss, '\n' ∉ l := fun l hl => (line_of_mem hheader hss hl).1
  have htext : (String.ofList (LineFile.text (fileLines header ss))).toList =
      LineFile.text (fileLines header ss) := String.toList_ofList
  rw [contains, decide_eq_decide, toList_entry, htext, LineFile.infix_text_iff hnl hlines]
  constructor
  · rintro ⟨l, hl, hsuffix⟩
    rcases List.mem_append.1 hl with hl | hl
    · obtain ⟨c, hc, rfl⟩ := List.mem_map.1 hl
      rcases hheader with rfl | rfl
      · cases hc
      · exact absurd hsuffix (not_suffix_header hs hc)
    · obtain ⟨s', hs', rfl⟩ := List.mem_map.1 hl
      rw [toList_keyword] at hsuffix
      have heq := (LineFile.eq_of_suffix (not_mem_of_shown (by decide) hs)
        (not_mem_of_shown (by decide) (hss s' hs')) hsuffix).1
      rwa [String.toList_inj.1 heq]
  · intro hmem
    refine ⟨_, List.mem_append_right _ (List.mem_map_of_mem hmem), ?_⟩
    rw [toList_keyword]

/-- The servers that are new are appended. -/
theorem appendIpv6Dns_eq (hheader : header = [] ∨ header = resolvHeader) (hss : ∀ s ∈ ss, Shown s)
    (hservers : ∀ s ∈ servers, Shown s) :
    appendIpv6Dns (some (String.ofList (LineFile.text (fileLines header ss)))) servers =
      String.ofList (LineFile.text (fileLines header (servers.foldl addServer ss))) ∧
      ∀ s ∈ servers.foldl addServer ss, Shown s := by
  induction servers generalizing ss with
  | nil => exact ⟨rfl, hss⟩
  | cons s servers ih =>
    have hs := hservers s List.mem_cons_self
    have hrest : ∀ s ∈ servers, Shown s := fun s' hs' => hservers s' (List.mem_cons_of_mem s hs')
    have hfound := contains_entry hheader hss hs
    unfold appendIpv6Dns at ih ⊢
    rw [Option.getD_some, List.foldl_cons, List.foldl_cons, hfound]
    by_cases hmem : s ∈ ss
    · have hadd : addServer ss s = ss := if_pos hmem
      rw [if_pos (decide_eq_true hmem), hadd]
      exact ih hss hrest
    · have hadd : addServer ss s = ss ++ [s] := if_neg hmem
      have hmore : ∀ t ∈ ss ++ [s], Shown t := by
        intro t ht
        rcases List.mem_append.1 ht with ht | ht
        · exact hss t ht
        · exact List.mem_singleton.1 ht ▸ hs
      rw [if_neg (by simpa using hmem), hadd, text_append_entry]
      exact ih hmore hrest

theorem written_step (hshow : ∀ ip, Shown (show6 ip)) (h : Written file ss) (e : LeaseApplied) :
    Written (applyDns show6 file e) (known show6 ss e) := by
  cases e with
  | dhcp dns =>
    by_cases hdns : dns = []
    · rw [hdns]
      exact h
    · have hfile : applyDns show6 file (.dhcp dns) = some (writeResolvConf dns) := if_neg hdns
      have hknown : known show6 ss (.dhcp dns) = dns.map Ipv4Addr.text := if_neg hdns
      rw [hfile, hknown, writeResolvConf_eq hdns]
      refine ⟨?_, .inr ⟨resolvHeader, .inr rfl, rfl⟩⟩
      intro s hs
      obtain ⟨ip, -, rfl⟩ := List.mem_map.1 hs
      exact shown_text ip
  | dhcp6 dns =>
    by_cases hdns : dns = []
    · rw [hdns]
      exact h
    · have hservers : ∀ s ∈ dns.map show6, Shown s := by
        intro s hs
        obtain ⟨ip, -, rfl⟩ := List.mem_map.1 hs
        exact hshow ip
      have hfile : applyDns show6 file (.dhcp6 dns) = some (appendIpv6Dns file (dns.map show6)) :=
        if_neg hdns
      rw [hfile]
      obtain ⟨hss, ⟨rfl, rfl⟩ | ⟨header, hheader, rfl⟩⟩ := h
      · obtain ⟨htext, hall⟩ := appendIpv6Dns_eq (.inl rfl) hss hservers
        exact ⟨hall, .inr ⟨[], .inl rfl, congrArg some htext⟩⟩
      · obtain ⟨htext, hall⟩ := appendIpv6Dns_eq hheader hss hservers
        exact ⟨hall, .inr ⟨header, hheader, congrArg some htext⟩⟩

theorem written_run (hshow : ∀ ip, Shown (show6 ip)) (h : Written file ss)
    (es : List LeaseApplied) :
    Written (es.foldl (applyDns show6) file) (es.foldl (known show6) ss) := by
  induction es generalizing file ss with
  | nil => exact h
  | cons e es ih => exact ih (written_step hshow h e)

theorem serverOfLine_header {l : String} (hl : l ∈ resolvHeader) : serverOfLine l = none := by
  have hhash : (trim l).toList.head? = some '#' := by
    unfold trim trimMatches
    rcases List.mem_cons.1 hl with rfl | hl
    · rw [String.toList_ofList, String.toList_ofList]
      rfl
    · rw [List.mem_singleton.1 hl, String.toList_ofList, String.toList_ofList]
      rfl
  exact if_pos hhash

/-- Nothing is trimmed off an entry. -/
theorem trim_entry (hs : Shown s) : trim (String.ofList ("nameserver ".toList ++ s.toList)) =
    String.ofList ("nameserver ".toList ++ s.toList) := by
  obtain ⟨hne, hblank⟩ := hs
  unfold trim trimMatches
  rw [String.toList_ofList]
  cases hlist : s.toList with
  | nil => exact absurd (String.toList_eq_nil_iff.1 hlist) hne
  | cons c cs =>
    rw [hlist] at hblank
    have hc := hblank c List.mem_cons_self
    have hcs : dropWhileEnd isWhitespace cs = cs := by
      unfold dropWhileEnd
      rw [dropWhile_of_forall fun d hd =>
        hblank d (List.mem_cons_of_mem c (List.mem_reverse.1 hd)), List.reverse_reverse]
    have hhead : ("nameserver ".toList ++ c :: cs).dropWhile isWhitespace =
        "nameserver ".toList ++ c :: cs := rfl
    rw [hhead, dropWhileEnd_append (by rw [hc]; exact Bool.false_ne_true), hcs]

theorem serverOfLine_entry (hs : Shown s) :
    serverOfLine (String.ofList ("nameserver ".toList ++ s.toList)) = some s := by
  have hlead := dropLead_append "nameserver " s.toList
  have hself : trim s = s := trim_of_forall hs.2
  have hhead : (String.ofList ("nameserver ".toList ++ s.toList)).toList.head? = some 'n' := by
    rw [String.toList_ofList]
    rfl
  rw [String.ofList_toList] at hlead
  unfold serverOfLine
  dsimp only
  rw [trim_entry hs, hlead, hhead, if_neg (by decide), Option.map_some, hself, Option.filter_some,
    if_pos (decide_eq_true hs.1)]

theorem filterMap_entries (hss : ∀ s ∈ ss, Shown s) :
    (ss.map fun s => String.ofList ("nameserver ".toList ++ s.toList)).filterMap serverOfLine =
      ss := by
  induction ss with
  | nil => rfl
  | cons s ss ih =>
    have hs := serverOfLine_entry (hss s List.mem_cons_self)
    rw [List.map_cons, List.filterMap_cons_some hs, ih fun t ht => hss t (List.mem_cons_of_mem s ht)]

theorem filterMap_header (hheader : header = [] ∨ header = resolvHeader) :
    header.filterMap serverOfLine = [] := by
  apply List.filterMap_eq_nil_iff.2
  intro l hl
  rcases hheader with rfl | rfl
  · cases hl
  · exact serverOfLine_header hl

/-- The servers are read as they were written. -/
theorem readDnsServers_of_written (h : Written file ss) : readDnsServers file = ss := by
  obtain ⟨hss, ⟨rfl, rfl⟩ | ⟨header, hheader, rfl⟩⟩ := h
  · rfl
  · have hlines : ∀ l ∈ fileLines header ss, '\n' ∉ l ∧ l.getLast? ≠ some '\r' := fun l hl =>
      line_of_mem hheader hss hl
    have htexts : (fileLines header ss).map String.ofList =
        header ++ ss.map fun s => String.ofList ("nameserver ".toList ++ s.toList) := by
      unfold fileLines
      rw [List.map_append, List.map_map, List.map_map]
      have hback : String.ofList ∘ String.toList = id := funext fun l => String.ofList_toList
      rw [hback, List.map_id]
      rfl
    unfold readDnsServers parseDnsFromContent
    rw [Option.map_some, Option.getD_some, LineFile.lines_text hlines, htexts, List.filterMap_append,
      filterMap_header hheader, filterMap_entries hss, List.nil_append]

end Files

/-- Whatever leases are applied in whatever order: if there was no file, the servers that are read are
those that should be known, and from a lease with servers on, whatever the file was before. -/
theorem readDnsServers_run (show6 : Ipv6Addr → String) (hshow : ∀ ip, Shown (show6 ip)) :
    (∀ es : List LeaseApplied,
      readDnsServers (es.foldl (applyDns show6) none) = es.foldl (known show6) []) ∧
    ∀ (file : Option String) (before after : List LeaseApplied) (dns : List Ipv4Addr), dns ≠ [] →
      readDnsServers ((before ++ .dhcp dns :: after).foldl (applyDns show6) file) =
        after.foldl (known show6) (dns.map Ipv4Addr.text) := by
  have hempty : ∀ s ∈ ([] : List String), Shown s := fun s hs => absurd hs List.not_mem_nil
  constructor
  · intro es
    have hnone : Written none [] := ⟨hempty, .inl ⟨rfl, rfl⟩⟩
    exact readDnsServers_of_written (written_run hshow hnone es)
  · intro file before after dns hdns
    have hfile : applyDns show6 (before.foldl (applyDns show6) file) (.dhcp dns) =
        some (writeResolvConf dns) := if_neg hdns
    have hwritten : Written (some (writeResolvConf dns)) (dns.map Ipv4Addr.text) := by
      have hshown : ∀ s ∈ dns.map Ipv4Addr.text, Shown s := by
        intro s hs
        obtain ⟨ip, -, rfl⟩ := List.mem_map.1 hs
        exact shown_text ip
      exact ⟨hshown, .inr ⟨resolvHeader, .inr rfl, congrArg some (writeResolvConf_eq hdns)⟩⟩
    rw [List.foldl_append, List.foldl_cons, hfile]
    exact readDnsServers_of_written (written_run hshow hwritten after)

def loopback6 : Ipv6Addr := ⟨#v[0, 0, 0, 0, 0, 0, 0, 0, 0, 0, 0, 0, 0, 0, 0, 1]⟩

/-- The lease takes the place of what was there, and a second DHCPv6 lease adds its server once. -/
theorem readDnsServers_run_renewed :
    (∀ _ : Ipv6Addr, Shown "::1") ∧
      readDnsServers ([.dhcp6 [loopback6], .dhcp [⟨8, 8, 8, 8⟩], .dhcp6 [loopback6, loopback6]].foldl
        (applyDns fun _ => "::1") none) = ["8.8.8.8", "::1"] := by
  have hshow : ∀ _ : Ipv6Addr, Shown "::1" := fun _ =>
    ⟨by decide, forall_mem_of_all (by decide)⟩
  have hrun := (readDnsServers_run (fun _ => "::1") hshow).1
    [.dhcp6 [loopback6], .dhcp [⟨8, 8, 8, 8⟩], .dhcp6 [loopback6, loopback6]]
  exact ⟨hshow, hrun⟩

end Quantra.Net
