import Quantra.Lib.Nft
import Quantra.Process.IpRange

/-! `apply_nft_ip_filter`: the ruleset that is loaded when no program can be attached, as text and
as nft reads it. -/
namespace Quantra.Process
open Nft

/-- `service_name.replace('-', "_")`. -/
def underscored (name : String) : String :=
  String.ofList (name.toList.map fun c => if c = '-' then '_' else c)

def tableName (name : String) : String := "quantra_ipfilter_" ++ underscored name

def octet (ip : UInt32) (i : ℕ) : String := toString (ip.toNat / 256 ^ i % 256)

/-- `Display` of an `Ipv4Addr`. -/
def dotted (ip : UInt32) : String :=
  octet ip 3 ++ "." ++ octet ip 2 ++ "." ++ octet ip 1 ++ "." ++ octet ip 0

def cidr (r : IpRange) : String := dotted r.addr ++ "/" ++ toString (32 - trailingZeros r.mask)

/-- The file for `nft -f`. -/
def nftRules (name : String) (deny allow : List IpRange) : String :=
  "table inet " ++ tableName name ++
    " \x7b\n    chain egress \x7b\n        type filter hook output priority 0\n" ++
    String.join ((ipv4Ranges deny).map fun r => "        ip daddr " ++ cidr r ++ " drop\n") ++
    (if allow.isEmpty then ""
      else
        String.join
          ((ipv4Ranges allow).map fun r => "        ip daddr " ++ cidr r ++ " accept\n") ++
          "        drop\n") ++
    "    \x7d\n\x7d\n"

/-! What nft reads. -/

/-- The words of a line. -/
def words (line : List Char) : List String :=
  ((Text.splitChars ' ' line).filter (· ≠ [])).map String.ofList

/-- The names that nft takes for a table. -/
def isIdentifier (s : String) : Bool :=
  (s.toList.head?.any Char.isAlpha) && s.toList.all fun c =>
    c.isAlphanum || c == '/' || c == '\\' || c == '_' || c == '.' || c == '-'

/-- A condition on the destination: it lies in the network of so many leading bits, or anywhere. -/
inductive Match
  | daddr (addr : ℕ) (len : ℕ)
  | always
  deriving DecidableEq, Repr

def readOctet (cs : List Char) : Option ℕ := (Text.digitsToNat cs).filter (· < 256)

def readAddr (cs : List Char) : Option ℕ :=
  match Text.splitChars '.' cs with
  | [a, b, c, d] => do
    let a ← readOctet a
    let b ← readOctet b
    let c ← readOctet c
    let d ← readOctet d
    some (((a * 256 + b) * 256 + c) * 256 + d)
  | _ => none

def readCidr (s : String) : Option Match :=
  match Text.splitChars '/' s.toList with
  | [addr, len] => do
    let addr ← readAddr addr
    let len ← (Text.digitsToNat len).filter (· ≤ 32)
    some (.daddr addr len)
  | _ => none

def readVerdict (s : String) : Option Verdict :=
  if s = "accept" then some .accept else if s = "drop" then some .drop else none

def readRule : List String → Option (Rule Match)
  | [v] => (readVerdict v).map (⟨.always, ·⟩)
  | [family, field, net, v] => do
    guard (family = "ip" ∧ field = "daddr")
    let net ← readCidr net
    let v ← readVerdict v
    some ⟨net, v⟩
  | _ => none

/-- The rules up to the braces that close the chain and the table. -/
def readBody : List (List String) → Option (List (Rule Match))
  | [] => none
  | line :: rest =>
    if line = ["\x7d"] then if rest = [["\x7d"]] then some [] else none
    else do
      let rule ← readRule line
      let rules ← readBody rest
      some (rule :: rules)

structure Ruleset where
  table : String
  chain : Chain Match
  deriving DecidableEq, Repr

/-- A chain for which the text sets no policy accepts. -/
def readNft (text : String) : Option Ruleset :=
  match (Text.lines text).map (fun line => words line.toList) with
  | [kind, family, table, «open»] :: chain :: hook :: body => do
    guard (kind = "table" ∧ family = "inet" ∧ isIdentifier table ∧ «open» = "\x7b" ∧
      chain = ["chain", "egress", "\x7b"] ∧
      hook = ["type", "filter", "hook", "output", "priority", "0"])
    let rules ← readBody body
    some ⟨table, ⟨rules, .accept⟩⟩
  | _ => none

/-- An outgoing IPv4 packet, of a process inside or outside of the service's cgroup. -/
structure Packet where
  fromService : Bool
  dst : UInt32
  deriving DecidableEq, Repr

def Match.holds : Match → Packet → Bool
  | .daddr addr len, p => p.dst.toNat / 2 ^ (32 - len) == addr / 2 ^ (32 - len)
  | .always, _ => true

/-- A text that nft refuses filters nothing. -/
def nftVerdict (name : String) (deny allow : List IpRange) (p : Packet) : Verdict :=
  match readNft (nftRules name deny allow) with
  | some rs => rs.chain.verdict Match.holds p
  | none => .accept

def wantedVerdict (deny allow : List IpRange) (p : Packet) : Verdict :=
  if !p.fromService || passes deny allow p.dst then .accept else .drop

def NoWhitespace (name : String) : Prop := ∀ c ∈ name.toList, Text.isWhitespace c = false

/-- The ruleset of the service filters its packets only, and its table is its own. -/
structure NftFilterLaw (name : String) (deny allow : List IpRange) : Prop where
  verdict : ∀ p, nftVerdict name deny allow p = wantedVerdict deny allow p
  table : ∀ other, NoWhitespace other → other ≠ name → tableName other ≠ tableName name

/-! The text line by line. -/

section Lines
variable {name : String} {deny allow : List IpRange} {r : IpRange} {v : String}
  {w : List Char}

/-- The line of a rule for the range. -/
private def ruleLine (v : String) (r : IpRange) : List Char :=
  "        ip daddr ".toList ++ ((cidr r).toList ++ v.toList)

private def nftLines (name : String) (deny allow : List IpRange) : List (List Char) :=
  ("table inet ".toList ++ ((tableName name).toList ++ " \x7b".toList)) ::
    "    chain egress \x7b".toList :: "        type filter hook output priority 0".toList ::
    ((ipv4Ranges deny).map (ruleLine " drop") ++
      ((if allow.isEmpty then []
        else (ipv4Ranges allow).map (ruleLine " accept") ++ ["        drop".toList]) ++
        ["    \x7d".toList, "\x7d".toList]))

/-- Lines put together with a line feed after each. -/
private theorem toList_join_lines {pre post : String} (rs : List IpRange) :
    (String.join (rs.map fun r => pre ++ cidr r ++ (post ++ "\n"))).toList =
      (rs.map fun r => pre.toList ++ ((cidr r).toList ++ post.toList)).flatMap (· ++ ['\n']) := by
  have hfeed : "\n".toList = ['\n'] := rfl
  rw [String.toList_join, List.flatMap_map, List.flatMap_map]
  congr 1
  funext r
  simp only [String.toList_append, hfeed, List.append_assoc]

private theorem toList_join_ruleLine (v : String) (rs : List IpRange) :
    (String.join (rs.map fun r => "        ip daddr " ++ cidr r ++ (v ++ "\n"))).toList =
      (rs.map (ruleLine v)).flatMap (· ++ ['\n']) :=
  toList_join_lines rs

private theorem toList_nftRules (name : String) (deny allow : List IpRange) :
    (nftRules name deny allow).toList = (nftLines name deny allow).flatMap (· ++ ['\n']) := by
  have hhead : " \x7b\n    chain egress \x7b\n        type filter hook output priority 0\n".toList =
      " \x7b".toList ++ ['\n'] ++ ("    chain egress \x7b".toList ++ ['\n'] ++
        ("        type filter hook output priority 0".toList ++ ['\n'])) := by decide
  have hfoot : "    \x7d\n\x7d\n".toList =
      "    \x7d".toList ++ ['\n'] ++ ("\x7d".toList ++ ['\n']) := by decide
  have hlast : "        drop\n".toList = "        drop".toList ++ ['\n'] := by decide
  have hdrop : " drop\n" = " drop" ++ "\n" := by decide
  have haccept : " accept\n" = " accept" ++ "\n" := by decide
  unfold nftRules nftLines
  rw [hdrop, haccept]
  simp only [String.toList_append, hhead, hfoot, toList_join_ruleLine]
  cases allow.isEmpty with
  | true =>
    simp only [if_true, String.toList_empty, List.flatMap_cons, List.flatMap_append,
      List.flatMap_nil, List.append_assoc, List.append_nil, List.nil_append]
  | false =>
    simp only [Bool.false_eq_true, if_false, String.toList_append, hlast, toList_join_ruleLine,
      List.flatMap_cons, List.flatMap_append, List.flatMap_nil, List.append_assoc,
      List.append_nil]

/-! The characters of a network. -/

theorem mem_octet {ip : UInt32} {i : ℕ} {c : Char} (h : c ∈ (octet ip i).toList) : c.isDigit := by
  rw [octet, Nat.toString_eq_ofList_toDigits, String.toList_ofList] at h
  exact Nat.isDigit_of_mem_toDigits (by decide) (by decide) h

theorem mem_dotted {ip : UInt32} {c : Char} (h : c ∈ (dotted ip).toList) : c.isDigit ∨ c = '.' := by
  have hdot : ".".toList = ['.'] := rfl
  simp only [dotted, String.toList_append, hdot, List.mem_append, List.mem_singleton] at h
  obtain ((((((h | h) | h) | h) | h) | h) | h) := h
  · exact .inl (mem_octet h)
  · exact .inr h
  · exact .inl (mem_octet h)
  · exact .inr h
  · exact .inl (mem_octet h)
  · exact .inr h
  · exact .inl (mem_octet h)

theorem mem_cidr {c : Char} (h : c ∈ (cidr r).toList) : c.isDigit ∨ c = '.' ∨ c = '/' := by
  have hslash : "/".toList = ['/'] := rfl
  rw [cidr, String.toList_append, String.toList_append, hslash, Nat.toString_eq_ofList_toDigits,
    String.toList_ofList] at h
  obtain h | h := List.mem_append.1 h
  · obtain h | h := List.mem_append.1 h
    · exact (mem_dotted h).imp_right .inl
    · exact .inr (.inr (List.mem_singleton.1 h))
  · exact .inl (Nat.isDigit_of_mem_toDigits (by decide) (by decide) h)

theorem not_mem_cidr {c : Char} (hdigit : c.isDigit = false) (hdot : c ≠ '.') (hslash : c ≠ '/') :
    c ∉ (cidr r).toList := by
  intro h
  obtain h | h | h := mem_cidr h
  · rw [h] at hdigit
    cases hdigit
  · exact hdot h
  · exact hslash h

/-! What is read of them. -/

theorem readOctet_octet (ip : UInt32) (i : ℕ) :
    readOctet (octet ip i).toList = some (ip.toNat / 256 ^ i % 256) := by
  have hlt : ip.toNat / 256 ^ i % 256 < 256 := Nat.mod_lt _ (by decide)
  rw [readOctet, octet, Nat.toString_eq_ofList_toDigits, String.toList_ofList,
    Text.digitsToNat_toDigits, Option.filter_some, decide_eq_true hlt, if_pos rfl]

theorem readAddr_dotted (ip : UInt32) : readAddr (dotted ip).toList = some ip.toNat := by
  have hdot : ".".toList = ['.'] := rfl
  have hfree : ∀ i, '.' ∉ (octet ip i).toList := fun i h => by
    have hdigit := mem_octet h
    cases hdigit
  have hsplit : Text.splitChars '.' (dotted ip).toList =
      [(octet ip 3).toList, (octet ip 2).toList, (octet ip 1).toList, (octet ip 0).toList] := by
    simp only [dotted, String.toList_append, hdot, List.append_assoc, List.cons_append,
      List.nil_append]
    rw [Text.splitChars_append (hfree 3), Text.splitChars_append (hfree 2),
      Text.splitChars_append (hfree 1), Text.splitChars_of_not_mem (hfree 0)]
  have hip := ip.toNat_lt
  unfold readAddr
  rw [hsplit]
  simp only [readOctet_octet, Option.bind_eq_bind, Option.bind_some]
  refine congrArg some ?_
  omega

theorem readCidr_cidr (r : IpRange) :
    readCidr (cidr r) = some (.daddr r.addr.toNat (32 - trailingZeros r.mask)) := by
  have hslash : "/".toList = ['/'] := rfl
  have hfree : '/' ∉ (dotted r.addr).toList := fun h => by
    obtain h | h := mem_dotted h
    · cases h
    · cases h
  have hdigits : '/' ∉ Nat.toDigits 10 (32 - trailingZeros r.mask) := fun h => by
    have hdigit := Nat.isDigit_of_mem_toDigits (by decide) (by decide) h
    cases hdigit
  have hsplit : Text.splitChars '/' (cidr r).toList =
      [(dotted r.addr).toList, Nat.toDigits 10 (32 - trailingZeros r.mask)] := by
    simp only [cidr, String.toList_append, hslash, List.append_assoc, List.singleton_append,
      Nat.toString_eq_ofList_toDigits, String.toList_ofList]
    rw [Text.splitChars_append hfree, Text.splitChars_of_not_mem hdigits]
  have hle : 32 - trailingZeros r.mask ≤ 32 := Nat.sub_le _ _
  unfold readCidr
  rw [hsplit]
  simp only [readAddr_dotted, Text.digitsToNat_toDigits, Option.filter_some, decide_eq_true hle,
    if_true, Option.bind_eq_bind, Option.bind_some]

/-! The words of the lines. -/

theorem words_space (ds : List Char) : words (' ' :: ds) = words ds := by
  simp [words, Text.splitChars]

theorem words_spaces (n : ℕ) (ds : List Char) : words (List.replicate n ' ' ++ ds) = words ds := by
  induction n with
  | zero => rfl
  | succ n ih =>
    rw [List.replicate_succ, List.cons_append, words_space, ih]

theorem words_of_not_mem {cs : List Char} (hfree : ' ' ∉ cs) (hne : cs ≠ []) :
    words cs = [String.ofList cs] := by
  simp [words, Text.splitChars_of_not_mem hfree, hne]

theorem words_append {cs : List Char} (hfree : ' ' ∉ cs) (hne : cs ≠ []) (ds : List Char) :
    words (cs ++ ' ' :: ds) = String.ofList cs :: words ds := by
  simp [words, Text.splitChars_append hfree, hne]

theorem cidr_ne_nil (r : IpRange) : (cidr r).toList ≠ [] := by
  have hslash : "/".toList = ['/'] := rfl
  rw [cidr, String.toList_append, String.toList_append, hslash]
  simp

theorem words_ruleLine (hv : v.toList = ' ' :: w) (hfree : ' ' ∉ w) (hne : w ≠ []) :
    words (ruleLine v r) = ["ip", "daddr", cidr r, String.ofList w] := by
  have hpre : "        ip daddr ".toList =
      List.replicate 8 ' ' ++ ("ip".toList ++ ' ' :: ("daddr".toList ++ [' '])) := by decide
  have hcidr : ' ' ∉ (cidr r).toList := not_mem_cidr (by decide) (by decide) (by decide)
  have hline : ruleLine v r = List.replicate 8 ' ' ++ ("ip".toList ++ ' ' :: ("daddr".toList ++
      ' ' :: ((cidr r).toList ++ ' ' :: w))) := by
    unfold ruleLine
    rw [hpre, hv]
    simp only [List.cons_append, List.append_assoc, List.nil_append]
  rw [hline, words_spaces, words_append (by decide) (by decide),
    words_append (by decide) (by decide), words_append hcidr (cidr_ne_nil r),
    words_of_not_mem hfree hne]
  simp only [String.ofList_toList]

theorem mem_underscored {name : String} {c : Char} (h : c ∈ (underscored name).toList) :
    c ∈ name.toList ∨ c = '_' := by
  rw [underscored, String.toList_ofList] at h
  obtain ⟨d, hd, rfl⟩ := List.mem_map.1 h
  by_cases hdash : d = '-'
  · exact .inr (if_pos hdash)
  · rw [if_neg hdash]
    exact .inl hd

theorem toList_tableName (name : String) :
    (tableName name).toList = "quantra_ipfilter_".toList ++ (underscored name).toList :=
  String.toList_append

theorem noWhitespace_tableName (hname : NoWhitespace name) : NoWhitespace (tableName name) := by
  intro c hc
  rw [toList_tableName] at hc
  obtain hc | hc := List.mem_append.1 hc
  · have hall : ∀ c ∈ "quantra_ipfilter_".toList, Text.isWhitespace c = false :=
      Text.forall_mem_of_all (by decide)
    exact hall c hc
  · obtain hc | rfl := mem_underscored hc
    · exact hname c hc
    · decide

theorem not_mem_of_noWhitespace {c : Char} (hname : NoWhitespace name)
    (hc : Text.isWhitespace c = true) : c ∉ name.toList := by
  intro hmem
  have hfalse := hname c hmem
  rw [hc] at hfalse
  cases hfalse

theorem words_header (hname : NoWhitespace name) :
    words ("table inet ".toList ++ ((tableName name).toList ++ " \x7b".toList)) =
      ["table", "inet", tableName name, "\x7b"] := by
  have hpre : "table inet ".toList = "table".toList ++ ' ' :: ("inet".toList ++ [' ']) := by decide
  have hpost : " \x7b".toList = ' ' :: ['{'] := by decide
  have hfree := not_mem_of_noWhitespace (noWhitespace_tableName hname) (c := ' ') (by decide)
  have hne : (tableName name).toList ≠ [] := by
    rw [toList_tableName]
    exact List.append_ne_nil_of_left_ne_nil (by decide) _
  rw [hpre, hpost]
  simp only [List.cons_append, List.append_assoc, List.nil_append]
  rw [words_append (by decide) (by decide), words_append (by decide) (by decide),
    words_append hfree hne, words_of_not_mem (by decide) (by decide)]
  simp only [String.ofList_toList]

/-! The text is read back. -/

/-- The rule that is read for a range. -/
def ruleOf (v : Verdict) (r : IpRange) : Rule Match :=
  ⟨.daddr r.addr.toNat (32 - trailingZeros r.mask), v⟩

theorem readRule_ruleLine {line : String} {v : Verdict} (hline : line.toList = ' ' :: w)
    (hfree : ' ' ∉ w) (hne : w ≠ []) (hv : readVerdict (String.ofList w) = some v) :
    readRule (words (ruleLine line r)) = some (ruleOf v r) := by
  rw [words_ruleLine hline hfree hne]
  unfold readRule
  simp only [readCidr_cidr, hv]
  rfl

theorem readBody_cons {line : List String} {rest : List (List String)} {rule : Rule Match}
    (hread : readRule line = some rule) :
    readBody (line :: rest) = (readBody rest).map (rule :: ·) := by
  have hbrace : line ≠ ["\x7d"] := by
    rintro rfl
    have hnone : readRule ["\x7d"] = none := by decide
    rw [hnone] at hread
    cases hread
  rw [readBody, if_neg hbrace, hread]
  cases readBody rest <;> rfl

theorem readBody_append {lines rest : List (List String)} {rules : List (Rule Match)}
    (hread : lines.map readRule = rules.map some) :
    readBody (lines ++ rest) = (readBody rest).map (rules ++ ·) := by
  induction lines generalizing rules with
  | nil =>
    obtain rfl : rules = [] := List.map_eq_nil_iff.1 hread.symm
    rw [List.nil_append]
    cases readBody rest <;> rfl
  | cons line lines ih =>
    cases rules with
    | nil => cases hread
    | cons rule rules =>
      rw [List.map_cons, List.map_cons, List.cons.injEq] at hread
      rw [List.cons_append, readBody_cons hread.1, ih hread.2, Option.map_map]
      rfl

/-- The rules of the chain. -/
def filterRules (deny allow : List IpRange) : List (Rule Match) :=
  (ipv4Ranges deny).map (ruleOf .drop) ++
    if allow.isEmpty then [] else (ipv4Ranges allow).map (ruleOf .accept) ++ [⟨.always, .drop⟩]

theorem readRules_ranges {line : String} {v : Verdict} (hline : line.toList = ' ' :: w)
    (hfree : ' ' ∉ w) (hne : w ≠ []) (hv : readVerdict (String.ofList w) = some v)
    (rs : List IpRange) :
    ((rs.map (ruleLine line)).map words).map readRule = (rs.map (ruleOf v)).map some := by
  simp only [List.map_map]
  refine List.map_congr_left fun r _ => ?_
  simp only [Function.comp_apply]
  exact readRule_ruleLine hline hfree hne hv

theorem readBody_nftLines (deny allow : List IpRange) :
    readBody (((ipv4Ranges deny).map (ruleLine " drop") ++
      ((if allow.isEmpty then []
        else (ipv4Ranges allow).map (ruleLine " accept") ++ ["        drop".toList]) ++
        ["    \x7d".toList, "\x7d".toList])).map words) = some (filterRules deny allow) := by
  have hdrop : (((ipv4Ranges deny).map (ruleLine " drop")).map words).map readRule =
      ((ipv4Ranges deny).map (ruleOf .drop)).map some :=
    readRules_ranges (w := ['d', 'r', 'o', 'p']) rfl (by decide) (by decide) (by decide) _
  have haccept : (((ipv4Ranges allow).map (ruleLine " accept")).map words).map readRule =
      ((ipv4Ranges allow).map (ruleOf .accept)).map some :=
    readRules_ranges (w := ['a', 'c', 'c', 'e', 'p', 't']) rfl (by decide) (by decide) (by decide) _
  have hend : readBody (["    \x7d".toList, "\x7d".toList].map words) = some [] := by decide
  have hlast : readBody ((["        drop".toList] ++
      ["    \x7d".toList, "\x7d".toList]).map words) = some [⟨.always, .drop⟩] := by decide
  unfold filterRules
  rw [List.map_append, readBody_append hdrop]
  cases allow.isEmpty with
  | true =>
    rw [if_pos rfl, if_pos rfl, List.nil_append, hend]
    rfl
  | false =>
    rw [if_neg Bool.false_ne_true, if_neg Bool.false_ne_true, List.append_assoc, List.map_append,
      readBody_append haccept, hlast]
    rfl

private def Unbroken (cs : List Char) : Prop := ∀ c ∈ cs, c ≠ '\n' ∧ c ≠ '\r'

private theorem Unbroken.append {cs ds : List Char} (hcs : Unbroken cs) (hds : Unbroken ds) :
    Unbroken (cs ++ ds) :=
  fun c hc => (List.mem_append.1 hc).elim (hcs c) (hds c)

private theorem unbroken_ruleLine (hv : Unbroken v.toList) : Unbroken (ruleLine v r) := by
  have hpre : Unbroken "        ip daddr ".toList := Text.forall_mem_of_all (by decide)
  have hcidr : Unbroken (cidr r).toList := fun c hc =>
    ⟨fun h => not_mem_cidr (c := '\n') (by decide) (by decide) (by decide) (h ▸ hc),
      fun h => not_mem_cidr (c := '\r') (by decide) (by decide) (by decide) (h ▸ hc)⟩
  exact hpre.append (hcidr.append hv)

private theorem unbroken_nftLines (hname : NoWhitespace name) :
    ∀ cs ∈ nftLines name deny allow, Unbroken cs := by
  have hconst : ∀ s ∈ ["table inet ", " \x7b", "    chain egress \x7b",
      "        type filter hook output priority 0", " drop", " accept", "        drop",
      "    \x7d", "\x7d"], Unbroken s.toList := by
    intro s hs
    refine Text.forall_mem_of_all ?_
    revert s
    decide
  have htable : Unbroken (tableName name).toList := fun c hc =>
    ⟨fun h => not_mem_of_noWhitespace (noWhitespace_tableName hname) (c := '\n') (by decide)
        (h ▸ hc),
      fun h => not_mem_of_noWhitespace (noWhitespace_tableName hname) (c := '\r') (by decide)
        (h ▸ hc)⟩
  have hrules : ∀ v ∈ [" drop", " accept"], ∀ rs, ∀ cs ∈ (ipv4Ranges rs).map (ruleLine v),
      Unbroken cs := by
    intro v hv rs cs hcs
    obtain ⟨r, -, rfl⟩ := List.mem_map.1 hcs
    refine unbroken_ruleLine (hconst v ?_)
    obtain rfl | hv := List.mem_cons.1 hv
    · decide
    · rw [List.mem_singleton.1 hv]
      decide
  have hallow : ∀ cs ∈ if allow.isEmpty then []
      else (ipv4Ranges allow).map (ruleLine " accept") ++ ["        drop".toList],
      Unbroken cs := by
    cases allow.isEmpty with
    | true =>
      intro cs hcs
      cases hcs
    | false =>
      exact List.forall_mem_append.2 ⟨hrules _ (by decide) allow,
        List.forall_mem_singleton.2 (hconst _ (by decide))⟩
  have hend : ∀ cs ∈ ["    \x7d".toList, "\x7d".toList], Unbroken cs :=
    List.forall_mem_cons.2 ⟨hconst _ (by decide),
      List.forall_mem_singleton.2 (hconst _ (by decide))⟩
  unfold nftLines
  refine List.forall_mem_cons.2 ⟨?_, List.forall_mem_cons.2 ⟨hconst _ (by decide),
    List.forall_mem_cons.2 ⟨hconst _ (by decide), ?_⟩⟩⟩
  · exact (hconst _ (by decide)).append (htable.append (hconst _ (by decide)))
  · exact List.forall_mem_append.2 ⟨hrules _ (by decide) deny,
      List.forall_mem_append.2 ⟨hallow, hend⟩⟩

theorem words_nftRules (hname : NoWhitespace name) :
    (Text.lines (nftRules name deny allow)).map (fun line => words line.toList) =
      (nftLines name deny allow).map words := by
  rw [← String.ofList_toList (s := nftRules name deny allow), toList_nftRules,
    Text.lines_terminated, List.map_map]
  · exact List.map_congr_left fun cs _ => by rw [Function.comp_apply, String.toList_ofList]
  · intro cs hcs
    have hline := unbroken_nftLines hname cs hcs
    exact ⟨fun h => (hline _ h).1 rfl, fun h => (hline _ (List.mem_of_getLast? h)).2 rfl⟩

/-- nft refuses the text if the name is not one for a table. -/
theorem readNft_nftRules (hname : NoWhitespace name) :
    readNft (nftRules name deny allow) =
      if isIdentifier (tableName name) then
        some ⟨tableName name, ⟨filterRules deny allow, .accept⟩⟩
      else none := by
  have hbody := readBody_nftLines deny allow
  have hchain : words "    chain egress \x7b".toList = ["chain", "egress", "\x7b"] := by decide
  have hhook : words "        type filter hook output priority 0".toList =
      ["type", "filter", "hook", "output", "priority", "0"] := by decide
  unfold readNft
  rw [words_nftRules hname]
  unfold nftLines
  rw [List.map_cons, List.map_cons, List.map_cons, words_header hname, hchain, hhook]
  simp only [hbody]
  cases isIdentifier (tableName name) <;> rfl

end Lines

/-! The verdict of the chain. -/

section Verdicts
variable {name : String} {deny allow : List IpRange} {p : Packet}

theorem holds_ruleOf {r : IpRange} (hv4 : r.isV6 = false) (v : Verdict) :
    (ruleOf v r).cond.holds p = r.containsIpv4 p.dst := by
  have hlen : 32 - (32 - trailingZeros r.mask) = trailingZeros r.mask :=
    Nat.sub_sub_self (trailingZeros_le r.mask)
  rw [Bool.eq_iff_iff, containsIpv4_iff_prefix hv4]
  unfold ruleOf Match.holds
  rw [beq_iff_eq, hlen]

theorem decided_ranges (v : Verdict) (rs : List IpRange) :
    decided Match.holds ((ipv4Ranges rs).map (ruleOf v)) p =
      if rs.any (·.containsIpv4 p.dst) then some v else none := by
  have hmap : (ipv4Ranges rs).map (ruleOf v) =
      ((ipv4Ranges rs).map fun r => (ruleOf v r).cond).map (⟨·, v⟩) := by
    rw [List.map_map]
    rfl
  have hany : ((ipv4Ranges rs).map fun r => (ruleOf v r).cond).any (·.holds p) =
      rs.any (·.containsIpv4 p.dst) := by
    rw [List.any_map, ← any_ipv4Ranges, Bool.eq_iff_iff, List.any_eq_true, List.any_eq_true]
    refine exists_congr fun r => and_congr_right fun hr => ?_
    rw [Function.comp_apply, holds_ruleOf (isV6_of_mem_ipv4Ranges hr)]
  rw [hmap, decided_map, hany]

/-- The chain enforces the policy on the packets of all processes. -/
theorem verdict_filterRules :
    Chain.verdict Match.holds ⟨filterRules deny allow, .accept⟩ p =
      if passes deny allow p.dst then .accept else .drop := by
  unfold Chain.verdict filterRules passes
  rw [decided_append, decided_ranges]
  cases hdeny : deny.any (·.containsIpv4 p.dst) with
  | true => rfl
  | false =>
    cases hempty : allow.isEmpty with
    | true => rfl
    | false =>
      rw [if_neg Bool.false_ne_true, if_neg Bool.false_ne_true, Option.none_or, decided_append,
        decided_ranges]
      cases allow.any (·.containsIpv4 p.dst) <;> rfl

theorem nftVerdict_eq (hname : NoWhitespace name) :
    nftVerdict name deny allow p =
      if isIdentifier (tableName name) && !passes deny allow p.dst then .drop else .accept := by
  unfold nftVerdict
  rw [readNft_nftRules hname]
  cases isIdentifier (tableName name) with
  | true =>
    simp only [if_true, verdict_filterRules]
    cases passes deny allow p.dst <;> rfl
  | false => rfl

/-! The names of the tables. -/

theorem underscored_of_not_mem (h : '-' ∉ name.toList) : underscored name = name := by
  have hmap : (name.toList.map fun c => if c = '-' then '_' else c) = name.toList := by
    conv_rhs => rw [← List.map_id name.toList]
    refine List.map_congr_left fun c hc => if_neg ?_
    rintro rfl
    exact h hc
  rw [underscored, hmap, String.ofList_toList]

theorem dash_not_mem_underscored (name : String) : '-' ∉ (underscored name).toList := by
  rw [underscored, String.toList_ofList]
  intro h
  obtain ⟨c, -, hc⟩ := List.mem_map.1 h
  by_cases hdash : c = '-'
  · rw [if_pos hdash] at hc
    cases hc
  · rw [if_neg hdash] at hc
    exact hdash hc

theorem underscore_mem_underscored (h : '-' ∈ name.toList) : '_' ∈ (underscored name).toList := by
  rw [underscored, String.toList_ofList]
  exact List.mem_map.2 ⟨'-', h, if_pos rfl⟩

/-- The other way round. -/
private def dashed (name : String) : String :=
  String.ofList (name.toList.map fun c => if c = '_' then '-' else c)

private theorem underscore_not_mem_dashed (name : String) : '_' ∉ (dashed name).toList := by
  rw [dashed, String.toList_ofList]
  intro h
  obtain ⟨c, -, hc⟩ := List.mem_map.1 h
  by_cases hscore : c = '_'
  · rw [if_pos hscore] at hc
    cases hc
  · rw [if_neg hscore] at hc
    exact hscore hc

private theorem underscored_dashed (name : String) :
    underscored (dashed name) = underscored name := by
  have hmap : ((name.toList.map fun c => if c = '_' then '-' else c).map
      fun c => if c = '-' then '_' else c) =
      name.toList.map fun c => if c = '-' then '_' else c := by
    rw [List.map_map]
    refine List.map_congr_left fun c _ => ?_
    by_cases hscore : c = '_'
    · rw [hscore]
      decide
    · rw [Function.comp_apply, if_neg hscore]
  rw [underscored, underscored, dashed, String.toList_ofList, hmap]

private theorem noWhitespace_dashed (hname : NoWhitespace name) : NoWhitespace (dashed name) := by
  intro c hc
  rw [dashed, String.toList_ofList] at hc
  obtain ⟨d, hd, rfl⟩ := List.mem_map.1 hc
  by_cases hscore : d = '_'
  · rw [if_pos hscore]
    decide
  · rw [if_neg hscore]
    exact hname d hd

theorem noWhitespace_underscored (hname : NoWhitespace name) : NoWhitespace (underscored name) := by
  intro c hc
  obtain hc | rfl := mem_underscored hc
  · exact hname c hc
  · decide

theorem tableName_inj {other : String} :
    tableName other = tableName name ↔ underscored other = underscored name := by
  constructor
  · intro h
    have hlists := congrArg String.toList h
    rw [toList_tableName, toList_tableName] at hlists
    exact String.toList_inj.1 (List.append_cancel_left hlists)
  · exact congrArg ("quantra_ipfilter_" ++ ·)

/-- The table of a name without dashes and underscores is its own. -/
theorem tableName_ne_iff (hname : NoWhitespace name) :
    (∀ other, NoWhitespace other → other ≠ name → tableName other ≠ tableName name) ↔
      '-' ∉ name.toList ∧ '_' ∉ name.toList := by
  constructor
  · intro h
    constructor
    · intro hdash
      refine h (underscored name) (noWhitespace_underscored hname) ?_
        (tableName_inj.2 (underscored_of_not_mem (dash_not_mem_underscored name)))
      intro heq
      rw [← heq] at hdash
      exact dash_not_mem_underscored _ hdash
    · intro hscore
      refine h (dashed name) (noWhitespace_dashed hname) ?_
        (tableName_inj.2 (underscored_dashed name))
      intro heq
      rw [← heq] at hscore
      exact underscore_not_mem_dashed _ hscore
  · rintro ⟨hdash, hscore⟩ other - hne htable
    have heq := tableName_inj.1 htable
    rw [underscored_of_not_mem hdash] at heq
    have hother : '-' ∉ other.toList := by
      intro hmem
      have hin := underscore_mem_underscored hmem
      rw [heq] at hin
      exact hscore hin
    rw [underscored_of_not_mem hother] at heq
    exact hne heq

end Verdicts

/-- Nothing in the text looks at the sender, so the ruleset is right only if it drops nothing. -/
theorem nft_ip_filter_iff {name : String} {deny allow : List IpRange} (hname : NoWhitespace name) :
    NftFilterLaw name deny allow ↔
      (∀ dst, passes deny allow dst) ∧ '-' ∉ name.toList ∧ '_' ∉ name.toList := by
  constructor
  · intro law
    refine ⟨fun dst => ?_, (tableName_ne_iff hname).1 law.table⟩
    have hinside := law.verdict ⟨true, dst⟩
    have houtside := law.verdict ⟨false, dst⟩
    rw [nftVerdict_eq hname] at hinside houtside
    have hboth := hinside.symm.trans houtside
    unfold wantedVerdict at hboth
    cases hpasses : passes deny allow dst with
    | true => rfl
    | false =>
      rw [hpasses] at hboth
      cases hboth
  · rintro ⟨hpasses, hchars⟩
    refine ⟨fun p => ?_, (tableName_ne_iff hname).2 hchars⟩
    rw [nftVerdict_eq hname, wantedVerdict, hpasses p.dst]
    simp

/-- A service that may go anywhere, whatever else is on its list. -/
theorem nft_ip_filter_web : NftFilterLaw "web" [] [.ofCidr 0x0A000000 8, .any] := by
  refine (nft_ip_filter_iff (Text.forall_mem_of_all (by decide))).2 ⟨fun dst => ?_, by decide⟩
  have hany : IpRange.any.containsIpv4 dst := containsIpv4_of_mask_zero rfl rfl
  simp [passes, hany]

/-- A service that may not reach 10.0.0.0/8 takes that network from the whole machine. -/
theorem nft_ip_filter_drops_all : ¬NftFilterLaw "web" [.ofCidr 0x0A000000 8] [] := by
  intro law
  have hdrop : nftVerdict "web" [.ofCidr 0x0A000000 8] [] ⟨false, 0x0A000001⟩ = .drop := by
    rw [nftVerdict_eq (Text.forall_mem_of_all (by decide))]
    decide
  have houtside := law.verdict ⟨false, 0x0A000001⟩
  rw [hdrop] at houtside
  cases houtside

end Quantra.Process
