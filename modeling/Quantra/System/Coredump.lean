import Quantra.Lib.Bytes
import Quantra.Lib.Text
import Mathlib.Data.List.Basic

/-! `cleanup_old_cores`: which core dumps of an executable are kept. -/
namespace Quantra.System

def maxCoresPerUnit : ℕ := 5

/-- `char::is_alphanumeric`, which on ASCII is the letters and digits. -/
structure Alphanumeric where
  test : Char → Bool
  ascii : ∀ c, c.toNat < 128 → test c = c.isAlphanum

def asciiAlphanumeric : Alphanumeric := ⟨Char.isAlphanum, fun _ _ => rfl⟩

/-- The executable as it stands in a file name. -/
def safeExe (alphanumeric : Alphanumeric) (exe : String) : String :=
  String.ofList (exe.toList.map fun c =>
    if alphanumeric.test c ∨ c = '-' ∨ c = '_' then c else '_')

def decimalText (n : ℕ) : String := String.ofList (Nat.toDigits 10 n)

/-- The name under which `handle_piped_core` writes a core. -/
def coreName (exe : String) (pid timestamp : ℕ) : String :=
  "core." ++ exe ++ "." ++ decimalText pid ++ "." ++ decimalText timestamp

structure DirEntry where
  name : List UInt8
  isDir : Bool
  deriving DecidableEq, Repr

/-- The entries of the directory, in the order in which they are read. -/
abbrev Directory := List DirEntry

/-- `to_string_lossy`; `lossy` gives the text of a name that is not UTF-8. -/
def nameText (lossy : List UInt8 → String) (name : List UInt8) : String :=
  (String.fromUTF8? ⟨name.toArray⟩).getD (lossy name)

def startsWith (text pattern : String) : Bool := pattern.toList <+: text.toList

def endsWith (text pattern : String) : Bool := pattern.toList <:+ text.toList

/-- A core of the executable, by its timestamp and name. -/
def coreOf (lossy : List UInt8 → String) (exe : String) (e : DirEntry) : Option (ℕ × String) :=
  let name := nameText lossy e.name
  if startsWith name ("core." ++ exe ++ ".") ∧ ¬ endsWith name ".json" then
    ((Text.split '.' name)[3]?.bind (Text.parseUnsigned (2 ^ 64))).map fun ts => (ts, name)
  else none

/-- `remove_file`, which does not remove a directory. -/
def removeFile (dir : Directory) (name : String) : Directory :=
  dir.filter fun e => e.isDir ∨ e.name ≠ Bytes.asBytes name

/-- The loop that removes the first core while there are too many. -/
def removeOldest : List (ℕ × String) → Directory → Directory
  | [], dir => dir
  | c :: cores, dir =>
    if maxCoresPerUnit < (c :: cores).length then
      removeOldest cores (removeFile (removeFile dir c.2) (c.2 ++ ".json"))
    else dir

def cleanupOldCores (lossy : List UInt8 → String) (dir : Directory) (exe : String) : Directory :=
  let cores := dir.filterMap (coreOf lossy exe)
  removeOldest (cores.mergeSort fun a b => a.1 ≤ b.1) dir

/-! What the directory is to have. -/

/-- A core file of the executable, of this time. -/
def IsCore (exe : String) (timestamp : ℕ) (e : DirEntry) : Prop :=
  e.isDir = false ∧ ∃ pid, e.name = Bytes.asBytes (coreName exe pid timestamp)

/-- A file whose name goes on behind `core.`, the executable and a dot. -/
def Belongs (lossy : List UInt8 → String) (exe : String) (e : DirEntry) : Prop :=
  startsWith (nameText lossy e.name) ("core." ++ exe ++ ".")

/-- Few cores are left and they are the newest; the metadata of the others is gone, and nothing but
files of this executable, and that only where there are too many names to be counted as cores. -/
structure Retained (lossy : List UInt8 → String) (exe : String) (before after : Directory) :
    Prop where
  few : ∀ cores : List DirEntry, cores.Sublist after →
    (∀ e ∈ cores, ∃ ts < 2 ^ 64, IsCore exe ts e) → cores.length ≤ maxCoresPerUnit
  newest : ∀ e ∈ after, ∀ e' ∈ before, e' ∉ after → ∀ ts ts', ts < 2 ^ 64 → ts' < 2 ^ 64 →
    IsCore exe ts e → IsCore exe ts' e' → ts' ≤ ts
  metadata : ∀ e' ∈ before, e' ∉ after → ∀ pid ts, ts < 2 ^ 64 → e'.isDir = false →
    e'.name = Bytes.asBytes (coreName exe pid ts) →
    ∀ e ∈ after, e.name = Bytes.asBytes (coreName exe pid ts ++ ".json") → e.isDir = true
  sublist : after.Sublist before
  removed : ∀ e ∈ before, e ∉ after → Belongs lossy exe e
  crowded : ∀ e ∈ before, e ∉ after →
    maxCoresPerUnit < (before.filterMap (coreOf lossy exe)).length

/-! Names. -/

section Names
variable {lossy : List UInt8 → String} {exe exe' : String} {pid ts : ℕ} {e : DirEntry}

theorem not_mem_safeExe (alphanumeric : Alphanumeric) (exe : String) :
    '.' ∉ (safeExe alphanumeric exe).toList := by
  rw [safeExe, String.toList_ofList]
  intro hmem
  obtain ⟨c, -, hc⟩ := List.mem_map.1 hmem
  split_ifs at hc with hkept
  · rw [hc, alphanumeric.ascii '.' (by decide)] at hkept
    exact absurd hkept (by decide)
  · exact absurd hc (by decide)

theorem nameText_asBytes (s : String) : nameText lossy (Bytes.asBytes s) = s := by
  have hvalid : (⟨s.toByteArray.data.toList.toArray⟩ : ByteArray) = s.toByteArray := by
    rw [Array.toArray_toList]
  rw [nameText, Bytes.asBytes, hvalid, String.fromUTF8?, dif_pos s.isValidUTF8]
  rfl

theorem not_mem_toDigits {c : Char} (h : c.isDigit = false) (n : ℕ) :
    c ∉ Nat.toDigits 10 n := by
  intro hmem
  rw [Nat.isDigit_of_mem_toDigits (by decide) (by decide) hmem] at h
  cases h

theorem toList_decimalText (n : ℕ) : (decimalText n).toList = Nat.toDigits 10 n :=
  String.toList_ofList

theorem toList_coreName : (coreName exe pid ts).toList =
    "core".toList ++ '.' :: (exe.toList ++ '.' :: (Nat.toDigits 10 pid ++ '.' ::
      Nat.toDigits 10 ts)) := by
  have hcore : "core.".toList = "core".toList ++ ['.'] := by decide
  have hdot : ".".toList = ['.'] := by decide
  rw [coreName, String.toList_append, String.toList_append, String.toList_append,
    String.toList_append, String.toList_append, hcore, hdot, toList_decimalText,
    toList_decimalText]
  simp only [List.append_assoc, List.cons_append, List.nil_append]

theorem startsWith_coreName : startsWith (coreName exe pid ts) ("core." ++ exe ++ ".") := by
  rw [startsWith, decide_eq_true_eq]
  refine ⟨(decimalText pid ++ "." ++ decimalText ts).toList, ?_⟩
  rw [← String.toList_append, coreName]
  simp only [String.append_assoc]

/-- A core name ends in a digit. -/
theorem not_endsWith_coreName : ¬ endsWith (coreName exe pid ts) ".json" := by
  rw [endsWith, decide_eq_true_eq]
  intro h
  obtain ⟨front, hfront⟩ := h
  have hlast : (coreName exe pid ts).toList.getLast? = some 'n' := by
    have hn : ".json".toList.getLast? = some 'n' := by decide
    rw [← hfront, List.getLast?_append, hn]
    rfl
  rw [toList_coreName] at hlast
  obtain ⟨front', d, hdigits⟩ := List.eq_nil_or_concat' (Nat.toDigits 10 ts) |>.resolve_left
    Nat.toDigits_ne_nil
  have hmem : d ∈ Nat.toDigits 10 ts := by
    rw [hdigits]
    exact List.mem_append_right _ (List.mem_singleton_self d)
  rw [hdigits] at hlast
  simp [List.getLast?_append, List.getLast?_cons] at hlast
  rw [hlast] at hmem
  exact not_mem_toDigits (by decide) ts hmem

theorem split_coreName (h : '.' ∉ exe.toList) : Text.split '.' (coreName exe pid ts) =
    ["core", exe, decimalText pid, decimalText ts] := by
  have hcore : '.' ∉ "core".toList := by decide
  rw [Text.split, toList_coreName, Text.splitChars_append hcore, Text.splitChars_append h,
    Text.splitChars_append (not_mem_toDigits (by decide) pid),
    Text.splitChars_of_not_mem (not_mem_toDigits (by decide) ts)]
  simp [decimalText]

theorem coreOf_asBytes (h : '.' ∉ exe.toList) (hts : ts < 2 ^ 64) (isDir : Bool) :
    coreOf lossy exe ⟨Bytes.asBytes (coreName exe pid ts), isDir⟩ =
      some (ts, coreName exe pid ts) := by
  rw [coreOf]
  dsimp only
  rw [nameText_asBytes, if_pos ⟨startsWith_coreName, not_endsWith_coreName⟩, split_coreName h]
  have hparse : Text.parseUnsigned (2 ^ 64) (decimalText ts) = some ts :=
    Text.parseUnsigned_toDigits hts
  rw [List.getElem?_cons_succ, List.getElem?_cons_succ, List.getElem?_cons_succ,
    List.getElem?_cons_zero, Option.bind_some, hparse]
  rfl

theorem coreOf_eq_some {c : ℕ × String} (h : coreOf lossy exe e = some c) :
    c.2 = nameText lossy e.name ∧ startsWith c.2 ("core." ++ exe ++ ".") ∧
      (Text.split '.' c.2)[3]?.bind (Text.parseUnsigned (2 ^ 64)) = some c.1 := by
  unfold coreOf at h
  dsimp only at h
  split_ifs at h with hname
  obtain ⟨ts, hts, hc⟩ := Option.map_eq_some_iff.1 h
  rw [← hc]
  exact ⟨rfl, hname.1, hts⟩

theorem startsWith_append {text pattern : String} (h : startsWith text pattern) (rest : String) :
    startsWith (text ++ rest) pattern := by
  rw [startsWith, decide_eq_true_eq] at h ⊢
  rw [String.toList_append]
  exact h.trans (List.prefix_append _ _)

/-- The executable is the second piece of a name that belongs to it. -/
theorem split_of_belongs (h : '.' ∉ exe.toList) (hb : Belongs lossy exe e) :
    (Text.split '.' (nameText lossy e.name))[1]? = some exe := by
  rw [Belongs, startsWith, decide_eq_true_eq] at hb
  obtain ⟨rest, hrest⟩ := hb
  have hcore : '.' ∉ "core".toList := by decide
  have hlead : "core.".toList = "core".toList ++ ['.'] := by decide
  have hdot : ".".toList = ['.'] := by decide
  have hshape : (nameText lossy e.name).toList =
      "core".toList ++ '.' :: (exe.toList ++ '.' :: rest) := by
    rw [← hrest, String.toList_append, String.toList_append, hlead, hdot]
    simp only [List.append_assoc, List.cons_append, List.nil_append]
  rw [Text.split, hshape, Text.splitChars_append hcore, Text.splitChars_append h]
  simp

theorem eq_of_belongs (h : '.' ∉ exe.toList) (h' : '.' ∉ exe'.toList) (hb : Belongs lossy exe e)
    (hb' : Belongs lossy exe' e) : exe = exe' := by
  have hpiece := split_of_belongs h hb
  rw [split_of_belongs h' hb'] at hpiece
  exact (Option.some.inj hpiece).symm

end Names

/-! The loop. -/

section Loop
variable {dir : Directory} {e : DirEntry} {name : String} {cores : List (ℕ × String)}

theorem mem_removeFile :
    e ∈ removeFile dir name ↔ e ∈ dir ∧ (e.isDir = true ∨ e.name ≠ Bytes.asBytes name) := by
  rw [removeFile, List.mem_filter, decide_eq_true_eq]

/-- What the loop takes from the list. -/
def excess (cores : List (ℕ × String)) : List (ℕ × String) :=
  cores.take (cores.length - maxCoresPerUnit)

theorem excess_cons {c : ℕ × String} (h : maxCoresPerUnit < (c :: cores).length) :
    excess (c :: cores) = c :: excess cores := by
  have hlen : (c :: cores).length - maxCoresPerUnit = cores.length - maxCoresPerUnit + 1 := by
    rw [List.length_cons] at h ⊢
    omega
  rw [excess, hlen, List.take_succ_cons, excess]

theorem excess_eq_nil (h : cores.length ≤ maxCoresPerUnit) : excess cores = [] := by
  rw [excess, Nat.sub_eq_zero_of_le h, List.take_zero]

theorem mem_removeOldest : e ∈ removeOldest cores dir ↔ e ∈ dir ∧ (e.isDir = true ∨
    ∀ c ∈ excess cores, e.name ≠ Bytes.asBytes c.2 ∧ e.name ≠ Bytes.asBytes (c.2 ++ ".json")) := by
  induction cores generalizing dir with
  | nil => simp [removeOldest, excess]
  | cons c cores ih =>
    rw [removeOldest]
    split_ifs with hmany
    · rw [ih, mem_removeFile, mem_removeFile, excess_cons hmany, List.forall_mem_cons]
      tauto
    · have hnone : excess (c :: cores) = [] := excess_eq_nil (Nat.le_of_not_lt hmany)
      rw [hnone]
      simp

theorem removeOldest_sublist (cores : List (ℕ × String)) (dir : Directory) :
    (removeOldest cores dir).Sublist dir := by
  induction cores generalizing dir with
  | nil => exact List.Sublist.refl dir
  | cons c cores ih =>
    rw [removeOldest]
    split_ifs
    · exact ((ih _).trans (List.filter_sublist ..)).trans (List.filter_sublist ..)
    · exact List.Sublist.refl dir

end Loop

/-! The cores in the order of their time. -/

section Sorted
variable {lossy : List UInt8 → String} {exe : String} {before : Directory} {e : DirEntry} {ts : ℕ}

def sortedCores (lossy : List UInt8 → String) (exe : String) (before : Directory) :
    List (ℕ × String) :=
  (before.filterMap (coreOf lossy exe)).mergeSort fun a b => a.1 ≤ b.1

def kept (cores : List (ℕ × String)) : List (ℕ × String) :=
  cores.drop (cores.length - maxCoresPerUnit)

theorem excess_append_kept (cores : List (ℕ × String)) : excess cores ++ kept cores = cores :=
  List.take_append_drop ..

theorem length_kept_le (cores : List (ℕ × String)) : (kept cores).length ≤ maxCoresPerUnit := by
  rw [kept, List.length_drop]
  omega

theorem le_of_mem_excess {c d : ℕ × String} (hc : c ∈ excess (sortedCores lossy exe before))
    (hd : d ∈ kept (sortedCores lossy exe before)) : c.1 ≤ d.1 := by
  have hsorted : (sortedCores lossy exe before).Pairwise fun a b => decide (a.1 ≤ b.1) := by
    refine List.pairwise_mergeSort (fun a b c hab hbc => ?_) (fun a b => ?_) _
    · rw [decide_eq_true_eq] at hab hbc ⊢
      exact Nat.le_trans hab hbc
    · rw [Bool.or_eq_true, decide_eq_true_eq, decide_eq_true_eq]
      exact Nat.le_total a.1 b.1
  rw [← excess_append_kept (sortedCores lossy exe before), List.pairwise_append] at hsorted
  exact of_decide_eq_true (hsorted.2.2 c hc d hd)

theorem coreOf_isCore (h : '.' ∉ exe.toList) (hts : ts < 2 ^ 64) (he : IsCore exe ts e) :
    ∃ pid, e.name = Bytes.asBytes (coreName exe pid ts) ∧
      coreOf lossy exe e = some (ts, coreName exe pid ts) := by
  obtain ⟨-, pid, hname⟩ := he
  refine ⟨pid, hname, ?_⟩
  obtain ⟨name, isDir⟩ := e
  have hcore : coreOf lossy exe ⟨Bytes.asBytes (coreName exe pid ts), isDir⟩ =
      some (ts, coreName exe pid ts) := coreOf_asBytes h hts isDir
  rwa [← hname] at hcore

theorem mem_sortedCores {c : ℕ × String} :
    c ∈ sortedCores lossy exe before ↔ ∃ e ∈ before, coreOf lossy exe e = some c := by
  rw [sortedCores, List.mem_mergeSort, List.mem_filterMap]

/-- The time of a core in the list is that of its name. -/
theorem eq_of_mem_sortedCores {c : ℕ × String} {pid : ℕ} (h : '.' ∉ exe.toList)
    (hts : ts < 2 ^ 64) (hc : c ∈ sortedCores lossy exe before)
    (hname : c.2 = coreName exe pid ts) : c = (ts, coreName exe pid ts) := by
  obtain ⟨e, -, he⟩ := mem_sortedCores.1 hc
  obtain ⟨-, -, hparse⟩ := coreOf_eq_some he
  have hthis : (Text.split '.' (coreName exe pid ts))[3]?.bind (Text.parseUnsigned (2 ^ 64)) =
      some ts := by
    rw [split_coreName h]
    exact Text.parseUnsigned_toDigits hts
  rw [hname, hthis] at hparse
  exact Prod.ext (Option.some.inj hparse).symm hname

theorem mem_excess {c : ℕ × String} (h : c ∈ excess (sortedCores lossy exe before)) :
    c ∈ sortedCores lossy exe before :=
  List.mem_of_mem_take h

end Sorted

/-! What is left. -/

section Retention
variable {lossy : List UInt8 → String} {exe : String} {before : Directory} {e : DirEntry}
  {pid ts : ℕ}

theorem mem_cleanupOldCores : e ∈ cleanupOldCores lossy before exe ↔ e ∈ before ∧
    (e.isDir = true ∨ ∀ c ∈ excess (sortedCores lossy exe before),
      e.name ≠ Bytes.asBytes c.2 ∧ e.name ≠ Bytes.asBytes (c.2 ++ ".json")) :=
  mem_removeOldest

/-- A core that is gone was among the oldest. -/
theorem mem_excess_of_removed (h : '.' ∉ exe.toList) (hts : ts < 2 ^ 64) (he : e ∈ before)
    (hgone : e ∉ cleanupOldCores lossy before exe) (hfile : e.isDir = false)
    (hname : e.name = Bytes.asBytes (coreName exe pid ts)) :
    (ts, coreName exe pid ts) ∈ excess (sortedCores lossy exe before) := by
  rw [mem_cleanupOldCores, hname, hfile] at hgone
  simp only [he, true_and, Bool.false_eq_true, false_or, not_forall, not_and_or, not_not] at hgone
  obtain ⟨c, hc, heq⟩ := hgone
  obtain hsame | hjson := heq
  · rwa [← eq_of_mem_sortedCores h hts (mem_excess hc) (Bytes.asBytes_inj.1 hsame).symm]
  · have hends : endsWith (coreName exe pid ts) ".json" := by
      rw [Bytes.asBytes_inj.1 hjson, endsWith, decide_eq_true_eq, String.toList_append]
      exact List.suffix_append _ _
    exact absurd hends not_endsWith_coreName

/-- A core that stays is none of the oldest. -/
theorem mem_kept_of_stays (h : '.' ∉ exe.toList) (hts : ts < 2 ^ 64)
    (he : e ∈ cleanupOldCores lossy before exe) (hcore : IsCore exe ts e) :
    ∃ c, coreOf lossy exe e = some c ∧ c.1 = ts ∧ c ∉ excess (sortedCores lossy exe before) ∧
      c ∈ kept (sortedCores lossy exe before) := by
  obtain ⟨pid, hname, hcoreOf⟩ := coreOf_isCore h hts hcore
  obtain ⟨hbefore, hstays⟩ := mem_cleanupOldCores.1 he
  rw [hcore.1, hname] at hstays
  have hno : (ts, coreName exe pid ts) ∉ excess (sortedCores lossy exe before) := by
    intro hmem
    obtain hdir | hall := hstays
    · cases hdir
    · exact (hall _ hmem).1 rfl
  refine ⟨_, hcoreOf, rfl, hno, ?_⟩
  have hmem := mem_sortedCores.2 ⟨e, hbefore, hcoreOf⟩
  rw [← excess_append_kept (sortedCores lossy exe before), List.mem_append] at hmem
  exact hmem.resolve_left hno

theorem few_cores (h : '.' ∉ exe.toList) {cores : List DirEntry}
    (hsub : cores.Sublist (cleanupOldCores lossy before exe))
    (hcores : ∀ e ∈ cores, ∃ ts < 2 ^ 64, IsCore exe ts e) :
    cores.length ≤ maxCoresPerUnit := by
  have hfound : ∀ e ∈ cores, ∃ c, coreOf lossy exe e = some c ∧
      c ∉ excess (sortedCores lossy exe before) := by
    intro e he
    obtain ⟨ts, hts, hcore⟩ := hcores e he
    obtain ⟨c, hc, -, hno, -⟩ := mem_kept_of_stays h hts (hsub.subset he) hcore
    exact ⟨c, hc, hno⟩
  let newer : ℕ × String → Bool := fun c => c ∉ excess (sortedCores lossy exe before)
  have hlen : (cores.filterMap (coreOf lossy exe)).length = cores.length := by
    rw [List.length_filterMap_eq_countP, List.countP_eq_length]
    intro e he
    obtain ⟨c, hc, -⟩ := hfound e he
    rw [hc, Option.isSome_some]
  have hall : (cores.filterMap (coreOf lossy exe)).countP newer =
      (cores.filterMap (coreOf lossy exe)).length := by
    rw [List.countP_eq_length]
    intro c hc
    obtain ⟨e, he, hce⟩ := List.mem_filterMap.1 hc
    obtain ⟨c', hc', hno⟩ := hfound e he
    rw [hce] at hc'
    rw [Option.some.inj hc']
    exact decide_eq_true hno
  have hle : (cores.filterMap (coreOf lossy exe)).countP newer ≤
      (before.filterMap (coreOf lossy exe)).countP newer :=
    ((hsub.trans (removeOldest_sublist _ _)).filterMap _).countP_le
  have hsorted : (sortedCores lossy exe before).countP newer =
      (before.filterMap (coreOf lossy exe)).countP newer := (List.mergeSort_perm _ _).countP_eq _
  have hnone : (excess (sortedCores lossy exe before)).countP newer = 0 := by
    rw [List.countP_eq_zero]
    intro c hc hno
    exact (of_decide_eq_true hno) hc
  have hkept : (kept (sortedCores lossy exe before)).countP newer ≤
      (kept (sortedCores lossy exe before)).length := List.countP_le_length
  have hfive := length_kept_le (sortedCores lossy exe before)
  have hsplit : (sortedCores lossy exe before).countP newer =
      (excess (sortedCores lossy exe before)).countP newer +
        (kept (sortedCores lossy exe before)).countP newer := by
    rw [← List.countP_append, excess_append_kept]
  omega

theorem exists_excess_of_removed (he : e ∈ before)
    (hgone : e ∉ cleanupOldCores lossy before exe) :
    ∃ c ∈ excess (sortedCores lossy exe before),
      e.name = Bytes.asBytes c.2 ∨ e.name = Bytes.asBytes (c.2 ++ ".json") := by
  rw [mem_cleanupOldCores] at hgone
  simp only [he, true_and, not_or, not_forall, not_and_or, not_not] at hgone
  obtain ⟨-, c, hc, heq⟩ := hgone
  exact ⟨c, hc, heq⟩

/-- Nothing is removed of five names or fewer. -/
theorem crowded_of_removed (he : e ∈ before) (hgone : e ∉ cleanupOldCores lossy before exe) :
    maxCoresPerUnit < (before.filterMap (coreOf lossy exe)).length := by
  obtain ⟨c, hc, -⟩ := exists_excess_of_removed he hgone
  have hlen : (sortedCores lossy exe before).length =
      (before.filterMap (coreOf lossy exe)).length := List.length_mergeSort _
  by_contra hfew
  rw [← hlen, not_lt] at hfew
  rw [excess_eq_nil hfew] at hc
  cases hc

/-- What is removed is a core of this executable, or its metadata. -/
theorem belongs_of_removed (he : e ∈ before) (hgone : e ∉ cleanupOldCores lossy before exe) :
    Belongs lossy exe e := by
  obtain ⟨c, hc, heq⟩ := exists_excess_of_removed he hgone
  obtain ⟨e', -, he'⟩ := mem_sortedCores.1 (mem_excess hc)
  obtain ⟨-, hstarts, -⟩ := coreOf_eq_some he'
  obtain hsame | hjson := heq
  · rwa [Belongs, hsame, nameText_asBytes]
  · rw [Belongs, hjson, nameText_asBytes]
    exact startsWith_append hstarts ".json"

end Retention

/-- After the cleanup at most five cores of the executable are left, and they are the newest; the
metadata of the others is gone with them, of another executable nothing is, and nothing at all where
no more than five were there. -/
theorem cleanup_retains (alphanumeric : Alphanumeric) (lossy : List UInt8 → String) (exe : String)
    (before : Directory) :
    Retained lossy (safeExe alphanumeric exe) before
      (cleanupOldCores lossy before (safeExe alphanumeric exe)) ∧
    ∀ other, safeExe alphanumeric other ≠ safeExe alphanumeric exe → ∀ e ∈ before,
      Belongs lossy (safeExe alphanumeric other) e →
      e ∈ cleanupOldCores lossy before (safeExe alphanumeric exe) := by
  have h := not_mem_safeExe alphanumeric exe
  refine ⟨⟨fun cores hsub hcores => few_cores h hsub hcores, ?_, ?_, removeOldest_sublist _ _,
    fun e he hgone => belongs_of_removed he hgone,
    fun e he hgone => crowded_of_removed he hgone⟩, ?_⟩
  · intro e he e' he' hgone ts ts' hts hts' hcore hcore'
    obtain ⟨c, -, hc, -, hkept⟩ := mem_kept_of_stays h hts he hcore
    obtain ⟨pid, hname⟩ := hcore'.2
    have hle := le_of_mem_excess (mem_excess_of_removed h hts' he' hgone hcore'.1 hname) hkept
    rwa [hc] at hle
  · intro e' he' hgone pid ts hts hfile hname e he hjson
    have hmem := mem_excess_of_removed h hts he' hgone hfile hname
    obtain hdir | hall := (mem_cleanupOldCores.1 he).2
    · exact hdir
    · exact absurd hjson (hall _ hmem).2
  · intro other hne e he hother
    by_contra hgone
    exact hne (eq_of_belongs (not_mem_safeExe alphanumeric other) h hother
      (belongs_of_removed he hgone))

def fileNamed (name : String) : DirEntry := ⟨Bytes.asBytes name, false⟩

/-- Six cores of one executable, the oldest with its metadata, and one of another. -/
def sixCores : Directory :=
  [12, 14, 17, 21, 25, 31].map (fun ts => fileNamed (coreName "web" (100 + ts) ts)) ++
    [fileNamed (coreName "web" 112 12 ++ ".json"), fileNamed (coreName "sh" 7 3)]

theorem cleanup_retains_sixCores :
    ∃ after, cleanupOldCores (fun _ => "") sixCores (safeExe asciiAlphanumeric "web") = after ∧
      Retained (fun _ => "") "web" sixCores after ∧
        after = [14, 17, 21, 25, 31].map (fun ts => fileNamed (coreName "web" (100 + ts) ts)) ++
          [fileNamed (coreName "sh" 7 3)] := by
  have hexe : safeExe asciiAlphanumeric "web" = "web" := by decide
  have hretained := (cleanup_retains asciiAlphanumeric (fun _ => "") "web" sixCores).1
  rw [hexe] at hretained ⊢
  refine ⟨_, rfl, hretained, ?_⟩
  have hsorted : (sixCores.filterMap (coreOf (fun _ => "") "web")).Pairwise
      fun a b => decide (a.1 ≤ b.1) := by decide +kernel
  rw [cleanupOldCores, List.mergeSort_of_pairwise hsorted]
  decide +kernel

end Quantra.System
