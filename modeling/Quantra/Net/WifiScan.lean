import Mathlib.Algebra.Group.Int.Defs
import Mathlib.Data.List.Infix
import Quantra.Lib.Text
import Quantra.Net.Address
import Quantra.Net.Config

/-! `wifi_scan`: what it reads from the blocks that `iw` writes. -/
namespace Quantra.Wifi
open Text Net NetConfig

structure WifiNetwork where
  ssid : String
  bssid : String
  security : WifiSecurity
  signal : ℤ
  channel : ℕ
  frequency : ℕ
  connected : Bool
  deriving DecidableEq, Repr

/-- What a command leaves; its texts are as `String::from_utf8_lossy` gives them. -/
structure Output where
  success : Bool
  stdout : String
  stderr : String
  deriving DecidableEq, Repr

/-- `str::contains`. -/
def contains (s sub : String) : Bool := decide (sub.toList <:+: s.toList)

/-- `str::eq_ignore_ascii_case`. -/
def eqIgnoreAsciiCase (s t : String) : Bool := toAsciiLowercase s == toAsciiLowercase t

/-- `split_whitespace().next()`, or the empty text. -/
def firstWord (s : String) : String :=
  String.ofList ((s.toList.dropWhile isWhitespace).takeWhile fun c => !isWhitespace c)

def parseSecurity (block : String) : WifiSecurity :=
  let b := toAsciiLowercase block
  if contains b "rsn:" || contains b "wpa2" || contains b "wpa3" then
    if contains b "sae" || contains b "wpa3" then .wpa3Psk else .wpa2Psk
  else if contains b "wpa:" then .wpa2Psk
  else .openNetwork

/-- The networks so far, and what is known of the one that is being read. -/
structure ScanState where
  networks : List WifiNetwork := []
  bssid : String := ""
  ssid : Option String := none
  freq : Option ℕ := none
  signal : Option ℤ := none
  block : String := ""

/-- The network that is being read joins the others, unless there is none. -/
def ScanState.push (st : ScanState) : List WifiNetwork :=
  if st.bssid = "" then st.networks
  else
    st.networks ++ [{
      ssid := st.ssid.getD "<hidden>"
      bssid := st.bssid
      security := parseSecurity st.block
      signal := st.signal.getD (-100)
      channel := 0
      frequency := st.freq.getD 0
      connected := false }]

def currentLink (link : Except String Output) :
    Except String (Option (String × Option String)) :=
  match link with
  | .error e => .error ("Failed to execute iw link: " ++ e)
  | .ok output =>
    if ¬output.success then .ok none
    else if contains output.stdout "Not connected" then .ok none
    else
      let bssid := (lines output.stdout).foldl (fun bssid line =>
        match dropLead "Connected to " (trim line) with
        | some rest => some (firstWord rest)
        | none => bssid) none
      .ok (bssid.map fun b => (b, none))

def markConnected (link : Except String Output) (networks : List WifiNetwork) : List WifiNetwork :=
  match currentLink link with
  | .ok (some (bssid, _)) =>
    networks.map fun n => if eqIgnoreAsciiCase n.bssid bssid then { n with connected := true } else n
  | _ => networks

/-- `sort_by_key(|n| -n.signal)`: two networks at least are compared, and `i32::MIN` has no
negative. -/
def sortBySignal (networks : List WifiNetwork) : Option (List WifiNetwork) :=
  if 2 ≤ networks.length ∧ networks.any (·.signal = -2 ^ 31) then none
  else some (networks.mergeSort fun m n => decide (-m.signal ≤ -n.signal))

section Scan
-- `parse::<f32>()` and the cast to `i32`, of which nothing is used here
variable (parseF32 : String → Option ℤ)

/-- A line that does not begin a block. -/
def scanAttribute (st : ScanState) (line : String) : ScanState :=
  let st := { st with block := st.block ++ line ++ "\n" }
  let t := trim line
  match dropLead "SSID: " t with
  | some rest => { st with ssid := some rest }
  | none =>
    match dropLead "freq: " t with
    | some rest => { st with freq := parseU32 rest }
    | none =>
      match dropLead "signal: " t with
      | some rest => { st with signal := parseF32 (firstWord rest) }
      | none => st

def scanLine (st : ScanState) (line : String) : ScanState :=
  match dropLead "BSS " (trim line) with
  | some rest => { networks := st.push, bssid := firstWord rest }
  | none => scanAttribute parseF32 st line

/-- The outcomes of `iw scan` and `iw link` are given; `none` is an overflow. -/
def wifiScan (interface : String) (scan link : Except String Output) :
    Option (Except String (List WifiNetwork)) :=
  match scan with
  | .error e => some (.error ("Failed to execute iw scan on " ++ interface ++ ": " ++ e))
  | .ok output =>
    if ¬output.success then some (.error ("WiFi scan failed: " ++ trim output.stderr))
    else
      let st := (lines output.stdout).foldl (scanLine parseF32) {}
      (sortBySignal (markConnected link st.push)).map .ok

end Scan

/-! What `iw` writes. -/

def Mac.text (mac : Mac) : String :=
  String.ofList (List.intercalate [':'] (mac.octets.map fun b =>
    [Nat.digitChar (b.toNat / 16), Nat.digitChar (b.toNat % 16)]))

/-- One access point: the words after its header, and the lines below it. -/
structure Block where
  mac : Mac
  iface : String
  words : String
  attributes : List String
  iface_ok : '\n' ∉ iface.toList
  words_ok : '\n' ∉ words.toList
  attributes_ok : ∀ line ∈ attributes, line.toList.head? = some '\t' ∧ '\n' ∉ line.toList

def Block.header (b : Block) : String := "BSS " ++ Mac.text b.mac ++ "(on " ++ b.iface ++ ")" ++ b.words

def Block.lines (b : Block) : List String := b.header :: b.attributes

def scanText (blocks : List Block) : String :=
  String.ofList ((blocks.flatMap Block.lines).flatMap fun line => line.toList ++ ['\n'])

/-- The last of the lines that begin so, after it. -/
def lastValue (pre : String) (lines : List String) : Option String :=
  (lines.filterMap fun line => dropLead pre (trim line)).getLast?

/-- The lines that stand in a block. -/
def blockText (lines : List String) : String := String.join (lines.map (· ++ "\n"))

/-- The current link is to this access point. -/
def isLink (link : Except String Output) (mac : Mac) : Bool :=
  match currentLink link with
  | .ok (some (bssid, _)) => eqIgnoreAsciiCase (Mac.text mac) bssid
  | _ => false

section Network
variable (parseF32 : String → Option ℤ)

/-- What a block tells, under the name that it goes by. -/
def Block.network (b : Block) (bssid : String) (connected : Bool) : WifiNetwork where
  ssid := (lastValue "SSID: " b.attributes).getD "<hidden>"
  bssid := bssid
  security := parseSecurity (blockText b.attributes)
  signal := ((lastValue "signal: " b.attributes).bind fun v => parseF32 (firstWord v)).getD (-100)
  channel := 0
  frequency := ((lastValue "freq: " b.attributes).bind parseU32).getD 0
  connected := connected

/-- One network for each block, with what its block tells, the strongest first. -/
structure Scanned (link : Except String Output) (blocks : List Block)
    (networks : List WifiNetwork) : Prop where
  perm : networks.Perm (blocks.map fun b =>
    b.network parseF32 (Mac.text b.mac) (isLink link b.mac))
  sorted : networks.Pairwise fun m n => n.signal ≤ m.signal

end Network

/-! The name of a network is the first word of its header. -/

section Header
variable {parseF32 : String → Option ℤ} {w rest cs : List Char} {b : Block}

theorem firstWord_append (hw : ∀ c ∈ w, isWhitespace c = false) (hne : w ≠ [])
    (hrest : ∀ c ∈ rest.head?, isWhitespace c = true) :
    firstWord (String.ofList (w ++ rest)) = String.ofList w := by
  have hkeep : (w ++ rest).dropWhile isWhitespace = w ++ rest := by
    cases w with
    | nil => exact absurd rfl hne
    | cons c w =>
      rw [List.cons_append, List.dropWhile_cons_of_neg (by simp [hw c List.mem_cons_self])]
  have hstop : rest.takeWhile (fun c => !isWhitespace c) = [] := by
    cases rest with
    | nil => rfl
    | cons c rest => rw [List.takeWhile_cons_of_neg (by simp [hrest c rfl])]
  rw [firstWord, String.toList_ofList, hkeep,
    List.takeWhile_append_of_pos fun c hc => by simp [hw c hc], hstop, List.append_nil]

theorem head?_of_isPrefix {cs ds : List Char} {c : Char} (h : cs <+: ds) (hc : c ∈ cs.head?) :
    c ∈ ds.head? := by
  obtain ⟨es, rfl⟩ := h
  cases cs with
  | nil => cases hc
  | cons d cs => exact hc

/-- A line that begins a block, whatever comes after its first word. -/
theorem scanLine_header (hw : ∀ c ∈ w, isWhitespace c = false) (hne : w ≠ [])
    (hrest : ∀ c ∈ rest.head?, isWhitespace c = true) (st : ScanState) :
    scanLine parseF32 st (String.ofList ("BSS ".toList ++ (w ++ rest))) =
      { networks := st.push, bssid := String.ofList w } := by
  have hlast : ¬isWhitespace (w.getLast hne) := by simp [hw _ (List.getLast_mem hne)]
  have hsplit : "BSS ".toList ++ (w ++ rest) = ("BSS ".toList ++ w.dropLast) ++ w.getLast hne :: rest := by
    conv_lhs => rw [← List.dropLast_append_getLast hne]
    simp
  have htrim : trim (String.ofList ("BSS ".toList ++ (w ++ rest))) =
      String.ofList ("BSS ".toList ++ (w ++ dropWhileEnd isWhitespace rest)) := by
    have hstart : ("BSS ".toList ++ (w ++ rest)).dropWhile isWhitespace =
        "BSS ".toList ++ (w ++ rest) := rfl
    rw [trim, trimMatches, String.toList_ofList, hstart, hsplit, dropWhileEnd_append hlast]
    conv_rhs => rw [← List.dropLast_append_getLast hne]
    simp
  have hprefix : dropWhileEnd isWhitespace rest <+: rest :=
    List.rdropWhile_prefix isWhitespace rest
  rw [scanLine, htrim, dropLead_append]
  dsimp only
  rw [firstWord_append hw hne fun c hc => hrest c (head?_of_isPrefix hprefix hc)]

theorem mac_text_chars (mac : Mac) {c : Char} (hc : c ∈ (Mac.text mac).toList) :
    isWhitespace c = false ∧ c ≠ '(' ∧ c ≠ '\n' := by
  have hdigit : ∀ n < 16, isWhitespace (Nat.digitChar n) = false ∧ Nat.digitChar n ≠ '(' ∧
      Nat.digitChar n ≠ '\n' := by
    decide
  rw [Mac.text, String.toList_ofList] at hc
  rcases mem_intercalate hc with rfl | ⟨cs, hcs, hc⟩
  · decide
  · obtain ⟨a, -, rfl⟩ := List.mem_map.1 hcs
    have ha := a.toNat_lt
    rcases List.mem_cons.1 hc with rfl | hc
    · exact hdigit _ (by omega)
    · rw [List.mem_singleton.1 hc]
      exact hdigit _ (by omega)

/-- The characters up to the first space. -/
def headerWord (mac : Mac) : List Char := (Mac.text mac).toList ++ "(on".toList

theorem headerWord_chars (mac : Mac) {c : Char} (hc : c ∈ headerWord mac) :
    isWhitespace c = false ∧ c ≠ '\n' := by
  have hon : ∀ c ∈ "(on".toList, isWhitespace c = false ∧ c ≠ '\n' :=
    forall_mem_of_all (by decide)
  rcases List.mem_append.1 hc with hc | hc
  · exact ⟨(mac_text_chars mac hc).1, (mac_text_chars mac hc).2.2⟩
  · exact hon c hc

theorem header_toList (b : Block) : b.header.toList =
    "BSS ".toList ++ (headerWord b.mac ++ ' ' :: (b.iface.toList ++ ')' :: b.words.toList)) := by
  simp [Block.header, headerWord]

theorem Block.newline_not_mem (b : Block) {line : String} (h : line ∈ b.lines) :
    '\n' ∉ line.toList := by
  rcases List.mem_cons.1 h with rfl | h
  · have hword : '\n' ∉ headerWord b.mac := fun h => (headerWord_chars b.mac h).2 rfl
    rw [header_toList]
    simp [hword, b.iface_ok, b.words_ok]
  · exact (b.attributes_ok line h).2

/-- The first line of what `iw` writes. -/
theorem lines_scanText (b : Block) (blocks : List Block) : ∃ rest more,
    (∀ c ∈ rest.head?, isWhitespace c = true) ∧ lines (scanText (b :: blocks)) =
      String.ofList ("BSS ".toList ++ (headerWord b.mac ++ rest)) :: more := by
  have hnewline := b.newline_not_mem List.mem_cons_self
  have htext : scanText (b :: blocks) = String.ofList (b.header.toList ++ '\n' ::
      ((b.attributes ++ blocks.flatMap Block.lines).flatMap fun line => line.toList ++ ['\n'])) := by
    rw [scanText, List.flatMap_cons, Block.lines, List.cons_append, List.flatMap_cons,
      List.append_assoc]
    rfl
  have hlast : ("BSS ".toList ++ headerWord b.mac).getLast? ≠ some '\r' := by
    have hend : ("BSS ".toList ++ headerWord b.mac).getLast? = some 'n' := by
      rw [headerWord, ← List.append_assoc, List.getLast?_append]
      rfl
    rw [hend]
    decide
  rw [htext, lines_cons hnewline, header_toList, ← List.append_assoc, dropCarriageReturn_append hlast,
    List.append_assoc]
  refine ⟨_, _, fun c hc => ?_, rfl⟩
  have hcut := dropCarriageReturn_prefix (' ' :: (b.iface.toList ++ ')' :: b.words.toList))
  have hhead := head?_of_isPrefix hcut hc
  rw [← Option.some.inj hhead]
  rfl

end Header

/-! What has begun is found. -/

section Found
variable {parseF32 : String → Option ℤ} {x : String} {st : ScanState} {networks : List WifiNetwork}
  {link : Except String Output}

/-- A network of this name is there, or is being read. -/
def Begun (x : String) (st : ScanState) : Prop := st.bssid = x ∨ ∃ n ∈ st.networks, n.bssid = x

theorem Begun.push (hx : x ≠ "") (h : Begun x st) : ∃ n ∈ st.push, n.bssid = x := by
  unfold ScanState.push
  rcases h with rfl | ⟨n, hn, hbssid⟩
  · rw [if_neg hx]
    exact ⟨_, List.mem_append_right st.networks (List.mem_singleton_self _), rfl⟩
  · split
    · exact ⟨n, hn, hbssid⟩
    · exact ⟨n, List.mem_append_left _ hn, hbssid⟩

theorem scanAttribute_keeps (parseF32 : String → Option ℤ) (st : ScanState) (line : String) :
    (scanAttribute parseF32 st line).bssid = st.bssid ∧
      (scanAttribute parseF32 st line).networks = st.networks := by
  unfold scanAttribute
  dsimp only
  split
  · exact ⟨rfl, rfl⟩
  · split
    · exact ⟨rfl, rfl⟩
    · split
      · exact ⟨rfl, rfl⟩
      · exact ⟨rfl, rfl⟩

theorem Begun.scanLine (hx : x ≠ "") (h : Begun x st) (line : String) :
    Begun x (scanLine parseF32 st line) := by
  unfold Wifi.scanLine
  split
  · exact .inr (h.push hx)
  · obtain ⟨hbssid, hnetworks⟩ := scanAttribute_keeps parseF32 st line
    rw [Begun, hbssid, hnetworks]
    exact h

theorem Begun.scanLines (hx : x ≠ "") (h : Begun x st) (lines : List String) :
    Begun x (lines.foldl (Wifi.scanLine parseF32) st) := by
  induction lines generalizing st with
  | nil => exact h
  | cons line lines ih =>
    rw [List.foldl_cons]
    exact ih (h.scanLine hx line)

theorem bssid_markConnected (link : Except String Output) (networks : List WifiNetwork) :
    (markConnected link networks).map (·.bssid) = networks.map (·.bssid) := by
  unfold markConnected
  split
  · rw [List.map_map]
    apply List.map_congr_left
    intro n _
    rw [Function.comp_apply]
    split <;> rfl
  · rfl

theorem sortBySignal_perm {sorted : List WifiNetwork} (h : sortBySignal networks = some sorted) :
    sorted.Perm networks := by
  unfold sortBySignal at h
  split at h
  · cases h
  · rw [← Option.some.inj h]
    exact List.mergeSort_perm networks _

theorem exists_bssid_sorted {sorted : List WifiNetwork} (h : ∃ n ∈ networks, n.bssid = x)
    (hsorted : sortBySignal (markConnected link networks) = some sorted) :
    ∃ n ∈ sorted, n.bssid = x := by
  obtain ⟨n, hn, rfl⟩ := h
  have hmem : n.bssid ∈ (markConnected link networks).map (·.bssid) := by
    rw [bssid_markConnected]
    exact List.mem_map_of_mem hn
  obtain ⟨m, hm, hname⟩ := List.mem_map.1 hmem
  exact ⟨m, (sortBySignal_perm hsorted).mem_iff.2 hm, hname⟩

end Found

/-- What `wifi_scan` finds carries the first word of the header, bracket and all. -/
theorem wifiScan_bssid {parseF32 : String → Option ℤ} {interface stderr : String}
    {link : Except String Output} {b : Block} {blocks : List Block} {networks : List WifiNetwork}
    (h : wifiScan parseF32 interface (.ok ⟨true, scanText (b :: blocks), stderr⟩) link =
      some (.ok networks)) : ∃ n ∈ networks, n.bssid = String.ofList (headerWord b.mac) := by
  obtain ⟨rest, more, hrest, hlines⟩ := lines_scanText b blocks
  have hword : headerWord b.mac ≠ [] := by simp [headerWord]
  have hname : String.ofList (headerWord b.mac) ≠ "" := fun hempty =>
    hword (String.ofList_inj.1 hempty)
  have hbegun : Begun (String.ofList (headerWord b.mac)) (scanLine parseF32 {}
      (String.ofList ("BSS ".toList ++ (headerWord b.mac ++ rest)))) := by
    rw [scanLine_header (fun c hc => (headerWord_chars b.mac hc).1) hword hrest]
    exact .inl rfl
  rw [wifiScan] at h
  dsimp only at h
  rw [if_neg (not_not.2 rfl), hlines, List.foldl_cons] at h
  obtain ⟨sorted, hsorted, hresult⟩ := Option.map_eq_some_iff.1 h
  cases hresult
  exact exists_bssid_sorted ((hbegun.scanLines hname more).push hname) hsorted

/-! Blocks whose lines do not look like headers are read each by itself. -/

section Apart
variable {parseF32 : String → Option ℤ} {pre pre' line : String} {ls : List String}

theorem lastValue_cons (pre line : String) (ls : List String) :
    lastValue pre (line :: ls) = (lastValue pre ls).or (dropLead pre (trim line)) := by
  unfold lastValue
  cases hline : dropLead pre (trim line) with
  | none => simp only [List.filterMap_cons, hline, Option.or_none]
  | some v =>
    simp only [List.filterMap_cons, hline, List.getLast?_cons]
    cases (ls.filterMap fun line => dropLead pre (trim line)).getLast? <;> rfl

/-- A text does not begin in two ways. -/
theorem dropLead_eq_none {c d : Char} {cs ds : List Char} (hc : pre.toList = c :: cs)
    (hd : pre'.toList = d :: ds) (hne : c ≠ d) {rest : String} (h : dropLead pre line = some rest) :
    dropLead pre' line = none := by
  cases hother : dropLead pre' line with
  | none => rfl
  | some rest' =>
    have htwo := (toList_of_dropLead h).symm.trans (toList_of_dropLead hother)
    rw [hc, hd] at htwo
    exact absurd (List.cons.inj htwo).1 hne

/-- The three values of a block do not stand in each other's way. -/
theorem scanAttribute_eq (st : ScanState) (line : String) : scanAttribute parseF32 st line =
    { st with
      ssid := (dropLead "SSID: " (trim line)).or st.ssid
      freq := (dropLead "freq: " (trim line)).elim st.freq parseU32
      signal := (dropLead "signal: " (trim line)).elim st.signal fun v => parseF32 (firstWord v)
      block := st.block ++ line ++ "\n" } := by
  unfold scanAttribute
  dsimp only
  cases hssid : dropLead "SSID: " (trim line) with
  | some v =>
    rw [dropLead_eq_none rfl rfl (by decide) hssid, dropLead_eq_none rfl rfl (by decide) hssid]
    rfl
  | none =>
    cases hfreq : dropLead "freq: " (trim line) with
    | some v =>
      rw [dropLead_eq_none rfl rfl (by decide) hfreq]
      rfl
    | none => cases dropLead "signal: " (trim line) <;> rfl

theorem elim_or {α β : Type} (a b : Option α) (init : β) (f : α → β) :
    (a.or b).elim init f = a.elim (b.elim init f) f := by
  cases a <;> rfl

theorem elim_none_eq {α β : Type} (a : Option α) (f : α → Option β) : a.elim none f = a.bind f := by
  cases a <;> rfl

theorem scanAttributes_eq (h : ∀ l ∈ ls, dropLead "BSS " (trim l) = none) (st : ScanState) :
    ls.foldl (scanLine parseF32) st = { st with
      ssid := (lastValue "SSID: " ls).or st.ssid
      freq := (lastValue "freq: " ls).elim st.freq parseU32
      signal := (lastValue "signal: " ls).elim st.signal fun v => parseF32 (firstWord v)
      block := st.block ++ blockText ls } := by
  induction ls generalizing st with
  | nil => simp [lastValue, blockText]
  | cons l ls ih =>
    have hline : scanLine parseF32 st l = scanAttribute parseF32 st l := by
      rw [scanLine, h l List.mem_cons_self]
    have htext : st.block ++ blockText (l :: ls) = st.block ++ l ++ "\n" ++ blockText ls := by
      simp [blockText, String.append_assoc]
    rw [List.foldl_cons, hline, ih fun l hl => h l (List.mem_cons_of_mem _ hl), scanAttribute_eq,
      lastValue_cons, lastValue_cons, lastValue_cons, Option.or_assoc, elim_or, elim_or, htext]

theorem scanBlock_eq {b : Block} (h : ∀ l ∈ b.attributes, dropLead "BSS " (trim l) = none)
    (st : ScanState) : b.lines.foldl (scanLine parseF32) st =
      { networks := st.push
        bssid := String.ofList (headerWord b.mac)
        ssid := lastValue "SSID: " b.attributes
        freq := (lastValue "freq: " b.attributes).bind parseU32
        signal := (lastValue "signal: " b.attributes).bind fun v => parseF32 (firstWord v)
        block := blockText b.attributes } := by
  have hword : headerWord b.mac ≠ [] := by simp [headerWord]
  have hheader : scanLine parseF32 st b.header =
      { networks := st.push, bssid := String.ofList (headerWord b.mac) } := by
    rw [← String.ofList_toList (s := b.header), header_toList]
    exact scanLine_header (fun c hc => (headerWord_chars b.mac hc).1) hword (by simp [isWhitespace]) st
  rw [Block.lines, List.foldl_cons, hheader, scanAttributes_eq h, Option.or_none,
    String.empty_append, elim_none_eq, elim_none_eq]

theorem push_scanBlocks {blocks : List Block}
    (h : ∀ b ∈ blocks, ∀ l ∈ b.attributes, dropLead "BSS " (trim l) = none) (st : ScanState) :
    ((blocks.flatMap Block.lines).foldl (scanLine parseF32) st).push = st.push ++
      blocks.map fun b => b.network parseF32 (String.ofList (headerWord b.mac)) false := by
  induction blocks generalizing st with
  | nil => rw [List.map_nil, List.append_nil]; rfl
  | cons b blocks ih =>
    have hword : headerWord b.mac ≠ [] := by simp [headerWord]
    rw [List.flatMap_cons, List.foldl_append, ih fun b hb => h b (List.mem_cons_of_mem _ hb),
      scanBlock_eq (h b List.mem_cons_self), ScanState.push,
      if_neg fun hempty => hword (String.ofList_inj.1 hempty), List.map_cons, List.append_assoc]
    rfl

/-- As many networks as blocks, where no line of a block looks like a header. -/
theorem wifiScan_apart {blocks : List Block} (interface stderr : String)
    (link : Except String Output)
    (h : ∀ b ∈ blocks, ∀ l ∈ b.attributes, dropLead "BSS " (trim l) = none)
    (hend : ∀ b ∈ blocks, ∀ l ∈ b.lines, l.toList.getLast? ≠ some '\r') :
    wifiScan parseF32 interface (.ok ⟨true, scanText blocks, stderr⟩) link =
      (sortBySignal (markConnected link (blocks.map fun b =>
        b.network parseF32 (String.ofList (headerWord b.mac)) false))).map .ok := by
  have hlines : Text.lines (scanText blocks) = blocks.flatMap Block.lines := by
    have hall : ∀ cs ∈ (blocks.flatMap Block.lines).map String.toList,
        '\n' ∉ cs ∧ cs.getLast? ≠ some '\r' := by
      intro cs hcs
      obtain ⟨l, hl, rfl⟩ := List.mem_map.1 hcs
      obtain ⟨b, hb, hlb⟩ := List.mem_flatMap.1 hl
      exact ⟨b.newline_not_mem hlb, hend b hb l hlb⟩
    have hsame : (blocks.flatMap Block.lines).map (String.ofList ∘ String.toList) =
        blocks.flatMap Block.lines := List.map_id'' (fun _ => String.ofList_toList) _
    have htext : (blocks.flatMap Block.lines).flatMap (fun line => line.toList ++ ['\n']) =
        ((blocks.flatMap Block.lines).map String.toList).flatMap (· ++ ['\n']) := by
      rw [List.flatMap_map]
    rw [scanText, htext, lines_terminated hall, List.map_map, hsame]
  rw [wifiScan]
  dsimp only
  rw [if_neg (not_not.2 rfl), hlines, push_scanBlocks h]
  rfl

end Apart

/-- Not one network goes by the name of its block. -/
theorem not_scanned {parseF32 : String → Option ℤ} {interface stderr : String}
    {link : Except String Output} {b : Block} {blocks : List Block} :
    ¬∃ networks, wifiScan parseF32 interface (.ok ⟨true, scanText (b :: blocks), stderr⟩) link =
      some (.ok networks) ∧ Scanned parseF32 link (b :: blocks) networks := by
  rintro ⟨networks, hscan, hscanned⟩
  obtain ⟨n, hn, hbssid⟩ := wifiScan_bssid hscan
  obtain ⟨b', -, rfl⟩ := List.mem_map.1 (hscanned.perm.mem_iff.1 hn)
  have hname : Mac.text b'.mac = String.ofList (headerWord b.mac) := hbssid
  have hbracket : '(' ∈ (Mac.text b'.mac).toList := by
    rw [hname]
    simp [headerWord]
  exact (mac_text_chars b'.mac hbracket).2.1 rfl

/-- The scan is parsed as documented just when nothing has been found. -/
theorem scanned_iff (parseF32 : String → Option ℤ) (interface stderr : String)
    (link : Except String Output) (blocks : List Block) :
    (∃ networks, wifiScan parseF32 interface (.ok ⟨true, scanText blocks, stderr⟩) link =
      some (.ok networks) ∧ Scanned parseF32 link blocks networks) ↔ blocks = [] := by
  constructor
  · intro h
    cases blocks with
    | nil => rfl
    | cons b blocks => exact absurd h not_scanned
  · rintro rfl
    have hmark : markConnected link [] = [] := by
      unfold markConnected
      split <;> rfl
    have hstate : (lines (scanText [])).foldl (scanLine parseF32) {} = {} := rfl
    refine ⟨[], ?_, .nil, .nil⟩
    rw [wifiScan]
    dsimp only
    rw [if_neg (not_not.2 rfl), hstate, ScanState.push, if_pos rfl, hmark]
    simp [sortBySignal]

/-- An access point of `wlan0` in the 2.4 GHz band. -/
def homeBlock : Block where
  mac := ⟨0xde, 0xad, 0xbe, 0xef, 0, 1⟩
  iface := "wlan0"
  words := ""
  attributes := ["\tfreq: 2412", "\tsignal: -40.00 dBm", "\tSSID: home"]
  iface_ok := by decide
  words_ok := by decide
  attributes_ok := by decide

/-- It is found, but under the name `de:ad:be:ef:00:01(on`. -/
theorem homeBlock_not_scanned : ¬∃ networks,
    wifiScan (fun _ => some (-40)) "wlan0" (.ok ⟨true, scanText [homeBlock], ""⟩)
      (.ok ⟨true, "Not connected.", ""⟩) = some (.ok networks) ∧
    Scanned (fun _ => some (-40)) (.ok ⟨true, "Not connected.", ""⟩) [homeBlock] networks :=
  not_scanned

end Quantra.Wifi
