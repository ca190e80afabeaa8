import Quantra.Lib.Settings
import Quantra.Ramfs.Verity

/-! `parse_verity_cmdline` and `setup_verity_device`: the table that is loaded for a command line, in
bytes, sectors and blocks. -/
namespace Quantra.Verity
open Bytes Effects MeasuredBoot Switch Text

def hexNibble (b : UInt8) : Except String UInt8 :=
  if 48 ≤ b ∧ b ≤ 57 then .ok (b - 48)
  else if 97 ≤ b ∧ b ≤ 102 then .ok (b - 97 + 10)
  else if 65 ≤ b ∧ b ≤ 70 then .ok (b - 65 + 10)
  else .error ("invalid hex char: " ++ String.singleton (Char.ofNat b.toNat))

def decodeChunks : List UInt8 → Except String (List UInt8)
  | a :: b :: rest => do
    let hi ← hexNibble a
    let lo ← hexNibble b
    let bytes ← decodeChunks rest
    .ok (((hi <<< 4) ||| lo) :: bytes)
  | _ => .ok []

def decodeRoothash (hex : String) : Except String (Vector UInt8 32) :=
  let bytes := asBytes (trim hex)
  if bytes.length ≠ 64 then
    .error ("roothash must be 64 hex chars (32 bytes), got " ++ toString bytes.length ++ " chars")
  else (decodeChunks bytes).map fun out => Vector.ofFn fun i => out.getD i 0

/-- What the words of the command line have set. -/
structure VerityParams where
  dataDevice : Option String := none
  hashDevice : Option String := none
  roothashHex : Option String := none
  hashOffset : UInt64 := 0

def dataKey : String := "rd.verity.data="

def hashKey : String := "rd.verity.hash="

def roothashKey : String := "rd.verity.roothash="

def hashOffsetKey : String := "rd.verity.hashoffset="

/-- `parse::<u64>().unwrap_or(0)`. -/
def offsetOf (v : String) : UInt64 := UInt64.ofNat ((parseUnsigned (2 ^ 64) v).getD 0)

/-- One word; the last of several counts. -/
def parseVerityToken (p : VerityParams) (tok : String) : VerityParams :=
  match dropLead dataKey tok with
  | some v => { p with dataDevice := some v }
  | none =>
    match dropLead hashKey tok with
    | some v => { p with hashDevice := some v }
    | none =>
      match dropLead roothashKey tok with
      | some v => { p with roothashHex := some v }
      | none =>
        match dropLead hashOffsetKey tok with
        | some v => { p with hashOffset := offsetOf v }
        | none => p

def verityParams (cmdline : String) : VerityParams :=
  (splitWhitespace cmdline).foldl parseVerityToken {}

/-- `none` if verity is not enabled. -/
def parseVerityCmdline (cmdline : String) : Option (Except String VerityConfig) :=
  if (splitWhitespace cmdline).contains "rd.verity=1" then
    let p := verityParams cmdline
    some (
      match p.dataDevice with
      | none => .error "rd.verity.data= missing"
      | some data =>
        let hash := p.hashDevice.getD data
        match p.roothashHex with
        | none => .error "rd.verity.roothash= missing"
        | some hex => (decodeRoothash hex).map fun roothash =>
          { dataDevice := data, hashDevice := hash, roothash, hashOffset := p.hashOffset
            dmName := "zainium-verity" })
  else none

/-- The path that `find_root` returns: a word of the command line, or made from one. -/
structure RootDevice where
  path : String
  word : ∀ c ∈ path.toList, isWhitespace c = false

/-- If there is no data device, the root device is meant. -/
def substituteRoot (root : RootDevice) (cfg : VerityConfig) : VerityConfig :=
  if cfg.dataDevice = "" then { cfg with dataDevice := root.path } else cfg

def setupVerityDevice (sys : System) (raw : String) (root : RootDevice) : Dm String :=
  match parseVerityCmdline raw with
  | none => throw "rd.verity=1 set but no verity params found in cmdline"
  | some (.error e) => throw ("verity cmdline parse: " ++ e)
  | some (.ok cfg) => setupVerity sys (substituteRoot root cfg)

/-! What is documented of the parameters and of the table. -/

/-- The last word of the command line that sets the parameter. -/
def parameter (raw key : String) : Option String :=
  ((splitWhitespace raw).filterMap (dropLead key)).getLast?

/-- A number of any size. -/
def number (v : String) : Option ℕ :=
  digitsToNat (
    match v.toList with
    | '+' :: rest => rest
    | cs => cs)

/-- The offset in bytes; `none` if it is not a number. -/
def givenOffset (raw : String) : Option ℕ :=
  match parameter raw hashOffsetKey with
  | none => some 0
  | some v => number v

/-- The parameters of the target: version, data device, hash device, the two block sizes, the number of
data blocks, the first hash block, algorithm, digest and salt. -/
def tableField (t : Target) (i : ℕ) : Option String := (split ' ' t.params)[i]?

def numDataBlocks (t : Target) : Option ℕ := (tableField t 5).bind number

def hashStartBlock (t : Target) : Option ℕ := (tableField t 6).bind number

/-- The name of the device, as it reaches the kernel. -/
def verityName : List UInt8 := (newDmIoctl "zainium-verity").name

/-- A device is created, and this table is loaded for it. -/
def Loads (sys : System) (devs : Devices) (raw : String) (root : RootDevice) (t : Target) : Prop :=
  devs verityName = none ∧
    ∃ d, (outcome (setupVerityDevice sys raw root) devs).2 verityName = some d ∧
      d.inactive = some [t]

structure TableLaw (sys : System) (devs : Devices) (raw : String) (root : RootDevice) : Prop where
  offset : ∀ t, Loads sys devs raw root t → ∃ o b, givenOffset raw = some o ∧
    hashStartBlock t = some b ∧ b * 4096 = o
  length : ∀ t, Loads sys devs raw root t → ∃ n, numDataBlocks t = some n ∧ t.length = 8 * n
  apart : ∀ t, Loads sys devs raw root t → tableField t 1 = tableField t 2 →
    ∃ n o, numDataBlocks t = some n ∧ givenOffset raw = some o ∧ n * 4096 ≤ o
  rootDevice : parameter raw dataKey = none →
    ∀ t, Loads sys devs (raw ++ " " ++ dataKey ++ root.path) root t → Loads sys devs raw root t

/-! When it is kept to. -/

/-- The configuration that comes out of the command line. -/
def config (raw : String) (root : RootDevice) : Option VerityConfig :=
  ((parseVerityCmdline raw).bind Except.toOption).map (substituteRoot root)

/-- The kernel lets the set-up go on to the table, for a data device of `n` sectors. -/
def GetsToTable (sys : System) (devs : Devices) (cfg : VerityConfig) (n : UInt64) : Prop :=
  Creates sys devs cfg ∧ sys.sectors cfg.dataDevice = .ok n ∧ sys.refusal dmTableLoadCmd = none

/-- There is no hash offset, the device has whole blocks, and none at all if it is the hash device as
well; and no set-up is waiting for the root device to be taken. -/
structure Plain (sys : System) (devs : Devices) (raw : String) (root : RootDevice) : Prop where
  table : ∀ cfg n, config raw root = some cfg → GetsToTable sys devs cfg n →
    givenOffset raw = some 0 ∧ n.toNat % 8 = 0 ∧ (cfg.dataDevice = cfg.hashDevice → n = 0)
  dataDevice : parameter raw dataKey = none → ∀ cfg n,
    config (raw ++ " " ++ dataKey ++ root.path) root = some cfg → ¬GetsToTable sys devs cfg n

section Words
variable {raw tok key v : String} {root : RootDevice}

theorem dropLead_none (key' : String) (h : ¬key.toList <+: key'.toList) (h' : ¬key'.toList <+: key.toList)
    (hv : dropLead key tok = some v) : dropLead key' tok = none := by
  cases hv' : dropLead key' tok with
  | none => rfl
  | some v' =>
    have hkey : key.toList <+: tok.toList := ⟨v.toList, (toList_of_dropLead hv).symm⟩
    have hkey' : key'.toList <+: tok.toList := ⟨v'.toList, (toList_of_dropLead hv').symm⟩
    rcases List.prefix_or_prefix_of_prefix hkey hkey' with hpre | hpre
    · exact absurd hpre h
    · exact absurd hpre h'

/-- No two of the four parameters are set by one word. -/
theorem parseVerityToken_eq (p : VerityParams) (tok : String) : parseVerityToken p tok =
    { dataDevice := (dropLead dataKey tok).or p.dataDevice
      hashDevice := (dropLead hashKey tok).or p.hashDevice
      roothashHex := (dropLead roothashKey tok).or p.roothashHex
      hashOffset := (dropLead hashOffsetKey tok).elim p.hashOffset offsetOf } := by
  unfold parseVerityToken
  cases hdata : dropLead dataKey tok with
  | some v =>
    rw [dropLead_none hashKey (by decide) (by decide) hdata,
      dropLead_none roothashKey (by decide) (by decide) hdata,
      dropLead_none hashOffsetKey (by decide) (by decide) hdata]
    rfl
  | none =>
    cases hhash : dropLead hashKey tok with
    | some v =>
      rw [dropLead_none roothashKey (by decide) (by decide) hhash,
        dropLead_none hashOffsetKey (by decide) (by decide) hhash]
      rfl
    | none =>
      cases hroothash : dropLead roothashKey tok with
      | some v =>
        rw [dropLead_none hashOffsetKey (by decide) (by decide) hroothash]
        rfl
      | none => cases dropLead hashOffsetKey tok <;> rfl

theorem verityParams_eq (raw : String) : verityParams raw =
    { dataDevice := parameter raw dataKey
      hashDevice := parameter raw hashKey
      roothashHex := parameter raw roothashKey
      hashOffset := (parameter raw hashOffsetKey).elim 0 offsetOf } := by
  unfold verityParams parameter
  induction splitWhitespace raw using List.reverseRecOn with
  | nil => rfl
  | append_singleton ts tok ih =>
    have hlast : ∀ key, ((ts ++ [tok]).filterMap (dropLead key)).getLast? =
        (dropLead key tok).or (ts.filterMap (dropLead key)).getLast? := by
      intro key
      rw [List.filterMap_append, List.getLast?_append]
      cases hkey : dropLead key tok with
      | none => rw [List.filterMap_cons_none hkey]; rfl
      | some v => rw [List.filterMap_cons_some hkey]; rfl
    rw [List.foldl_append, ih, List.foldl_cons, List.foldl_nil, parseVerityToken_eq]
    simp only [hlast]
    cases dropLead hashOffsetKey tok <;> rfl

/-- What a configuration is made of. -/
theorem parse_ok {r : VerityConfig} (h : parseVerityCmdline raw = some (.ok r)) :
    ∃ data, parameter raw dataKey = some data ∧ r.dataDevice = data ∧
      r.hashDevice = (parameter raw hashKey).getD data ∧
      r.hashOffset = (parameter raw hashOffsetKey).elim 0 offsetOf ∧
      r.dmName = "zainium-verity" := by
  unfold parseVerityCmdline at h
  rw [verityParams_eq] at h
  split at h
  · dsimp only at h
    cases hdata : parameter raw dataKey with
    | none =>
      rw [hdata] at h
      cases h
    | some data =>
      rw [hdata] at h
      cases hhex : parameter raw roothashKey with
      | none =>
        rw [hhex] at h
        cases h
      | some hex =>
        rw [hhex] at h
        dsimp only at h
        cases hdecode : decodeRoothash hex with
        | error e =>
          rw [hdecode] at h
          cases h
        | ok roothash =>
          rw [hdecode] at h
          cases h
          exact ⟨data, rfl, rfl, rfl, rfl, rfl⟩
  · cases h

theorem word_of_parameter (h : parameter raw key = some v) :
    ∀ c ∈ v.toList, isWhitespace c = false := by
  obtain ⟨tok, htok, hv⟩ := List.mem_filterMap.1 (List.mem_of_getLast? h)
  unfold splitWhitespace at htok
  obtain ⟨piece, hpiece, rfl⟩ := List.mem_map.1 htok
  have hword := Settings.of_mem_splitOnP (List.mem_filter.1 hpiece).1
  have htext := toList_of_dropLead hv
  rw [String.toList_ofList] at htext
  intro c hc
  exact hword c (by rw [htext]; exact List.mem_append_right _ hc)

end Words

/-! What the set-up leaves in the device mapper. -/

section Setup
variable {sys : System} {devs : Devices} {raw : String} {root : RootDevice} {cfg : VerityConfig}
  {n : UInt64}

/-- What the set-up has come to. -/
def Reached (sys : System) (devs : Devices) (cfg : VerityConfig) (after : Devices) : Prop :=
  (∃ n, GetsToTable sys devs cfg n ∧
    after (newDmIoctl cfg.dmName).name = some { inactive := some [verityTarget cfg n] }) ∨
  (∀ n, ¬GetsToTable sys devs cfg n) ∧ after (newDmIoctl cfg.dmName).name = some {}

theorem put_self (d : Device) (nm : List UInt8) : put devs nm d nm = some d :=
  Function.update_self _ _ _

/-- A new device takes a table. -/
theorem tableLoad_new (hname : (newDmIoctl cfg.dmName).name ≠ []) :
    kernel dmTableLoadCmd
        { newDmIoctl cfg.dmName with area := .targets [verityTarget cfg n] }
        (put devs (newDmIoctl cfg.dmName).name {}) =
      .ok (put (put devs (newDmIoctl cfg.dmName).name {}) (newDmIoctl cfg.dmName).name
        { inactive := some [verityTarget cfg n] }) := by
  have hfind : find (put devs (newDmIoctl cfg.dmName).name {}) (newDmIoctl cfg.dmName).name =
      .ok {} :=
    find_eq_ok.2 ⟨hname, put_self {} _⟩
  show (do
    let d ← find (put devs (newDmIoctl cfg.dmName).name {}) (newDmIoctl cfg.dmName).name
    return put _ _ { d with inactive := some [verityTarget cfg n] }) = _
  rw [hfind]
  rfl

theorem triple_reached (h : Creates sys devs cfg) :
    Triple (· = devs) (setupVerity sys cfg) (fun _ _ => False) fun _ t =>
      Reached sys devs cfg t := by
  obtain ⟨hdir, hopen, hversion, hcreate, hname, hnone⟩ := h
  have hcreates : Creates sys devs cfg := ⟨hdir, hopen, hversion, hcreate, hname, hnone⟩
  unfold setupVerity
  refine triple_bind (triple_mapErr_never (triple_answer_ok hdir)) fun _ => ?_
  refine triple_bind (triple_mapErr_never (triple_answer_ok hopen)) fun _ => ?_
  refine triple_bind (triple_mapErr_never (triple_ioctl_accepted ⟨hversion, rfl⟩)) fun _ => ?_
  have hacc : Accepts sys dmDevCreateCmd (newDmIoctl cfg.dmName) devs
      (put devs (newDmIoctl cfg.dmName).name {}) :=
    ⟨hcreate, devCreate_eq_ok.mpr ⟨hname, hnone, rfl⟩⟩
  refine triple_bind (triple_mapErr_never (triple_ioctl_accepted hacc)) fun _ => ?_
  -- the device is there, without a table
  refine triple_bind (triple_answer
    (fun n t ht hn => (⟨ht, hn⟩ : t = put devs (newDmIoctl cfg.dmName).name {} ∧
      sys.sectors cfg.dataDevice = .ok n)) fun e t ht he => ?_) fun n => ?_
  · refine .inr ⟨fun n hn => ?_, by rw [ht]; exact put_self {} _⟩
    cases he.symm.trans hn.2.1
  refine triple_bind (triple_mapErr (triple_ioctl (Q := Reached sys devs cfg)
    (E := Reached sys devs cfg) ?_ ?_) fun _ _ ht => ht) fun _ => ?_
  · rintro s t ⟨rfl, hn⟩ ht
    refine .inl ⟨n, ⟨hcreates, hn, ht.1⟩, ?_⟩
    rw [← Except.ok.inj ((tableLoad_new hname.1).symm.trans ht.2)]
    exact put_self _ _
  · rintro s ⟨rfl, hn⟩ hrefused
    refine .inr ⟨fun n' hn' => ?_, put_self {} _⟩
    exact hrefused _ ⟨hn'.2.2, tableLoad_new hname.1⟩
  -- the last command is the one that wants a new name
  refine triple_bind (Q := fun _ _ => False) (triple_mapErr (triple_ioctl
    (fun s t _ ht => not_accepts_suspend rfl ht) fun _ hs _ => hs) fun _ _ hs => hs)
    fun _ _ hf => hf.elim

theorem outcome_setupVerityDevice_none (h : config raw root = none) :
    (outcome (setupVerityDevice sys raw root) devs).2 = devs := by
  unfold setupVerityDevice
  unfold config at h
  cases hparse : parseVerityCmdline raw with
  | none => rfl
  | some r =>
    cases r with
    | error e => rfl
    | ok cfg =>
      rw [hparse] at h
      cases h

theorem setupVerityDevice_some (h : config raw root = some cfg) :
    setupVerityDevice sys raw root = setupVerity sys cfg := by
  unfold setupVerityDevice
  unfold config at h
  cases hparse : parseVerityCmdline raw with
  | none =>
    rw [hparse] at h
    cases h
  | some r =>
    rw [hparse] at h
    cases r with
    | error e => cases h
    | ok cfg' =>
      cases h
      rfl

theorem exists_of_config (h : config raw root = some cfg) :
    ∃ r, parseVerityCmdline raw = some (.ok r) ∧ substituteRoot root r = cfg := by
  unfold config at h
  cases hparse : parseVerityCmdline raw with
  | none =>
    rw [hparse] at h
    cases h
  | some r =>
    rw [hparse] at h
    cases r with
    | error e => cases h
    | ok r => exact ⟨r, rfl, Option.some.inj h⟩

theorem dmName_of_config (h : config raw root = some cfg) : cfg.dmName = "zainium-verity" := by
  obtain ⟨r, hr, rfl⟩ := exists_of_config h
  obtain ⟨data, -, -, -, -, hname⟩ := parse_ok hr
  unfold substituteRoot
  split <;> exact hname

theorem loads_iff {t : Target} : Loads sys devs raw root t ↔
    ∃ cfg n, config raw root = some cfg ∧ GetsToTable sys devs cfg n ∧ t = verityTarget cfg n := by
  unfold Loads
  cases hconfig : config raw root with
  | none =>
    rw [outcome_setupVerityDevice_none hconfig]
    constructor
    · rintro ⟨hnone, d, hd, -⟩
      cases hnone.symm.trans hd
    · rintro ⟨cfg, n, hcfg, -⟩
      cases hcfg
  | some cfg =>
    have hname : (newDmIoctl cfg.dmName).name = verityName := by
      rw [dmName_of_config hconfig]
      rfl
    rw [setupVerityDevice_some hconfig]
    by_cases hcreates : Creates sys devs cfg
    · have hnone : devs verityName = none := by
        rw [← hname]
        exact hcreates.2.2.2.2.2
      have hreached : Reached sys devs cfg (outcome (setupVerity sys cfg) devs).2 := by
        cases hout : outcome (setupVerity sys cfg) devs with
        | mk r after =>
          cases r with
          | ok path => exact ((triple_reached hcreates).ok rfl hout).elim
          | error e => exact (triple_reached hcreates).error rfl hout
      unfold Reached at hreached
      rw [hname] at hreached
      obtain ⟨n, hgets, hafter⟩ | ⟨hnever, hafter⟩ := hreached
      · rw [hafter]
        constructor
        · rintro ⟨-, d, hd, ht⟩
          cases hd
          cases ht
          exact ⟨cfg, n, rfl, hgets, rfl⟩
        · rintro ⟨_, n', hcfg, hgets', rfl⟩
          cases hcfg
          cases hgets.2.1.symm.trans hgets'.2.1
          exact ⟨hnone, _, rfl, rfl⟩
      · rw [hafter]
        constructor
        · rintro ⟨-, d, hd, ht⟩
          cases hd
          cases ht
        · rintro ⟨_, n', hcfg, hgets', -⟩
          cases hcfg
          exact absurd hgets' (hnever n')
    · have hafter : (outcome (setupVerity sys cfg) devs).2 = devs := by
        cases hout : outcome (setupVerity sys cfg) devs with
        | mk r after =>
          cases r with
          | ok path => exact (triple_setupVerity_or.ok rfl hout).elim
          | error e => exact (triple_setupVerity_or.error rfl hout).resolve_right hcreates
      rw [hafter]
      constructor
      · rintro ⟨hnone, d, hd, -⟩
        cases hnone.symm.trans hd
      · rintro ⟨_, n', hcfg, hgets', -⟩
        cases hcfg
        exact absurd hgets'.1 hcreates

end Setup

/-! The table, field by field. -/

section Table
variable {raw : String} {root : RootDevice} {cfg : VerityConfig} {n : UInt64}

theorem space_not_mem_digits (k : ℕ) : ' ' ∉ (toString k).toList := by
  intro hmem
  have hdigits : (toString k).toList = Nat.toDigits 10 k := Nat.toList_repr
  rw [hdigits] at hmem
  exact absurd (Nat.isDigit_of_mem_toDigits (by decide) (by decide) hmem) (by decide)

theorem space_not_mem_encodeHex (bytes : List UInt8) : ' ' ∉ (encodeHex bytes).toList := by
  have hdigit : ∀ k, hexDigit k ≠ ' ' := by
    intro k
    unfold hexDigit
    rw [List.getD_eq_getElem?_getD]
    cases hk : hexDigits[k]? with
    | none => decide
    | some d =>
      have hdigits : hexDigits.all (· != ' ') = true := by decide +kernel
      exact bne_iff_ne.1 (List.all_eq_true.1 hdigits d (List.mem_of_getElem? hk))
  unfold encodeHex
  rw [String.toList_ofList, List.mem_flatMap]
  rintro ⟨b, -, hmem⟩
  simp only [List.mem_cons, List.not_mem_nil, or_false] at hmem
  rcases hmem with hmem | hmem <;> exact hdigit _ hmem.symm

theorem split_params (hdata : ' ' ∉ cfg.dataDevice.toList) (hhash : ' ' ∉ cfg.hashDevice.toList) :
    split ' ' (verityTarget cfg n).params =
      ["1", cfg.dataDevice, cfg.hashDevice, "4096", "4096", toString (n / 8).toNat,
        toString (cfg.hashOffset / 8).toNat, "sha256", encodeHex cfg.roothash.toList, "-"] := by
  have hparams : (verityTarget cfg n).params.toList =
      [' '].intercalate (["1", cfg.dataDevice, cfg.hashDevice, "4096", "4096",
        toString (n / 8).toNat, toString (cfg.hashOffset / 8).toNat, "sha256",
        encodeHex cfg.roothash.toList, "-"].map String.toList) := by
    simp [verityTarget, List.intercalate]
  rw [split, hparams, splitChars_intercalate (by simp), List.map_map]
  · simp [Function.comp_def]
  · intro piece hpiece
    simp only [List.map_cons, List.map_nil, List.mem_cons, List.not_mem_nil, or_false] at hpiece
    rcases hpiece with rfl | rfl | rfl | rfl | rfl | rfl | rfl | rfl | rfl | rfl
    · decide
    · exact hdata
    · exact hhash
    · decide
    · decide
    · exact space_not_mem_digits _
    · exact space_not_mem_digits _
    · decide
    · exact space_not_mem_encodeHex _
    · decide

/-- What is printed is read back. -/
theorem number_toString (k : ℕ) : number (toString k) = some k := by
  have hdigits : (toString k).toList = Nat.toDigits 10 k := Nat.toList_repr
  have hplus : '+' ∉ Nat.toDigits 10 k := fun hmem =>
    absurd (Nat.isDigit_of_mem_toDigits (by decide) (by decide) hmem) (by decide)
  unfold number
  rw [hdigits]
  split
  · rename_i rest heq
    rw [heq] at hplus
    exact absurd List.mem_cons_self hplus
  · exact digitsToNat_toDigits k

theorem parseUnsigned_eq (bound : ℕ) (v : String) :
    parseUnsigned bound v = (number v).filter (· < bound) := rfl

theorem getD_filter_some (o bound : ℕ) :
    ((some o).filter (· < bound)).getD 0 = if o < bound then o else 0 := by
  rw [Option.filter_some]
  by_cases ho : o < bound
  · rw [if_pos (decide_eq_true ho), if_pos ho, Option.getD_some]
  · rw [if_neg (by rw [decide_eq_false ho]; decide), if_neg ho, Option.getD_none]

/-- The offset that is used: a number that does not fit, or none at all, counts as 0. -/
theorem toNat_offsetOf (v : String) :
    (offsetOf v).toNat = ((number v).filter (· < 2 ^ 64)).getD 0 := by
  unfold offsetOf
  rw [parseUnsigned_eq]
  cases hv : (number v).filter (· < 2 ^ 64) with
  | none => rfl
  | some o =>
    have ho : o < 2 ^ 64 := by
      have := (Option.filter_eq_some_iff.1 hv).2
      simpa using this
    exact UInt64.toNat_ofNat_of_lt' ho

theorem hashOffset_of_config (h : config raw root = some cfg) :
    cfg.hashOffset = (parameter raw hashOffsetKey).elim 0 offsetOf := by
  obtain ⟨r, hr, rfl⟩ := exists_of_config h
  obtain ⟨data, -, -, -, hoffset, -⟩ := parse_ok hr
  unfold substituteRoot
  split <;> exact hoffset

theorem space_not_mem {v : String} (h : ∀ c ∈ v.toList, isWhitespace c = false) :
    ' ' ∉ v.toList :=
  fun hmem => absurd (h ' ' hmem) (by decide)

theorem devices_of_config (h : config raw root = some cfg) :
    ' ' ∉ cfg.dataDevice.toList ∧ ' ' ∉ cfg.hashDevice.toList := by
  obtain ⟨r, hr, rfl⟩ := exists_of_config h
  obtain ⟨data, hdata, hdevice, hhash, -, -⟩ := parse_ok hr
  have hword := word_of_parameter hdata
  have hdata' : ' ' ∉ r.dataDevice.toList := by
    rw [hdevice]
    exact space_not_mem hword
  have hhash' : ' ' ∉ r.hashDevice.toList := by
    rw [hhash]
    cases hgiven : parameter raw hashKey with
    | none => exact space_not_mem hword
    | some hash => exact space_not_mem (word_of_parameter hgiven)
  unfold substituteRoot
  split
  · exact ⟨space_not_mem root.word, hhash'⟩
  · exact ⟨hdata', hhash'⟩

theorem fields_of_config (h : config raw root = some cfg) :
    tableField (verityTarget cfg n) 1 = some cfg.dataDevice ∧
      tableField (verityTarget cfg n) 2 = some cfg.hashDevice ∧
      numDataBlocks (verityTarget cfg n) = some (n.toNat / 8) ∧
      hashStartBlock (verityTarget cfg n) = some (cfg.hashOffset.toNat / 8) := by
  obtain ⟨hdata, hhash⟩ := devices_of_config h
  have hblocks : (n / 8).toNat = n.toNat / 8 := UInt64.toNat_div n 8
  have hstart : (cfg.hashOffset / 8).toNat = cfg.hashOffset.toNat / 8 := UInt64.toNat_div _ 8
  unfold numDataBlocks hashStartBlock tableField
  rw [split_params hdata hhash, ← hblocks, ← hstart]
  exact ⟨rfl, rfl, number_toString _, number_toString _⟩

/-- An eighth, in blocks of 4096, is the number itself only if that is 0. -/
theorem eq_zero_of_units {o bound : ℕ} (h : (if o < bound then o else 0) / 8 * 4096 = o) :
    o = 0 := by
  split at h
  · omega
  · rw [Nat.zero_div, Nat.zero_mul] at h
    exact h.symm

/-- The offset is in bytes, and is used as a number of sectors: only 0 is the same in both. -/
theorem offset_iff (h : config raw root = some cfg) :
    (∃ o b, givenOffset raw = some o ∧ hashStartBlock (verityTarget cfg n) = some b ∧
      b * 4096 = o) ↔ givenOffset raw = some 0 := by
  obtain ⟨-, -, -, hstart⟩ := fields_of_config (n := n) h
  rw [hstart, hashOffset_of_config h]
  unfold givenOffset
  cases hgiven : parameter raw hashOffsetKey with
  | none =>
    refine ⟨fun _ => rfl, fun _ => ⟨0, 0, rfl, rfl, rfl⟩⟩
  | some v =>
    dsimp only [Option.elim]
    rw [toNat_offsetOf]
    constructor
    · rintro ⟨o, b, ho, hb, hsame⟩
      rw [ho] at hb ⊢
      rw [← Option.some.inj hb] at hsame
      rw [getD_filter_some] at hsame
      exact congrArg some (eq_zero_of_units hsame)
    · intro ho
      rw [ho, getD_filter_some, ite_self]
      exact ⟨0, 0, rfl, rfl, rfl⟩

/-- What is expected of one table. -/
theorem table_iff (h : config raw root = some cfg) :
    ((∃ o b, givenOffset raw = some o ∧ hashStartBlock (verityTarget cfg n) = some b ∧
        b * 4096 = o) ∧
      (∃ k, numDataBlocks (verityTarget cfg n) = some k ∧ (verityTarget cfg n).length = 8 * k) ∧
      (tableField (verityTarget cfg n) 1 = tableField (verityTarget cfg n) 2 →
        ∃ k o, numDataBlocks (verityTarget cfg n) = some k ∧ givenOffset raw = some o ∧
          k * 4096 ≤ o)) ↔
    givenOffset raw = some 0 ∧ n.toNat % 8 = 0 ∧ (cfg.dataDevice = cfg.hashDevice → n = 0) := by
  obtain ⟨hdata, hhash, hblocks, -⟩ := fields_of_config (n := n) h
  have hlength : (verityTarget cfg n).length = n.toNat := rfl
  rw [offset_iff h, hdata, hhash, hblocks, hlength]
  refine and_congr_right fun hoffset => ?_
  rw [hoffset]
  constructor
  · rintro ⟨⟨k, hk, hlen⟩, hsame⟩
    have hk : n.toNat / 8 = k := Option.some.inj hk
    refine ⟨by omega, fun hdevice => ?_⟩
    obtain ⟨k', o, hk', ho, hle⟩ := hsame (congrArg some hdevice)
    have hk' : n.toNat / 8 = k' := Option.some.inj hk'
    have ho : 0 = o := Option.some.inj ho
    exact UInt64.toNat_inj.1 (show n.toNat = 0 by omega)
  · rintro ⟨hmod, hsame⟩
    refine ⟨⟨_, rfl, by omega⟩, fun hdevice => ⟨_, 0, rfl, rfl, ?_⟩⟩
    rw [hsame (Option.some.inj hdevice)]
    exact Nat.le_refl 0

end Table

section Law
variable {sys : System} {devs : Devices} {raw : String} {root : RootDevice}

theorem config_none (h : parameter raw dataKey = none) : config raw root = none := by
  cases hconfig : config raw root with
  | none => rfl
  | some cfg =>
    obtain ⟨r, hr, -⟩ := exists_of_config hconfig
    obtain ⟨data, hdata, -⟩ := parse_ok hr
    cases h.symm.trans hdata

/-- The tables are right just when there is nothing in them that has a unit. -/
theorem tableLaw_iff (sys : System) (devs : Devices) (raw : String) (root : RootDevice) :
    TableLaw sys devs raw root ↔ Plain sys devs raw root := by
  constructor
  · intro h
    constructor
    · intro cfg n hconfig hgets
      have hloads : Loads sys devs raw root (verityTarget cfg n) :=
        loads_iff.2 ⟨cfg, n, hconfig, hgets, rfl⟩
      exact (table_iff hconfig).1 ⟨h.offset _ hloads, h.length _ hloads, h.apart _ hloads⟩
    · intro hnone cfg n hconfig hgets
      have hloads := h.rootDevice hnone _ (loads_iff.2 ⟨cfg, n, hconfig, hgets, rfl⟩)
      obtain ⟨_, _, hconfig', -⟩ := loads_iff.1 hloads
      rw [config_none hnone] at hconfig'
      cases hconfig'
  · intro h
    have htable : ∀ t, Loads sys devs raw root t → ∃ cfg n, t = verityTarget cfg n ∧
        config raw root = some cfg ∧
        givenOffset raw = some 0 ∧ n.toNat % 8 = 0 ∧ (cfg.dataDevice = cfg.hashDevice → n = 0) := by
      intro t ht
      obtain ⟨cfg, n, hconfig, hgets, rfl⟩ := loads_iff.1 ht
      exact ⟨cfg, n, rfl, hconfig, h.table cfg n hconfig hgets⟩
    constructor
    · intro t ht
      obtain ⟨cfg, n, rfl, hconfig, hplain⟩ := htable t ht
      exact ((table_iff hconfig).2 hplain).1
    · intro t ht
      obtain ⟨cfg, n, rfl, hconfig, hplain⟩ := htable t ht
      exact ((table_iff hconfig).2 hplain).2.1
    · intro t ht
      obtain ⟨cfg, n, rfl, hconfig, hplain⟩ := htable t ht
      exact ((table_iff hconfig).2 hplain).2.2
    · intro hnone t ht
      obtain ⟨cfg, n, hconfig, hgets, -⟩ := loads_iff.1 ht
      exact absurd hgets (h.dataDevice hnone cfg n hconfig)

end Law

def sda2 : RootDevice where
  path := "/dev/sda2"
  word := by
    have hall : "/dev/sda2".toList.all (!isWhitespace ·) = true := by decide +kernel
    exact fun c hc => Bool.eq_false_iff.2 fun h => by simpa [h] using List.all_eq_true.1 hall c hc

/-- The hash tree is said to begin at the second block. -/
def offsetLine : String :=
  "rd.verity=1 rd.verity.data=/dev/sda2 rd.verity.hash=/dev/sda3 rd.verity.hashoffset=4096 " ++
    "rd.verity.roothash=0000000000000000000000000000000000000000000000000000000000000000"

theorem splitWhitespace_offsetLine : splitWhitespace offsetLine =
    ["rd.verity=1", "rd.verity.data=/dev/sda2", "rd.verity.hash=/dev/sda3",
      "rd.verity.hashoffset=4096",
      "rd.verity.roothash=0000000000000000000000000000000000000000000000000000000000000000"] := by
  unfold splitWhitespace offsetLine
  rw [String.toList_append, String.toList_ofList, String.toList_ofList]
  rfl

theorem config_offsetLine : config offsetLine sda2 ≠ none := by
  rw [config, parseVerityCmdline, verityParams, splitWhitespace_offsetLine]
  decide +kernel

theorem givenOffset_offsetLine : givenOffset offsetLine = some 4096 := by
  rw [givenOffset, parameter, splitWhitespace_offsetLine]
  decide +kernel

/-- The table has it begin at block 512. -/
theorem offset_is_not_bytes : ¬TableLaw idle (fun _ => none) offsetLine sda2 := by
  intro h
  cases hconfig : config offsetLine sda2 with
  | none => exact absurd hconfig config_offsetLine
  | some cfg =>
    have hname := dmName_of_config hconfig
    have hvalid : (newDmIoctl "zainium-verity").name ≠ [] ∧
        validName (newDmIoctl "zainium-verity").name := by decide
    have hgets : GetsToTable idle (fun _ => none) cfg 80 := by
      refine ⟨⟨rfl, rfl, rfl, rfl, ?_, rfl⟩, rfl, rfl⟩
      rw [hname]
      exact hvalid
    have hloads : Loads idle (fun _ => none) offsetLine sda2 (verityTarget cfg 80) :=
      loads_iff.2 ⟨cfg, 80, hconfig, hgets, rfl⟩
    have hzero := (offset_iff hconfig).1 (h.offset _ hloads)
    cases givenOffset_offsetLine.symm.trans hzero

end Quantra.Verity
