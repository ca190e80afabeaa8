import Quantra.Lib.Settings
import Quantra.Lib.Table
import Quantra.Lib.Utf8

/-! `udev.rs`: the block device nodes that the initramfs makes from what the kernel announces. -/
namespace Quantra.Ramfs

open Bytes Settings Text

structure Uevent where
  action : String
  subsystem : String
  devname : String
  devtype : String
  major : ℕ
  minor : ℕ
  deriving DecidableEq, Repr

def Uevent.default : Uevent := ⟨"", "", "", "", 0, 0⟩

/-- `strip_prefix` of a key and its `=`, and what is done with the rest. -/
def onKey (key s : String) (set : Uevent → String → Uevent) (ev : Uevent) : Uevent :=
  match dropLead (key ++ "=") s with
  | some v => set ev v
  | none => ev

def readField (ev : Uevent) (s : String) : Uevent :=
  onKey "MINOR" s (fun ev v => { ev with minor := (parseU32 v).getD 0 }) <|
  onKey "MAJOR" s (fun ev v => { ev with major := (parseU32 v).getD 0 }) <|
  onKey "DEVTYPE" s (fun ev v => { ev with devtype := v }) <|
  onKey "DEVNAME" s (fun ev v => { ev with devname := v }) <|
  onKey "SUBSYSTEM" s (fun ev v => { ev with subsystem := v }) <|
  onKey "ACTION" s (fun ev v => { ev with action := v }) ev

/-- What follows the header, cut at every zero byte; a field that is no text is an empty one. -/
def parseUevent (buf : List UInt8) : Option Uevent :=
  match buf.dropWhile (· ≠ 0) with
  | [] => none
  | _ :: rest =>
    let fields := (rest.splitOn 0).filter (· ≠ [])
    let ev := (fields.map fun field => (decode field).getD "").foldl readField .default
    if ev.action = "" ∨ ev.subsystem = "" ∨ ev.devname = "" then none else some ev

/-! The nodes in `/dev`. -/

structure Node where
  name : String
  major : ℕ
  minor : ℕ
  deriving DecidableEq, Repr

abbrev Dev := Table String Node Node.name

/-- The names under which `/dev` itself is found, and its parent. -/
def reserved (name : String) : Bool := name = "" ∨ name = "." ∨ name = ".."

/-- `Path::exists` under `/dev`. -/
def Dev.present (dev : Dev) (name : String) : Bool := reserved name || (dev.get? name).isSome

/-- `split('/').next_back()`. -/
def basename (devname : String) : String := ((split '/' devname).getLast?).getD devname

/-- `create_dev_node`; `refuses` says for which names the kernel makes no node at all. -/
def createDevNode (refuses : String → Bool) (ev : Uevent) (dev : Dev) : Dev × Bool :=
  let name := basename ev.devname
  if dev.present name then (dev, false)
  else if refuses name then (dev, false)
  else (dev.insert ⟨name, ev.major, ev.minor⟩, true)

/-- The nodes and how many of them were created. -/
structure Progress where
  dev : Dev
  created : ℕ

def Progress.create (refuses : String → Bool) (p : Progress) (ev : Uevent) : Progress :=
  match createDevNode refuses ev p.dev with
  | (dev, true) => ⟨dev, p.created + 1⟩
  | (dev, false) => ⟨dev, p.created⟩

/-- An entry of `/sys/class/block` and the content of its file `dev`. -/
structure SysBlock where
  name : String
  dev : Option String
  noSlash : '/' ∉ name.toList

/-- Loop, ram and zram devices are left out. -/
def SysBlock.skipped (b : SysBlock) : Bool :=
  (dropLead "loop" b.name).isSome ∨ (dropLead "ram" b.name).isSome ∨
    (dropLead "zram" b.name).isSome

/-- The numbers that the file gives as `MAJOR:MINOR`. -/
def devNumbers (content : String) : Option (ℕ × ℕ) :=
  match splitOnce ':' (trim content) with
  | none => none
  | some (maj, min) =>
    match parseU32 maj, parseU32 min with
    | some major, some minor => some (major, minor)
    | _, _ => none

def triggerExisting (refuses : String → Bool) (p : Progress) (b : SysBlock) : Progress :=
  if b.skipped then p
  else if p.dev.present b.name then p
  else match b.dev.bind devNumbers with
  | some (major, minor) => p.create refuses ⟨"add", "block", b.name, "disk", major, minor⟩
  | none => p

/-- `buf: vec![0u8; 8192]`: a longer message is cut off. -/
def ueventBufSize : ℕ := 8192

def isBlockAdd (ev : Uevent) : Bool := ev.action = "add" ∧ ev.subsystem = "block"

/-- A turn of the loop: a message, or none and a short sleep. -/
def processMessage (refuses : String → Bool) (p : Progress) (msg : Option (List UInt8)) : Progress :=
  match msg.bind fun bytes => parseUevent (bytes.take ueventBufSize) with
  | some ev => if isBlockAdd ev then p.create refuses ev else p
  | none => p

/-- `settle`: the devices in `sys` first, then what the turns bring until the time is over. -/
def settle (refuses : String → Bool) (netlink : Bool) (sys : List SysBlock)
    (turns : List (Option (List UInt8))) (dev : Dev) : Progress :=
  if netlink then
    turns.foldl (processMessage refuses) (sys.foldl (triggerExisting refuses) ⟨dev, 0⟩)
  else ⟨dev, 0⟩

/-- `wait_for_device` of `/dev/name` with the socket open: whether it is there in the end. -/
def waitForDevice (refuses : String → Bool) (name : String) :
    List (Option (List UInt8)) → Dev → Dev × Bool
  | [], dev => (dev, dev.present name)
  | turn :: turns, dev =>
    if dev.present name then (dev, true)
    else waitForDevice refuses name turns (processMessage refuses ⟨dev, 0⟩ turn).dev

/-! The fields of a message. -/

/-- A message of the kernel: a header, and words that are each ended by a zero byte. -/
def message (header : List UInt8) (fields : List (String × String)) : List UInt8 :=
  header ++ 0 :: (fields.map fun f => asBytes (word f.1 f.2)).flatMap (· ++ [0])

/-- What the message says of `key`. -/
def field (fields : List (String × String)) (key : String) : Option String :=
  last (fun f => if f.1 = key then some f.2 else none) fields

/-- What the message announces. -/
def announcement (fields : List (String × String)) : Uevent where
  action := (field fields "ACTION").getD ""
  subsystem := (field fields "SUBSYSTEM").getD ""
  devname := (field fields "DEVNAME").getD ""
  devtype := (field fields "DEVTYPE").getD ""
  major := ((field fields "MAJOR").bind parseU32).getD 0
  minor := ((field fields "MINOR").bind parseU32).getD 0

theorem onKey_eq {β : Type} (get : Uevent → β) (put : Uevent → β → Uevent) (g : String → β)
    (h : ∀ ev, put ev (get ev) = ev) (key s : String) (ev : Uevent) :
    onKey key s (fun ev v => put ev (g v)) ev =
      put ev (((dropLead (key ++ "=") s).map g).getD (get ev)) := by
  unfold onKey
  cases dropLead (key ++ "=") s with
  | some v => rfl
  | none => exact (h ev).symm

theorem readField_eq (ev : Uevent) (s : String) : readField ev s =
    { action := (dropLead ("ACTION" ++ "=") s).getD ev.action
      subsystem := (dropLead ("SUBSYSTEM" ++ "=") s).getD ev.subsystem
      devname := (dropLead ("DEVNAME" ++ "=") s).getD ev.devname
      devtype := (dropLead ("DEVTYPE" ++ "=") s).getD ev.devtype
      major := ((dropLead ("MAJOR" ++ "=") s).map fun v => (parseU32 v).getD 0).getD ev.major
      minor := ((dropLead ("MINOR" ++ "=") s).map fun v => (parseU32 v).getD 0).getD ev.minor } := by
  have haction := onKey_eq Uevent.action (fun ev v => { ev with action := v }) id (fun _ => rfl)
  have hsubsystem := onKey_eq Uevent.subsystem (fun ev v => { ev with subsystem := v }) id
    (fun _ => rfl)
  have hdevname := onKey_eq Uevent.devname (fun ev v => { ev with devname := v }) id (fun _ => rfl)
  have hdevtype := onKey_eq Uevent.devtype (fun ev v => { ev with devtype := v }) id (fun _ => rfl)
  have hmajor := onKey_eq Uevent.major (fun ev n => { ev with major := n })
    (fun v => (parseU32 v).getD 0) (fun _ => rfl)
  have hminor := onKey_eq Uevent.minor (fun ev n => { ev with minor := n })
    (fun v => (parseU32 v).getD 0) (fun _ => rfl)
  simp only [Option.map_id_fun, id] at haction hsubsystem hdevname hdevtype
  rw [readField, haction, hsubsystem, hdevname, hdevtype, hmajor, hminor]

theorem foldl_readField (ws : List String) : ws.foldl readField .default =
    { action := (last (dropLead ("ACTION" ++ "=")) ws).getD ""
      subsystem := (last (dropLead ("SUBSYSTEM" ++ "=")) ws).getD ""
      devname := (last (dropLead ("DEVNAME" ++ "=")) ws).getD ""
      devtype := (last (dropLead ("DEVTYPE" ++ "=")) ws).getD ""
      major := ((last (dropLead ("MAJOR" ++ "=")) ws).bind parseU32).getD 0
      minor := ((last (dropLead ("MINOR" ++ "=")) ws).bind parseU32).getD 0 } := by
  have hnumber (o : Option String) :
      (o.map fun v => (parseU32 v).getD 0).getD 0 = (o.bind parseU32).getD 0 := by
    cases o <;> rfl
  have haction := foldl_last (fun ev w => congrArg Uevent.action (readField_eq ev w)) ws .default
  have hsubsystem := foldl_last (fun ev w => congrArg Uevent.subsystem (readField_eq ev w)) ws .default
  have hdevname := foldl_last (fun ev w => congrArg Uevent.devname (readField_eq ev w)) ws .default
  have hdevtype := foldl_last (fun ev w => congrArg Uevent.devtype (readField_eq ev w)) ws .default
  have hmajor := foldl_last (fun ev w => congrArg Uevent.major (readField_eq ev w)) ws .default
  have hminor := foldl_last (fun ev w => congrArg Uevent.minor (readField_eq ev w)) ws .default
  rw [last_map] at hmajor hminor
  cases hev : ws.foldl readField .default with
  | mk action subsystem devname devtype major minor =>
    rw [hev] at haction hsubsystem hdevname hdevtype hmajor hminor
    simp only [Uevent.default, hnumber] at haction hsubsystem hdevname hdevtype hmajor hminor
    rw [haction, hsubsystem, hdevname, hdevtype, hmajor, hminor]

/-- What the words of a message say of a key. -/
theorem last_word {key : String} (hkey : '=' ∉ key.toList) {fields : List (String × String)}
    (h : ∀ f ∈ fields, '=' ∉ f.1.toList) :
    last (dropLead (key ++ "=")) (fields.map fun f => word f.1 f.2) = field fields key := by
  unfold field last
  rw [List.filterMap_map]
  apply congrArg List.getLast?
  apply List.filterMap_congr
  intro f hf
  exact dropLead_word hkey (h f hf) f.2

theorem asBytes_word_ne_nil (key v : String) : asBytes (word key v) ≠ [] := by
  apply asBytes_ne_nil
  intro hempty
  have hmem : '=' ∈ (word key v).toList := by
    rw [toList_word]
    exact List.mem_append_right _ List.mem_cons_self
  rw [hempty] at hmem
  cases hmem

/-- Whatever the header is, and whatever else stands between the fields: the last field of each key
is read. -/
theorem parseUevent_message {header : List UInt8} {fields : List (String × String)}
    (hheader : 0 ∉ header) (hkey : ∀ f ∈ fields, '=' ∉ f.1.toList)
    (hnul : ∀ f ∈ fields, '\x00' ∉ (word f.1 f.2).toList) :
    parseUevent (message header fields) =
      if (announcement fields).action = "" ∨ (announcement fields).subsystem = "" ∨
        (announcement fields).devname = "" then none
      else some (announcement fields) := by
  have hdrop : (message header fields).dropWhile (· ≠ 0) =
      0 :: (fields.map fun f => asBytes (word f.1 f.2)).flatMap (· ++ [0]) := by
    unfold message
    rw [List.dropWhile_append_of_pos, List.dropWhile_cons_of_neg (by decide)]
    intro b hb
    exact decide_eq_true fun heq => hheader (heq ▸ hb)
  have hpieces : ∀ p ∈ fields.map (fun f => asBytes (word f.1 f.2)), (0 : UInt8) ∉ p := by
    intro p hp hzero
    obtain ⟨f, hf, rfl⟩ := List.mem_map.1 hp
    exact hnul f hf ((mem_asBytes_iff (by decide)).1 hzero)
  have hkept : (fields.map (fun f : String × String => asBytes (word f.1 f.2)) ++ [[]]).filter
      (· ≠ []) = fields.map fun f => asBytes (word f.1 f.2) := by
    rw [List.filter_append, List.filter_eq_self.2, List.filter_cons_of_neg (by decide),
      List.filter_nil, List.append_nil]
    intro p hp
    obtain ⟨f, -, rfl⟩ := List.mem_map.1 hp
    exact decide_eq_true (asBytes_word_ne_nil f.1 f.2)
  have htexts : (fields.map fun f => asBytes (word f.1 f.2)).map (fun p => (decode p).getD "") =
      fields.map fun f => word f.1 f.2 := by
    rw [List.map_map]
    apply List.map_congr_left
    intro f _
    rw [Function.comp_apply, decode_asBytes, Option.getD_some]
  have hread : (fields.map fun f => word f.1 f.2).foldl readField .default =
      announcement fields := by
    rw [foldl_readField]
    iterate 6 rw [last_word (by decide) hkey]
    rfl
  unfold parseUevent
  rw [hdrop]
  simp only
  rw [splitOn_terminated hpieces, hkept, htexts, hread]

def someFields : List (String × String) :=
  [("ACTION", "add"), ("DEVPATH", "/block/sda"), ("SUBSYSTEM", "block"), ("MAJOR", "8"),
    ("MINOR", "1"), ("DEVNAME", "sda1"), ("DEVTYPE", "partition")]

theorem parseUevent_message_partition :
    parseUevent (message (asBytes "add@/block/sda") someFields) =
      some ⟨"add", "block", "sda1", "partition", 8, 1⟩ := by
  have hheader : (0 : UInt8) ∉ asBytes "add@/block/sda" := fun hzero =>
    absurd ((mem_asBytes_iff (c := '\x00') (by decide)).1 hzero) (by decide)
  exact parseUevent_message hheader (by decide) (by decide)

/-! Which nodes there are in the end. -/

/-- The node that an event asks for. -/
def nodeOf (refuses : String → Bool) (ev : Uevent) : Option Node :=
  let name := basename ev.devname
  if reserved name || refuses name then none else some ⟨name, ev.major, ev.minor⟩

def sysNode (refuses : String → Bool) (b : SysBlock) : Option Node :=
  if b.skipped then none
  else (b.dev.bind devNumbers).bind fun n =>
    nodeOf refuses ⟨"add", "block", b.name, "disk", n.1, n.2⟩

def liveNode (refuses : String → Bool) (turn : Option (List UInt8)) : Option Node :=
  ((turn.bind fun bytes => parseUevent (bytes.take ueventBufSize)).filter isBlockAdd).bind
    (nodeOf refuses)

/-- The nodes in the order in which they are asked for. -/
def announced (refuses : String → Bool) (sys : List SysBlock) (turns : List (Option (List UInt8))) :
    List Node :=
  sys.filterMap (sysNode refuses) ++ turns.filterMap (liveNode refuses)

/-- The progress where a node is asked for, or none. -/
def Progress.take (p : Progress) (node : Option Node) : Progress :=
  match node with
  | none => p
  | some n => if (p.dev.get? n.name).isSome then p else ⟨p.dev.insert n, p.created + 1⟩

section Settling
variable {refuses : String → Bool} {sys : List SysBlock} {turns : List (Option (List UInt8))}
  {dev : Dev} {p : Progress} {name : String}

theorem basename_of_noSlash (h : '/' ∉ name.toList) : basename name = name := by
  rw [basename, split, splitChars_of_not_mem h, List.map_singleton, List.getLast?_singleton,
    Option.getD_some, String.ofList_toList]

theorem create_eq (ev : Uevent) : p.create refuses ev = p.take (nodeOf refuses ev) := by
  unfold Progress.create createDevNode nodeOf Dev.present Progress.take
  dsimp only
  cases reserved (basename ev.devname) with
  | true => rfl
  | false =>
    cases refuses (basename ev.devname) with
    | true =>
      cases (p.dev.get? (basename ev.devname)).isSome <;> rfl
    | false =>
      simp only [Bool.false_or, Bool.false_eq_true, if_false]
      cases (p.dev.get? (basename ev.devname)).isSome <;> rfl

theorem take_of_present {n : Node} (h : p.dev.present n.name) (hn : reserved n.name = false) :
    p.take (some n) = p := by
  unfold Dev.present at h
  rw [hn, Bool.false_or] at h
  exact if_pos h

theorem triggerExisting_eq (b : SysBlock) :
    triggerExisting refuses p b = p.take (sysNode refuses b) := by
  unfold triggerExisting sysNode
  cases b.skipped with
  | true => rfl
  | false =>
    rw [if_neg Bool.false_ne_true, if_neg Bool.false_ne_true]
    cases hnum : b.dev.bind devNumbers with
    | none =>
      split <;> rfl
    | some n =>
      have hname : basename b.name = b.name := basename_of_noSlash b.noSlash
      rw [Option.bind_some]
      split
      · rename_i hpresent
        unfold nodeOf
        dsimp only
        rw [hname]
        split
        · rfl
        · rename_i hfree
          rw [Bool.not_eq_true, Bool.or_eq_false_iff] at hfree
          exact (take_of_present hpresent hfree.1).symm
      · exact create_eq _

theorem processMessage_eq (turn : Option (List UInt8)) :
    processMessage refuses p turn = p.take (liveNode refuses turn) := by
  unfold processMessage liveNode
  cases turn.bind fun bytes => parseUevent (bytes.take ueventBufSize) with
  | none => rfl
  | some ev =>
    simp only [Option.filter_some]
    cases isBlockAdd ev with
    | true => exact create_eq ev
    | false => rfl

/-- One step: a node is taken where its name is new, and counted. -/
theorem take_spec (node : Option Node) :
    (p.take node).dev = node.toList.foldl Table.insertNew p.dev ∧
      (p.take node).created + p.dev.rows.length = p.created + (p.take node).dev.rows.length := by
  cases node with
  | none => exact ⟨rfl, rfl⟩
  | some n =>
    unfold Progress.take
    rw [Option.toList_some, List.foldl_cons, List.foldl_nil, Table.insertNew]
    dsimp only
    split
    · exact ⟨rfl, rfl⟩
    · rename_i hnew
      have hlen := Table.length_insert_of_new (Option.not_isSome_iff_eq_none.1 hnew)
      constructor
      · rfl
      · show p.created + 1 + p.dev.rows.length = p.created + (p.dev.insert n).rows.length
        omega

/-- A whole loop of such steps. -/
theorem foldl_take {ω : Type} {step : Progress → ω → Progress} {f : ω → Option Node}
    (hstep : ∀ p w, step p w = p.take (f w)) (ws : List ω) :
    (ws.foldl step p).dev = (ws.filterMap f).foldl Table.insertNew p.dev ∧
      (ws.foldl step p).created + p.dev.rows.length =
        p.created + (ws.foldl step p).dev.rows.length := by
  induction ws generalizing p with
  | nil => exact ⟨rfl, rfl⟩
  | cons w ws ih =>
    obtain ⟨hdev, hcount⟩ := ih (p := step p w)
    rw [hstep] at hdev hcount
    obtain ⟨hone, hcountOne⟩ := take_spec (p := p) (f w)
    rw [List.foldl_cons, hstep]
    constructor
    · rw [hdev, hone]
      cases hw : f w with
      | none => rw [List.filterMap_cons_none hw]; rfl
      | some n => rw [List.filterMap_cons_some hw]; rfl
    · omega

/-- The nodes after `settle` with its netlink socket open: those that were there, each as it was, and of
those that are asked for under a new name the first; what is returned is how many there are more. A
name for which `mknod` is refused is not asked for. -/
theorem settle_spec (refuses : String → Bool) (sys : List SysBlock)
    (turns : List (Option (List UInt8))) (dev : Dev) :
    (∀ name, (settle refuses true sys turns dev).dev.get? name =
        (dev.get? name).or ((announced refuses sys turns).find? fun n => n.name = name)) ∧
      (settle refuses true sys turns dev).created + dev.rows.length =
        (settle refuses true sys turns dev).dev.rows.length := by
  have hexisting (p : Progress) (b : SysBlock) :
      triggerExisting refuses p b = p.take (sysNode refuses b) := triggerExisting_eq b
  have hmessage (p : Progress) (t : Option (List UInt8)) :
      processMessage refuses p t = p.take (liveNode refuses t) := processMessage_eq t
  obtain ⟨hsys, hsysCount⟩ := foldl_take (p := ⟨dev, 0⟩) hexisting sys
  obtain ⟨hlive, hliveCount⟩ :=
    foldl_take (p := sys.foldl (triggerExisting refuses) ⟨dev, 0⟩) hmessage turns
  unfold settle
  rw [if_pos rfl]
  constructor
  · intro name
    rw [hlive, hsys, ← List.foldl_append, Table.get?_foldl_insertNew]
    rfl
  · dsimp only at hsysCount hliveCount
    omega

theorem present_take (node : Option Node) (hnode : ∀ n, node = some n → reserved n.name = false)
    (name : String) :
    (p.take node).dev.present name = (p.dev.present name || node.any fun n => n.name = name) := by
  obtain ⟨hdev, -⟩ := take_spec (p := p) node
  rw [hdev]
  unfold Dev.present
  cases node with
  | none => simp only [Option.toList_none, List.foldl_nil, Option.any_none, Bool.or_false]
  | some n =>
    rw [Option.toList_some, List.foldl_cons, List.foldl_nil, Table.get?_insertNew,
      Option.any_some, Bool.or_assoc]
    by_cases hname : n.name = name
    · simp only [hname, if_true, Option.isSome_or, Option.isSome_some, decide_true]
    · simp only [hname, if_false, Option.or_none, decide_false, Bool.or_false]

theorem reserved_of_nodeOf {ev : Uevent} {n : Node} (h : nodeOf refuses ev = some n) :
    reserved n.name = false := by
  unfold nodeOf at h
  dsimp only at h
  split at h
  · cases h
  · rename_i hfree
    rw [Bool.not_eq_true, Bool.or_eq_false_iff] at hfree
    exact Option.some.inj h ▸ hfree.1

theorem reserved_of_liveNode {turn : Option (List UInt8)} {n : Node}
    (h : liveNode refuses turn = some n) : reserved n.name = false := by
  obtain ⟨ev, -, hev⟩ := Option.bind_eq_some_iff.1 h
  exact reserved_of_nodeOf hev

/-- The device is found if it is there or a turn asks for it, wherever among the turns that is. -/
theorem waitForDevice_snd (refuses : String → Bool) (name : String)
    (turns : List (Option (List UInt8))) (dev : Dev) :
    (waitForDevice refuses name turns dev).2 =
      (dev.present name ||
        turns.any fun turn => (liveNode refuses turn).any fun n => n.name = name) := by
  induction turns generalizing dev with
  | nil => exact (Bool.or_false _).symm
  | cons turn turns ih =>
    unfold waitForDevice
    cases hpresent : dev.present name with
    | true => rfl
    | false =>
      have hstep := present_take (p := ⟨dev, 0⟩) (liveNode refuses turn)
        (fun n => reserved_of_liveNode) name
      rw [if_neg Bool.false_ne_true, ih, processMessage_eq, hstep]
      dsimp only
      rw [hpresent, List.any_cons, Bool.false_or, Bool.false_or]

end Settling

end Quantra.Ramfs
