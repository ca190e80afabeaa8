import Quantra.Lib.Text

/-! `hostname_timedate_locale.rs`: the setters and properties of hostname1 and locale1, and the files
that they keep their values in. -/
namespace Quantra.HostnameLocale
open Text

/-- A value of a call or of a property. An element of an array is what `as_str` gives for it. -/
inductive Value
  | string (s : String)
  | boolean (b : Bool)
  | array (elements : List (Option String))
  | other
  deriving DecidableEq, Repr

inductive MethodError
  | invalidArgs (msg : String)
  | failed (msg : String)
  | unknownMethod (member interface : String)
  deriving DecidableEq, Repr

/-- The files of `/overlayer/syshub/etc`, which are texts if they are there. -/
structure Etc where
  hostname : Option String := none
  machineInfo : Option String := none
  localeConf : Option String := none
  vconsoleConf : Option String := none
  deriving DecidableEq, Repr

def readTrim (file : Option String) : Option String := (file.map trim).filter (· ≠ "")

/-- `args.first().and_then(|v| v.as_str())`. -/
def stringArg (what : String) : List Value → Except MethodError String
  | .string s :: _ => .ok s
  | _ => .error (.invalidArgs ("expected " ++ what ++ " string"))

def localesArg : List Value → Except MethodError (List String)
  | .array elements :: _ => .ok (elements.filterMap id)
  | _ => .error (.invalidArgs "expected array of strings")

section Calls
variable (wrote : Except String Unit) (member : String) (args : List Value) (etc : Etc)

/-- `wrote` is what becomes of `write_etc`. -/
def hostname1Call : Except MethodError Etc :=
  if member = "SetHostname" ∨ member = "SetStaticHostname" then do
    let name ← stringArg "hostname" args
    wrote.mapError .failed
    .ok { etc with hostname := some (name ++ "\n") }
  else if member = "SetPrettyHostname" then do
    let name ← stringArg "hostname" args
    wrote.mapError .failed
    .ok { etc with machineInfo := some ("PRETTY_HOSTNAME=\"" ++ name ++ "\"\n") }
  else .error (.unknownMethod member "org.freedesktop.hostname1")

def locale1Call : Except MethodError Etc :=
  if member = "SetLocale" then do
    let locales ← localesArg args
    wrote.mapError .failed
    .ok { etc with localeConf := some (String.join (locales.map (· ++ "\n"))) }
  else if member = "SetVConsoleKeyboard" then do
    let keymap ← stringArg "keymap" args
    wrote.mapError .failed
    .ok { etc with vconsoleConf := some ("KEYMAP=" ++ keymap ++ "\n") }
  else .error (.unknownMethod member "org.freedesktop.locale1")

end Calls

def prettyHostname (content : String) : String :=
  (((lines content).findSome? (dropLead "PRETTY_HOSTNAME=")).map (trimMatches (· = '"'))).getD ""

def hostname1Property (etc : Etc) (name : String) : Option Value :=
  if name = "Hostname" ∨ name = "StaticHostname" then
    some (.string ((readTrim etc.hostname).getD "localhost"))
  else if name = "PrettyHostname" then
    etc.machineInfo.map fun content => .string (prettyHostname content)
  else if name = "IconName" then some (.string "computer")
  else if name = "Chassis" then some (.string "desktop")
  else none

def localeEntries (content : String) : List String :=
  ((lines content).filter fun l => trim l ≠ "").map trim

def locales (content : String) : List String :=
  let entries := localeEntries content
  if entries.isEmpty then ["LANG=C.UTF-8"] else entries

def vconsoleKeymap (content : String) : String :=
  ((lines content).findSome? (dropLead "KEYMAP=")).getD "us"

def locale1Property (etc : Etc) (name : String) : Option Value :=
  if name = "Locale" then some (.array ((locales (etc.localeConf.getD "")).map some))
  else if name = "VConsoleKeymap" then some (.string (vconsoleKeymap (etc.vconsoleConf.getD "")))
  else none

/-! What the setters are to bring about. -/

/-- A value that is set. -/
inductive Setting
  | staticHostname (s : String)
  | prettyHostname (s : String)
  | locale (l : List String)
  | vconsoleKeymap (s : String)
  deriving DecidableEq, Repr

/-- The line gives a value to a key that is not `key`. -/
def setsOther (key line : String) : Bool :=
  match splitOnce '=' line with
  | some (k, _) => k ≠ "" && k.toList.all (fun c => c.isAlphanum || c = '_') && k ≠ key
  | none => false

def otherLines (key : String) (file : Option String) : List String :=
  (lines (file.getD "")).filter (setsOther key)

namespace Setting

/-- The call that sets it; further arguments follow. -/
def call (wrote : Except String Unit) (rest : List Value) (etc : Etc) :
    Setting → Except MethodError Etc
  | staticHostname s => hostname1Call wrote "SetStaticHostname" (.string s :: rest) etc
  | prettyHostname s => hostname1Call wrote "SetPrettyHostname" (.string s :: rest) etc
  | locale l => locale1Call wrote "SetLocale" (.array (l.map some) :: rest) etc
  | vconsoleKeymap s => locale1Call wrote "SetVConsoleKeyboard" (.string s :: rest) etc

/-- The property that shows it. -/
def property (etc : Etc) : Setting → Option Value
  | staticHostname _ => hostname1Property etc "StaticHostname"
  | prettyHostname _ => hostname1Property etc "PrettyHostname"
  | locale _ => locale1Property etc "Locale"
  | vconsoleKeymap _ => locale1Property etc "VConsoleKeymap"

def value : Setting → Value
  | staticHostname s | prettyHostname s | vconsoleKeymap s => .string s
  | locale l => .array (l.map some)

/-- What else the file of the setting says, where it is a file of keys and values. -/
def others (etc : Etc) : Setting → List String
  | prettyHostname _ => otherLines "PRETTY_HOSTNAME" etc.machineInfo
  | vconsoleKeymap _ => otherLines "KEYMAP" etc.vconsoleConf
  | _ => []

/-- What a call that succeeds has set is read back, and nothing else has changed in the file. -/
def Law (rest : List Value) (etc : Etc) (x : Setting) : Prop :=
  ∀ wrote etc', x.call wrote rest etc = .ok etc' →
    x.property etc' = some x.value ∧ x.others etc' = x.others etc

/-- The value comes through its file, which says nothing else. -/
def Fits (etc : Etc) : Setting → Prop
  | staticHostname s => trim s = s ∧ s ≠ ""
  | prettyHostname s => ('\n' ∉ s.toList ∧ trimMatches (· = '"') s = s) ∧
      otherLines "PRETTY_HOSTNAME" etc.machineInfo = []
  | locale l => l ≠ [] ∧ ∀ s ∈ l, '\n' ∉ s.toList ∧ trim s = s ∧ s ≠ ""
  | vconsoleKeymap s => ('\n' ∉ s.toList ∧ s.toList.getLast? ≠ some '\r') ∧
      otherLines "KEYMAP" etc.vconsoleConf = []

end Setting

variable {s : String} {pre v cs : List Char} {key content : String} {etc etc' : Etc}
  {rest : List Value} {wrote : Except String Unit} {x : Setting}

/-! A file that holds one key. -/

/-- What is found behind the key never has a line feed. -/
theorem newline_not_mem_found {key default : String} (h : '\n' ∉ default.toList) :
    '\n' ∉ (((lines content).findSome? (dropLead key)).getD default).toList := by
  cases hfound : (lines content).findSome? (dropLead key) with
  | none => exact h
  | some value =>
    obtain ⟨l, hl, hvalue⟩ := List.exists_of_findSome?_eq_some hfound
    have hline := newline_not_mem_of_mem_lines hl
    rw [toList_of_dropLead hvalue, List.mem_append, not_or] at hline
    exact hline.2

theorem lines_keyLine (hkey : '\n' ∉ key.toList) (hcr : key.toList.getLast? ≠ some '\r')
    (hv : '\n' ∉ v) (hcontent : content.toList = key.toList ++ v ++ ['\n']) :
    lines content = [String.ofList (key.toList ++ dropCarriageReturn v)] := by
  have hline : '\n' ∉ key.toList ++ v := by
    rw [List.mem_append, not_or]
    exact ⟨hkey, hv⟩
  rw [← String.ofList_toList (s := content), hcontent, lines_single hline,
    dropCarriageReturn_append hcr]

theorem found_keyLine (hkey : '\n' ∉ key.toList) (hcr : key.toList.getLast? ≠ some '\r')
    (hv : '\n' ∉ v) (hcontent : content.toList = key.toList ++ v ++ ['\n']) :
    (lines content).findSome? (dropLead key) = some (String.ofList (dropCarriageReturn v)) := by
  rw [lines_keyLine hkey hcr hv hcontent, List.findSome?_singleton, dropLead_append]

/-- The line of a key says nothing about another. -/
theorem otherLines_keyLine {name : String} (hname : '=' ∉ name.toList)
    (hkey : key = name ++ "=") (hnl : '\n' ∉ key.toList) (hv : '\n' ∉ v)
    (hcontent : content.toList = key.toList ++ v ++ ['\n']) :
    otherLines name (some content) = [] := by
  have hcs : key.toList = name.toList ++ ['='] := by
    rw [hkey, String.toList_append]
    rfl
  have hcr : key.toList.getLast? ≠ some '\r' := by
    rw [hcs, List.getLast?_concat]
    decide
  have hother : setsOther name (String.ofList (key.toList ++ dropCarriageReturn v)) = false := by
    rw [hcs, List.append_assoc, List.singleton_append]
    unfold setsOther
    rw [splitOnce_append hname, String.ofList_toList]
    simp
  unfold otherLines
  rw [Option.getD_some, lines_keyLine hnl hcr hv hcontent, List.filter_singleton, hother]
  rfl

/-! The values that the files give. -/

theorem trim_trim (s : String) : trim (trim s) = trim s := trimMatches_trimMatches s

theorem trim_line (s : String) : trim (s ++ "\n") = trim s := by
  have hcontent : s ++ "\n" = String.ofList (s.toList ++ ['\n']) :=
    String.toList_inj.1 (by simp)
  rw [hcontent, trim, trimMatches_concat (by decide), String.ofList_toList]
  rfl

theorem prettyHostname_eq (content : String) : prettyHostname content =
    trimMatches (· = '"') (((lines content).findSome? (dropLead "PRETTY_HOSTNAME=")).getD "") := by
  unfold prettyHostname
  cases (lines content).findSome? (dropLead "PRETTY_HOSTNAME=") <;> rfl

theorem readTrim_line_iff :
    (readTrim (some (s ++ "\n"))).getD "localhost" = s ↔ trim s = s ∧ s ≠ "" := by
  unfold readTrim
  rw [Option.map_some, trim_line, Option.filter_some]
  by_cases h : trim s = ""
  · rw [if_neg (by simpa using h), h]
    refine iff_of_false (fun hs => ?_) (fun hs => hs.2 hs.1.symm)
    rw [← show "localhost" = s from hs] at h
    exact absurd h (by decide)
  · rw [if_pos (by simpa using h)]
    constructor
    · intro hs
      have hs : trim s = s := hs
      exact ⟨hs, hs ▸ h⟩
    · exact fun hs => hs.1

theorem toList_prettyLine (s : String) : ("PRETTY_HOSTNAME=\"" ++ s ++ "\"\n").toList =
    "PRETTY_HOSTNAME=".toList ++ ('"' :: s.toList ++ ['"']) ++ ['\n'] := by
  simp

theorem prettyHostname_line_iff : prettyHostname ("PRETTY_HOSTNAME=\"" ++ s ++ "\"\n") = s ↔
    '\n' ∉ s.toList ∧ trimMatches (· = '"') s = s := by
  rw [prettyHostname_eq]
  by_cases hs : '\n' ∈ s.toList
  · refine iff_of_false (fun h => ?_) (fun h => h.1 hs)
    rw [← h] at hs
    exact newline_not_mem_found (by decide) ((trimMatches_sublist _ _).mem hs)
  · have hv : '\n' ∉ '"' :: s.toList ++ ['"'] := by simpa using hs
    have hkeep : dropCarriageReturn ('"' :: s.toList ++ ['"']) = '"' :: s.toList ++ ['"'] := by
      rw [dropCarriageReturn_eq_self_iff, List.getLast?_concat]
      decide
    rw [found_keyLine (by decide) (by decide) hv (toList_prettyLine s), hkeep, Option.getD_some,
      trimMatches_concat (by decide), trimMatches_cons (by decide), String.ofList_toList]
    exact (and_iff_right hs).symm

theorem toList_keymapLine (s : String) :
    ("KEYMAP=" ++ s ++ "\n").toList = "KEYMAP=".toList ++ s.toList ++ ['\n'] := by
  simp

theorem vconsoleKeymap_line_iff : vconsoleKeymap ("KEYMAP=" ++ s ++ "\n") = s ↔
    '\n' ∉ s.toList ∧ s.toList.getLast? ≠ some '\r' := by
  unfold vconsoleKeymap
  by_cases hs : '\n' ∈ s.toList
  · refine iff_of_false (fun h => ?_) (fun h => h.1 hs)
    rw [← h] at hs
    exact newline_not_mem_found (by decide) hs
  · rw [found_keyLine (by decide) (by decide) hs (toList_keymapLine s), Option.getD_some,
      ← String.toList_inj, String.toList_ofList, dropCarriageReturn_eq_self_iff]
    exact (and_iff_right hs).symm

theorem mem_locales (h : s ∈ locales content) :
    '\n' ∉ s.toList ∧ trim s = s ∧ s ≠ "" := by
  unfold locales at h
  dsimp only at h
  split at h
  · rw [List.mem_singleton.1 h]
    decide
  · obtain ⟨l, hl, rfl⟩ := List.mem_map.1 h
    obtain ⟨hmem, hne⟩ := List.mem_filter.1 hl
    exact ⟨fun hnl => newline_not_mem_of_mem_lines hmem ((trimMatches_sublist _ _).mem hnl),
      trim_trim l, by simpa using hne⟩

theorem locales_ne_nil (content : String) : locales content ≠ [] := by
  unfold locales
  dsimp only
  split
  · exact List.cons_ne_nil _ _
  · rename_i hne
    exact fun h => hne (List.isEmpty_iff.2 h)

theorem locales_lines_iff {l : List String} : locales (String.join (l.map (· ++ "\n"))) = l ↔
    l ≠ [] ∧ ∀ s ∈ l, '\n' ∉ s.toList ∧ trim s = s ∧ s ≠ "" := by
  constructor
  · intro h
    constructor
    · rw [← h]
      exact locales_ne_nil _
    · intro s hs
      rw [← h] at hs
      exact mem_locales hs
  · rintro ⟨hne, hl⟩
    have hcontent : String.join (l.map (· ++ "\n")) =
        String.ofList ((l.map String.toList).flatMap (· ++ ['\n'])) := by
      rw [← String.toList_inj, String.toList_join, String.toList_ofList, List.flatMap_map,
        List.flatMap_map]
      exact List.flatMap_congr fun s _ => String.toList_append
    have hlines : lines (String.join (l.map (· ++ "\n"))) = l := by
      rw [hcontent, lines_terminated]
      · simp [Function.comp_def]
      · intro cs hcs
        obtain ⟨s, hs, rfl⟩ := List.mem_map.1 hcs
        exact ⟨(hl s hs).1, not_getLast?_of_trimMatches (hl s hs).2.1 (by decide)⟩
    have hfilter : l.filter (fun s => trim s ≠ "") = l := by
      rw [List.filter_eq_self]
      intro s hs
      rw [(hl s hs).2.1]
      exact decide_eq_true (hl s hs).2.2
    have hentries : localeEntries (String.join (l.map (· ++ "\n"))) = l := by
      unfold localeEntries
      rw [hlines, hfilter]
      exact (List.map_congr_left fun s hs => (hl s hs).2.1).trans (List.map_id l)
    unfold locales
    rw [hentries]
    exact if_neg fun h => hne (List.isEmpty_iff.1 h)

/-! The setters. -/

/-- The files after a call that succeeds. -/
def Setting.after (etc : Etc) : Setting → Etc
  | staticHostname s => { etc with hostname := some (s ++ "\n") }
  | prettyHostname s => { etc with machineInfo := some ("PRETTY_HOSTNAME=\"" ++ s ++ "\"\n") }
  | locale l => { etc with localeConf := some (String.join (l.map (· ++ "\n"))) }
  | vconsoleKeymap s => { etc with vconsoleConf := some ("KEYMAP=" ++ s ++ "\n") }

/-- A setter refuses nothing: it succeeds if the file can be written. -/
theorem Setting.call_eq_ok_iff :
    x.call wrote rest etc = .ok etc' ↔ wrote = .ok () ∧ etc' = x.after etc := by
  cases wrote with
  | error e =>
    refine iff_of_false (fun h => ?_) fun h => ?_
    · cases x <;> cases h
    · cases h.1
  | ok u =>
    have hlocales : ∀ l : List String, (l.map some).filterMap id = l := by
      intro l
      rw [List.filterMap_map]
      exact List.filterMap_some
    have hcall : x.call (.ok u) rest etc = .ok (x.after etc) := by
      cases x with
      | locale l =>
        have hcall : (Setting.locale l).call (.ok u) rest etc =
            (Except.ok ((l.map some).filterMap id)).bind fun ls =>
              .ok { etc with localeConf := some (String.join (ls.map (· ++ "\n"))) } := rfl
        rw [hcall, hlocales]
        rfl
      | _ => rfl
    rw [hcall, Except.ok.injEq]
    exact ⟨fun h => ⟨rfl, h.symm⟩, fun h => h.2.symm⟩

theorem Setting.law_iff : x.Law rest etc ↔
    x.property (x.after etc) = some x.value ∧ x.others (x.after etc) = x.others etc := by
  constructor
  · exact fun h => h (.ok ()) _ (call_eq_ok_iff.2 ⟨rfl, rfl⟩)
  · intro h wrote etc' hcall
    rw [(call_eq_ok_iff.1 hcall).2]
    exact h

/-- What a setter has set is read back, and the rest of the file is as it was, exactly if the value
comes through the file and the file says nothing else. -/
theorem setterLaw_iff (x : Setting) (rest : List Value) (etc : Etc) :
    x.Law rest etc ↔ x.Fits etc := by
  rw [Setting.law_iff]
  cases x with
  | staticHostname s =>
    have hproperty : Setting.property (Setting.after etc (.staticHostname s)) (.staticHostname s) =
        some (.string ((readTrim (some (s ++ "\n"))).getD "localhost")) := rfl
    rw [hproperty, Setting.Fits, ← readTrim_line_iff]
    simp [Setting.value, Setting.others]
  | prettyHostname s =>
    have hproperty : Setting.property (Setting.after etc (.prettyHostname s)) (.prettyHostname s) =
        some (.string (prettyHostname ("PRETTY_HOSTNAME=\"" ++ s ++ "\"\n"))) := rfl
    have hread : some (Value.string (prettyHostname ("PRETTY_HOSTNAME=\"" ++ s ++ "\"\n"))) =
        some (.string s) ↔ '\n' ∉ s.toList ∧ trimMatches (· = '"') s = s := by
      rw [Option.some_inj, Value.string.injEq, prettyHostname_line_iff]
    rw [hproperty, Setting.Fits, Setting.value, hread]
    refine and_congr_right fun hs => ?_
    have hothers : Setting.others (Setting.after etc (.prettyHostname s)) (.prettyHostname s) = [] :=
      otherLines_keyLine (by decide) rfl (by decide) (by simpa using hs.1) (toList_prettyLine s)
    rw [hothers]
    exact eq_comm
  | locale l =>
    have hproperty : Setting.property (Setting.after etc (.locale l)) (.locale l) =
        some (.array ((locales (String.join (l.map (· ++ "\n")))).map some)) := rfl
    rw [hproperty, Setting.Fits, ← locales_lines_iff, Setting.value, Option.some_inj,
      Value.array.injEq, List.map_inj_right fun _ _ => Option.some.inj]
    exact and_iff_left rfl
  | vconsoleKeymap s =>
    have hproperty : Setting.property (Setting.after etc (.vconsoleKeymap s)) (.vconsoleKeymap s) =
        some (.string (vconsoleKeymap ("KEYMAP=" ++ s ++ "\n"))) := rfl
    have hread : some (Value.string (vconsoleKeymap ("KEYMAP=" ++ s ++ "\n"))) =
        some (.string s) ↔ '\n' ∉ s.toList ∧ s.toList.getLast? ≠ some '\r' := by
      rw [Option.some_inj, Value.string.injEq, vconsoleKeymap_line_iff]
    rw [hproperty, Setting.Fits, Setting.value, hread]
    refine and_congr_right fun hs => ?_
    have hothers : Setting.others (Setting.after etc (.vconsoleKeymap s)) (.vconsoleKeymap s) = [] :=
      otherLines_keyLine (by decide) rfl (by decide) hs.1 (toList_keymapLine s)
    rw [hothers]
    exact eq_comm

/-- A keymap takes the font out of the file, a pretty name with a line feed is accepted and cut, and
an empty list of locales comes back as another. -/
theorem keymap_loses_font :
    ¬(Setting.vconsoleKeymap "de").Law [] { vconsoleConf := some "FONT=ter-v16n\nKEYMAP=us\n" } ∧
      ¬(Setting.prettyHostname "a\nb").Law [] {} ∧ ¬(Setting.locale []).Law [] {} := by
  refine ⟨fun h => ?_, fun h => ?_, fun h => ?_⟩
  · exact absurd (h (.ok ()) _ rfl).2 (by decide)
  · exact absurd (h (.ok ()) _ rfl).1 (by decide)
  · exact absurd (h (.ok ()) _ rfl).1 (by decide)

end Quantra.HostnameLocale
