import Quantra.Ramfs.RootStrategies

/-! The three tiers by which `open_luks_device` is to come by a key, and the mount that the second of
them needs, where every call has one answer. -/
namespace Quantra.RootMount
open Calls Calls.Prog Text

inductive Tier
  | tpm2
  | keyfile (spec : String)
  | prompt
  deriving DecidableEq, Repr

def Tier.key (name : String) : Tier → Init (Except String (List UInt8))
  | tpm2 => fetch .unsealLuksKey Reply.data id
  | keyfile spec => readKeyfile spec
  | prompt => promptLuksPassphrase name

/-- The tier by itself: the key that it yields is given to `cryptsetup`. -/
def Tier.unlock (device name : String) (tier : Tier) : Init (Except String String) :=
  (tier.key name).check (openLuksWithPassphrase device name) fun e => ret (.error e)

/-- The tiers that there are, in order. -/
def tiers (env : Call → Reply) (keyfile : Option String) : List Tier :=
  (if (env .tpm2Available).holds && (env .tpm2BlobExists).holds then [.tpm2] else []) ++
    (keyfile.map .keyfile).toList ++ [.prompt]

/-- How many mounts there are on the mount point of the key device after one more call. -/
def mountsAfter (env : Call → Reply) (mounts : ℕ) (c : Call) : ℕ :=
  match c with
  | .mount m =>
    if m.target = keyMountPoint ∧ (env c).result.isOk then mounts + 1 else mounts
  | .umount target => if target = keyMountPoint ∧ (env c).result.isOk then mounts - 1 else mounts
  | _ => mounts

/-- A tier whose key is rejected has failed like one without a key, and the key device is mounted for
no longer than it takes to read the key. -/
structure FallsThrough (env : Call → Reply) (device name : String) (keyfile : Option String) :
    Prop where
  complete : ∀ tier ∈ tiers env keyfile, ((tier.unlock device name).value env).isOk →
    ((openLuksDevice device name keyfile).value env).isOk
  exhaustive : ∀ e, (openLuksDevice device name keyfile).value env = .error e →
    ∀ tier ∈ tiers env keyfile, ((tier.unlock device name).value env).isOk = false ∧
      (tier.unlock device name).trace env <:+: (openLuksDevice device name keyfile).trace env
  unmounted : ((openLuksDevice device name keyfile).trace env).foldl (mountsAfter env) 0 = 0

/-- The key that is got without anyone at the console. -/
def silentKey (env : Call → Reply) (keyfile : Option String) : Option (List UInt8) :=
  (tpm2Key.value env).or ((keyfileKey keyfile).value env)

def keyMount (dev : String) : Call :=
  .mount { source := dev, target := keyMountPoint, fstype := none, readOnly := true }

def keyPath (pathInside : String) : String :=
  keyMountPoint ++ "/" ++ trimStartMatches '/' pathInside

/-- A key device gets mounted for the file at `path`. -/
def MountsKeyDevice (env : Call → Reply) (keyfile : Option String) (path : String) : Prop :=
  tpm2Key.value env = none ∧ ∃ spec dev pathInside, keyfile = some spec ∧
    splitOnce ':' spec = some (dev, pathInside) ∧
    path = keyPath pathInside ∧ (env (.createDirAll keyMountPoint)).result.isOk ∧
    (env (keyMount dev)).result.isOk

/-- The first key is accepted; and where a key device gets mounted, the file on it can be read, and the
device taken off again. -/
structure Smooth (env : Call → Reply) (device name : String) (keyfile : Option String) : Prop where
  accepted : ∀ key, silentKey env keyfile = some key →
    ((openLuksWithPassphrase device name key).value env).isOk
  readable : ∀ path, MountsKeyDevice env keyfile path →
    (env (.open_ path)).result.isOk ∧ (env (.readToEnd path)).result.isOk ∧
      (env (.umount keyMountPoint)).result.isOk

section Tiers
variable {env : Call → Reply} {device name : String} {keyfile : Option String} {tier : Tier}
  {key : List UInt8} {e : String}

theorem value_unlock_error (h : (tier.key name).value env = .error e) :
    (tier.unlock device name).value env = .error e :=
  value_check_error h

theorem trace_unlock_error (h : (tier.key name).value env = .error e) :
    (tier.unlock device name).trace env = (tier.key name).trace env :=
  (trace_check_error h).trans (List.append_nil _)

/-- A tier without a key has failed. -/
theorem unlock_of_toOption (device : String) (h : ((tier.key name).value env).toOption = none) :
    ((tier.unlock device name).value env).isOk = false ∧
      (tier.unlock device name).trace env = (tier.key name).trace env := by
  cases hkey : (tier.key name).value env with
  | ok key =>
    rw [hkey] at h
    cases h
  | error e =>
    rw [value_unlock_error hkey]
    exact ⟨rfl, trace_unlock_error hkey⟩

theorem mem_tiers : tier ∈ tiers env keyfile ↔
    (tier = .tpm2 ∧ (env .tpm2Available).holds ∧ (env .tpm2BlobExists).holds) ∨
      (∃ spec, keyfile = some spec ∧ tier = .keyfile spec) ∨ tier = .prompt := by
  unfold tiers
  rw [List.append_assoc, List.mem_append, List.mem_append, List.mem_singleton]
  refine or_congr ?_ (or_congr_left ?_)
  · simp [and_comm]
  · cases keyfile <;> simp

/-- The TPM is asked just when it is one of the tiers. -/
theorem tpm2Key_cases (env : Call → Reply) (keyfile : Option String) (name : String) :
    (Tier.tpm2 ∈ tiers env keyfile ∧
        tpm2Key.value env = ((Tier.tpm2.key name).value env).toOption ∧
        (Tier.tpm2.key name).trace env <:+ tpm2Key.trace env) ∨
      (Tier.tpm2 ∉ tiers env keyfile ∧ tpm2Key.value env = none) := by
  have hmem : Tier.tpm2 ∈ tiers env keyfile ↔
      (env .tpm2Available).holds ∧ (env .tpm2BlobExists).holds := by
    simp [mem_tiers]
  unfold tpm2Key
  rw [value_bind, value_ask, trace_bind, value_ask, trace_ask]
  cases havailable : (env .tpm2Available).holds with
  | false => exact .inr ⟨by simp [hmem, havailable], rfl⟩
  | true =>
    rw [if_pos rfl, value_bind, value_ask, trace_bind, value_ask, trace_ask]
    cases hblob : (env .tpm2BlobExists).holds with
    | false => exact .inr ⟨by simp [hmem, hblob], rfl⟩
    | true =>
      rw [if_pos rfl, trace_bind, value_bind]
      exact .inl ⟨hmem.2 ⟨havailable, hblob⟩, rfl, [_, _], rfl⟩

theorem value_keyfileKey_some (spec : String) : (keyfileKey (some spec)).value env =
    ((readKeyfile spec).value env).toOption :=
  value_bind _ _

theorem trace_keyfileKey_some (spec : String) :
    (keyfileKey (some spec)).trace env = (readKeyfile spec).trace env :=
  (trace_bind _ _).trans (List.append_nil _)

/-! The run by the key that it comes by. -/

theorem openLuksDevice_of_tpm2 (device name : String) (h : tpm2Key.value env = some key) :
    (openLuksDevice device name keyfile).value env =
        (openLuksWithPassphrase device name key).value env ∧
      (openLuksDevice device name keyfile).trace env =
        tpm2Key.trace env ++ (openLuksWithPassphrase device name key).trace env := by
  unfold openLuksDevice
  rw [value_bind, trace_bind, h]
  exact ⟨rfl, rfl⟩

theorem openLuksDevice_of_keyfile (device name : String) (h : tpm2Key.value env = none)
    (hkey : (keyfileKey keyfile).value env = some key) :
    (openLuksDevice device name keyfile).value env =
        (openLuksWithPassphrase device name key).value env ∧
      (openLuksDevice device name keyfile).trace env =
        tpm2Key.trace env ++ ((keyfileKey keyfile).trace env ++
          (openLuksWithPassphrase device name key).trace env) := by
  unfold openLuksDevice
  rw [value_bind, trace_bind, h]
  dsimp only
  rw [value_bind, trace_bind, hkey]
  exact ⟨rfl, rfl⟩

theorem openLuksDevice_of_prompt (device name : String) (h : tpm2Key.value env = none)
    (hkey : (keyfileKey keyfile).value env = none) :
    (openLuksDevice device name keyfile).value env = (Tier.prompt.unlock device name).value env ∧
      (openLuksDevice device name keyfile).trace env =
        tpm2Key.trace env ++ ((keyfileKey keyfile).trace env ++
          (Tier.prompt.unlock device name).trace env) := by
  unfold openLuksDevice
  rw [value_bind, trace_bind, h]
  dsimp only
  rw [value_bind, trace_bind, hkey]
  exact ⟨rfl, rfl⟩

/-- The first key is the only one that is used. -/
theorem value_of_silentKey (device name : String) (h : silentKey env keyfile = some key) :
    (openLuksDevice device name keyfile).value env =
      (openLuksWithPassphrase device name key).value env := by
  cases htpm : tpm2Key.value env with
  | some key' =>
    have hkey : key' = key := by simpa [silentKey, htpm] using h
    rw [(openLuksDevice_of_tpm2 device name htpm).1, hkey]
  | none =>
    have hkey : (keyfileKey keyfile).value env = some key := by simpa [silentKey, htpm] using h
    exact (openLuksDevice_of_keyfile device name htpm hkey).1

/-- An accepted key, or no key but the one that is typed, and no tier is passed over. -/
theorem falls_of_accepted (h : ∀ key, silentKey env keyfile = some key →
    ((openLuksWithPassphrase device name key).value env).isOk) :
    (∀ tier ∈ tiers env keyfile, ((tier.unlock device name).value env).isOk →
        ((openLuksDevice device name keyfile).value env).isOk) ∧
      ∀ e, (openLuksDevice device name keyfile).value env = .error e →
        ∀ tier ∈ tiers env keyfile, ((tier.unlock device name).value env).isOk = false ∧
          (tier.unlock device name).trace env <:+: (openLuksDevice device name keyfile).trace env := by
  cases hsilent : silentKey env keyfile with
  | some key =>
    have hok : ((openLuksDevice device name keyfile).value env).isOk := by
      rw [value_of_silentKey device name hsilent]
      exact h key hsilent
    refine ⟨fun tier _ _ => hok, fun e he => ?_⟩
    rw [he] at hok
    cases hok
  | none =>
    obtain ⟨htpm, hkey⟩ := Option.or_eq_none_iff.1 hsilent
    obtain ⟨hvalue, htrace⟩ := openLuksDevice_of_prompt device name htpm hkey
    have hfailed : ∀ tier ∈ tiers env keyfile, tier ≠ .prompt →
        ((tier.unlock device name).value env).isOk = false ∧
          (tier.unlock device name).trace env <:+:
            (openLuksDevice device name keyfile).trace env := by
      intro tier hmem hprompt
      rcases mem_tiers.1 hmem with ⟨rfl, _⟩ | ⟨spec, rfl, rfl⟩ | rfl
      · obtain ⟨_, hsame, hsuffix⟩ | ⟨hnot, _⟩ := tpm2Key_cases env keyfile name
        · obtain ⟨hfail, hcalls⟩ := unlock_of_toOption device (hsame.symm.trans htpm)
          rw [hcalls, htrace]
          exact ⟨hfail, hsuffix.isInfix.trans (List.prefix_append _ _).isInfix⟩
        · exact absurd hmem hnot
      · have hsame : (((Tier.keyfile spec).key name).value env).toOption = none :=
          (value_keyfileKey_some spec).symm.trans hkey
        obtain ⟨hfail, hcalls⟩ := unlock_of_toOption device hsame
        rw [hcalls, htrace, trace_keyfileKey_some]
        exact ⟨hfail, List.infix_append' _ _ _⟩
      · exact absurd rfl hprompt
    constructor
    · intro tier hmem hok
      by_cases hprompt : tier = .prompt
      · rw [hprompt] at hok
        rw [hvalue]
        exact hok
      · rw [(hfailed tier hmem hprompt).1] at hok
        cases hok
    · intro e he tier hmem
      by_cases hprompt : tier = .prompt
      · rw [hprompt, ← hvalue, he, htrace, ← List.append_assoc]
        exact ⟨rfl, (List.suffix_append _ _).isInfix⟩
      · exact hfailed tier hmem hprompt

/-! A tier whose key is rejected ends the run, before the console is asked. -/

/-- A call to the console, which is kept open. -/
def IsConsole (c : Call) : Prop := ∃ text, c = .consoleWrite text

theorem readKeyfile_no_console {spec : String} : ¬(readKeyfile spec).Makes IsConsole := by
  unfold readKeyfile
  split <;> simp [readFile, makes_bind, IsConsole]

theorem keyfileKey_no_console : ¬(keyfileKey keyfile).Makes IsConsole := by
  cases keyfile <;> simp [keyfileKey, makes_bind, readKeyfile_no_console]

theorem tpm2Key_no_console : ¬tpm2Key.Makes fun c => IsConsole c ∨ ∃ path, c = .open_ path := by
  simp [tpm2Key, makes_bind, apply_ite, IsConsole]

theorem openLuksWithPassphrase_no_console :
    ¬(openLuksWithPassphrase device name key).Makes
      fun c => IsConsole c ∨ ∃ path, c = .open_ path := by
  unfold openLuksWithPassphrase
  rw [makes_bind, not_or]
  constructor
  · simp [findCryptsetup, makes_bind, apply_ite, IsConsole]
  · rintro ⟨found, _, hmakes⟩
    cases found <;> simp [IsConsole, apply_ite] at hmakes

/-- What has been read has been opened. -/
theorem opened_of_readFile {path path' : String} {data : List UInt8}
    (h : (readFile path).value env = .ok data) (hmem : .open_ path' ∈ (readFile path).trace env) :
    (env (.open_ path')).result.isOk := by
  unfold readFile at h hmem
  cases hopen : (env (.open_ path)).result.isOk with
  | false =>
    obtain ⟨e, he⟩ := attempt_error (fun e => "read keyfile '" ++ path ++ "': " ++ e) hopen
    rw [value_check_error he] at h
    cases h
  | true =>
    rw [trace_check_ok (attempt_ok _ hopen), trace_attempt, trace_fetch] at hmem
    have hpath : path' = path := by simpa using hmem
    rw [hpath]
    exact hopen

section KeyDevice
variable {spec dev pathInside : String}

theorem readKeyfile_of_unmounted (hsplit : splitOnce ':' spec = some (dev, pathInside))
    (h : ¬((env (.createDirAll keyMountPoint)).result.isOk ∧ (env (keyMount dev)).result.isOk)) :
    ((readKeyfile spec).value env).isOk = false ∧
      ((readKeyfile spec).trace env = [.createDirAll keyMountPoint] ∨
        (env (keyMount dev)).result.isOk = false ∧
          (readKeyfile spec).trace env = [.createDirAll keyMountPoint, keyMount dev]) := by
  unfold readKeyfile
  rw [hsplit]
  dsimp only
  cases hdir : (env (.createDirAll keyMountPoint)).result.isOk with
  | false =>
    obtain ⟨e, he⟩ := attempt_error (fun e => "create mount point: " ++ e) hdir
    rw [value_check_error he, trace_check_error he]
    exact ⟨rfl, .inl rfl⟩
  | true =>
    have hmount : (env (keyMount dev)).result.isOk = false :=
      eq_false_of_ne_true fun hmount => h ⟨hdir, hmount⟩
    obtain ⟨e, he⟩ := attempt_error (fun e => "mount keyfile device '" ++ dev ++ "': " ++ e) hmount
    unfold keyMount at he
    rw [value_check_ok (attempt_ok _ hdir), trace_check_ok (attempt_ok _ hdir),
      value_check_error he, trace_check_error he]
    exact ⟨rfl, .inr ⟨hmount, rfl⟩⟩

theorem readKeyfile_of_mounted (hsplit : splitOnce ':' spec = some (dev, pathInside))
    (hdir : (env (.createDirAll keyMountPoint)).result.isOk)
    (hmount : (env (keyMount dev)).result.isOk) :
    (readKeyfile spec).value env = (readFile (keyPath pathInside)).value env ∧
      (readKeyfile spec).trace env =
        [Call.createDirAll keyMountPoint, keyMount dev] ++ (readFile (keyPath pathInside)).trace env ++
          if ((readFile (keyPath pathInside)).value env).isOk then [.umount keyMountPoint]
          else [] := by
  have hm := attempt_ok (fun e => "mount keyfile device '" ++ dev ++ "': " ++ e) hmount
  unfold keyMount at hm
  unfold readKeyfile
  rw [hsplit]
  dsimp only
  rw [value_check_ok (attempt_ok _ hdir), trace_check_ok (attempt_ok _ hdir), value_check_ok hm,
    trace_check_ok hm, trace_attempt, trace_attempt]
  unfold keyPath
  cases hread : (readFile (keyMountPoint ++ "/" ++ trimStartMatches '/' pathInside)).value env with
  | error e =>
    rw [value_check_error hread, trace_check_error hread]
    exact ⟨rfl, rfl⟩
  | ok data =>
    rw [value_check_ok hread, trace_check_ok hread]
    exact ⟨rfl, rfl⟩

end KeyDevice

theorem opened_of_readKeyfile {spec path : String} {data : List UInt8}
    (h : (readKeyfile spec).value env = .ok data)
    (hmem : .open_ path ∈ (readKeyfile spec).trace env) : (env (.open_ path)).result.isOk := by
  cases hsplit : splitOnce ':' spec with
  | none =>
    unfold readKeyfile at h hmem
    rw [hsplit] at h hmem
    exact opened_of_readFile h hmem
  | some parts =>
    obtain ⟨dev, pathInside⟩ := parts
    by_cases hup :
        (env (.createDirAll keyMountPoint)).result.isOk ∧ (env (keyMount dev)).result.isOk
    · obtain ⟨hvalue, htrace⟩ := readKeyfile_of_mounted hsplit hup.1 hup.2
      rw [hvalue] at h
      rw [htrace, h] at hmem
      refine opened_of_readFile h ?_
      simpa [keyMount, Except.isOk, Except.toBool] using hmem
    · have hfail := (readKeyfile_of_unmounted hsplit hup).1
      rw [h] at hfail
      cases hfail

theorem quiet_of_mem {α : Type} {p : Init α} {c : Call}
    (hp : ¬p.Makes fun c => IsConsole c ∨ ∃ path, c = .open_ path) (hmem : c ∈ p.trace env) :
    ¬IsConsole c ∧ ∀ path, c = .open_ path → (env c).result.isOk := by
  constructor
  · exact fun hconsole => hp (makes_of_mem_trace hmem (.inl hconsole))
  · exact fun path hopen => absurd (makes_of_mem_trace hmem (.inr ⟨path, hopen⟩)) hp

/-- Where there is a key without the console, nothing is written to it, and what is opened has been
opened. -/
theorem quiet_of_silentKey {c : Call} (h : silentKey env keyfile = some key)
    (hmem : c ∈ (openLuksDevice device name keyfile).trace env) :
    ¬IsConsole c ∧ ∀ path, c = .open_ path → (env c).result.isOk := by
  cases htpm : tpm2Key.value env with
  | some key' =>
    rw [(openLuksDevice_of_tpm2 device name htpm).2, List.mem_append] at hmem
    rcases hmem with hmem | hmem
    · exact quiet_of_mem tpm2Key_no_console hmem
    · exact quiet_of_mem openLuksWithPassphrase_no_console hmem
  | none =>
    have hkey : (keyfileKey keyfile).value env = some key := by simpa [silentKey, htpm] using h
    rw [(openLuksDevice_of_keyfile device name htpm hkey).2, List.mem_append, List.mem_append]
      at hmem
    rcases hmem with hmem | hmem | hmem
    · exact quiet_of_mem tpm2Key_no_console hmem
    · constructor
      · exact fun hconsole => keyfileKey_no_console (makes_of_mem_trace hmem hconsole)
      · rintro path rfl
        cases keyfile with
        | none => cases hkey
        | some spec =>
          rw [value_keyfileKey_some] at hkey
          rw [trace_keyfileKey_some] at hmem
          cases hread : (readKeyfile spec).value env with
          | error e =>
            rw [hread] at hkey
            cases hkey
          | ok data => exact opened_of_readKeyfile hread hmem
    · exact quiet_of_mem openLuksWithPassphrase_no_console hmem

/-- The prompt begins with the console. -/
theorem prompt_asks : .open_ "/dev/console" ∈ (Tier.prompt.unlock device name).trace env ∧
    ((env (.open_ "/dev/console")).result.isOk →
      .consoleWrite ("\n  Enter LUKS passphrase for '" ++ name ++ "': ") ∈
        (Tier.prompt.unlock device name).trace env) := by
  unfold Tier.unlock Tier.key promptLuksPassphrase
  simp only [check, trace_bind, trace_attempt]
  constructor
  · simp
  · intro hopen
    rw [attempt_ok _ hopen]
    simp

theorem prompt_not_tried (h : silentKey env keyfile = some key) :
    ¬(Tier.prompt.unlock device name).trace env <:+:
      (openLuksDevice device name keyfile).trace env := by
  intro htried
  obtain ⟨hopen, hwrite⟩ := @prompt_asks env device name
  have hopened := (quiet_of_silentKey h (htried.subset hopen)).2 _ rfl
  exact (quiet_of_silentKey h (htried.subset (hwrite hopened))).1 ⟨_, rfl⟩

theorem accepted_of_exhaustive (hrun : ∀ e, (openLuksDevice device name keyfile).value env = .error e →
      ∀ tier ∈ tiers env keyfile,
        (tier.unlock device name).trace env <:+: (openLuksDevice device name keyfile).trace env)
    (h : silentKey env keyfile = some key) :
    ((openLuksWithPassphrase device name key).value env).isOk := by
  have hprompt : Tier.prompt ∈ tiers env keyfile := mem_tiers.2 (.inr (.inr rfl))
  cases hopen : (openLuksWithPassphrase device name key).value env with
  | ok mapped => rfl
  | error e =>
    have herror := (value_of_silentKey device name h).trans hopen
    exact absurd (hrun e herror .prompt hprompt) (prompt_not_tried h)

/-! The mount of the key device. -/

/-- The call has to do with mounts. -/
def IsMount (c : Call) : Prop := (∃ m, c = .mount m) ∨ ∃ target, c = .umount target

theorem foldl_of_no_mounts {calls : List Call} (h : ∀ c ∈ calls, ¬IsMount c) (mounts : ℕ) :
    calls.foldl (mountsAfter env) mounts = mounts := by
  induction calls generalizing mounts with
  | nil => rfl
  | cons c calls ih =>
    have hc : mountsAfter env mounts c = mounts := by
      cases c with
      | mount m => exact absurd (.inl ⟨m, rfl⟩) (h _ List.mem_cons_self)
      | umount target => exact absurd (.inr ⟨target, rfl⟩) (h _ List.mem_cons_self)
      | _ => rfl
    rw [List.foldl_cons, hc]
    exact ih (fun d hd => h d (List.mem_cons_of_mem c hd)) mounts

theorem foldl_trace_of_no_mounts {α : Type} {p : Init α} (hp : ¬p.Makes IsMount) (mounts : ℕ) :
    (p.trace env).foldl (mountsAfter env) mounts = mounts :=
  foldl_of_no_mounts (fun _ hc hmount => hp (makes_of_mem_trace hc hmount)) mounts

theorem tpm2Key_no_mounts : ¬tpm2Key.Makes IsMount := by
  simp [tpm2Key, makes_bind, apply_ite, IsMount]

theorem readFile_no_mounts {path : String} : ¬(readFile path).Makes IsMount := by
  simp [readFile, IsMount]

theorem openLuksWithPassphrase_no_mounts :
    ¬(openLuksWithPassphrase device name key).Makes IsMount := by
  unfold openLuksWithPassphrase
  rw [makes_bind, not_or]
  constructor
  · simp [findCryptsetup, makes_bind, apply_ite, IsMount]
  · rintro ⟨found, _, hmakes⟩
    cases found <;> simp [IsMount, apply_ite] at hmakes

theorem prompt_no_mounts : ¬(Tier.prompt.unlock device name).Makes IsMount := by
  unfold Tier.unlock Tier.key
  rw [makes_check]
  simp [promptLuksPassphrase, makes_bind, apply_ite, IsMount, openLuksWithPassphrase_no_mounts]

/-- Only the keyfile makes a difference. -/
theorem mounted_openLuksDevice :
    ((openLuksDevice device name keyfile).trace env).foldl (mountsAfter env) 0 =
      if (tpm2Key.value env).isSome then 0
      else ((keyfileKey keyfile).trace env).foldl (mountsAfter env) 0 := by
  cases htpm : tpm2Key.value env with
  | some key =>
    rw [(openLuksDevice_of_tpm2 device name htpm).2, List.foldl_append,
      foldl_trace_of_no_mounts tpm2Key_no_mounts]
    exact foldl_trace_of_no_mounts openLuksWithPassphrase_no_mounts 0
  | none =>
    rw [if_neg (by simp)]
    cases hkey : (keyfileKey keyfile).value env with
    | some key =>
      rw [(openLuksDevice_of_keyfile device name htpm hkey).2, List.foldl_append, List.foldl_append,
        foldl_trace_of_no_mounts tpm2Key_no_mounts]
      exact foldl_trace_of_no_mounts openLuksWithPassphrase_no_mounts _
    | none =>
      rw [(openLuksDevice_of_prompt device name htpm hkey).2, List.foldl_append, List.foldl_append,
        foldl_trace_of_no_mounts tpm2Key_no_mounts]
      exact foldl_trace_of_no_mounts prompt_no_mounts _

theorem readFile_isOk {path : String} : ((readFile path).value env).isOk ↔
    (env (.open_ path)).result.isOk ∧ (env (.readToEnd path)).result.isOk := by
  unfold readFile
  cases hopen : (env (.open_ path)).result.isOk with
  | false =>
    obtain ⟨e, he⟩ := attempt_error (fun e => "read keyfile '" ++ path ++ "': " ++ e) hopen
    rw [value_check_error he]
    exact ⟨fun h => absurd h Bool.false_ne_true, fun h => absurd h.1 Bool.false_ne_true⟩
  | true =>
    rw [value_check_ok (attempt_ok _ hopen)]
    cases hread : (env (.readToEnd path)).result.isOk with
    | false =>
      obtain ⟨e, he⟩ := fetch_error Reply.data (fun e => "read keyfile '" ++ path ++ "': " ++ e) hread
      rw [he]
      exact ⟨fun h => absurd h Bool.false_ne_true, fun h => absurd h.2 Bool.false_ne_true⟩
    | true =>
      rw [fetch_ok Reply.data _ hread]
      exact ⟨fun _ => ⟨rfl, rfl⟩, fun _ => rfl⟩

/-- A mount is left where the device is mounted and the file on it cannot be read, or the device not be
taken off. -/
theorem mounted_readKeyfile {spec dev pathInside : String}
    (hsplit : splitOnce ':' spec = some (dev, pathInside))
    (hdir : (env (.createDirAll keyMountPoint)).result.isOk)
    (hmount : (env (keyMount dev)).result.isOk) :
    ((readKeyfile spec).trace env).foldl (mountsAfter env) 0 = 0 ↔
      (env (.open_ (keyPath pathInside))).result.isOk ∧
        (env (.readToEnd (keyPath pathInside))).result.isOk ∧
        (env (.umount keyMountPoint)).result.isOk := by
  have hup : [.createDirAll keyMountPoint, keyMount dev].foldl (mountsAfter env) 0 = 1 :=
    if_pos ⟨rfl, hmount⟩
  rw [(readKeyfile_of_mounted hsplit hdir hmount).2, List.foldl_append, List.foldl_append, hup,
    foldl_trace_of_no_mounts readFile_no_mounts, ← and_assoc, ← readFile_isOk]
  by_cases hread : ((readFile (keyPath pathInside)).value env).isOk
  · rw [if_pos hread, List.foldl_cons, List.foldl_nil]
    simp [hread, mountsAfter]
  · rw [if_neg hread, List.foldl_nil]
    simp [hread]

theorem mounted_readKeyfile_of_unmounted {spec : String}
    (h : ∀ dev pathInside, splitOnce ':' spec = some (dev, pathInside) →
      ¬((env (.createDirAll keyMountPoint)).result.isOk ∧ (env (keyMount dev)).result.isOk)) :
    ((readKeyfile spec).trace env).foldl (mountsAfter env) 0 = 0 := by
  cases hsplit : splitOnce ':' spec with
  | none =>
    unfold readKeyfile
    rw [hsplit]
    exact foldl_trace_of_no_mounts readFile_no_mounts 0
  | some parts =>
    obtain ⟨dev, pathInside⟩ := parts
    obtain ⟨_, htrace | ⟨hmount, htrace⟩⟩ := readKeyfile_of_unmounted hsplit (h dev pathInside hsplit)
    · rw [htrace]
      rfl
    · rw [htrace]
      exact if_neg fun hup => absurd (hmount.symm.trans hup.2) Bool.false_ne_true

theorem unmounted_iff :
    ((openLuksDevice device name keyfile).trace env).foldl (mountsAfter env) 0 = 0 ↔
      ∀ path, MountsKeyDevice env keyfile path →
        (env (.open_ path)).result.isOk ∧ (env (.readToEnd path)).result.isOk ∧
          (env (.umount keyMountPoint)).result.isOk := by
  rw [mounted_openLuksDevice]
  cases htpm : tpm2Key.value env with
  | some key =>
    refine ⟨fun _ path hpath => ?_, fun _ => rfl⟩
    cases htpm.symm.trans hpath.1
  | none =>
    rw [if_neg (by simp)]
    cases keyfile with
    | none =>
      refine ⟨fun _ path hpath => ?_, fun _ => rfl⟩
      obtain ⟨_, spec, dev, pathInside, hspec, -⟩ := hpath
      cases hspec
    | some spec =>
      rw [trace_keyfileKey_some]
      constructor
      · rintro h path ⟨-, _, dev, pathInside, ⟨⟩, hsplit, rfl, hdir, hmount⟩
        exact (mounted_readKeyfile hsplit hdir hmount).1 h
      · intro h
        by_cases hup : ∃ dev pathInside, splitOnce ':' spec = some (dev, pathInside) ∧
            (env (.createDirAll keyMountPoint)).result.isOk ∧ (env (keyMount dev)).result.isOk
        · obtain ⟨dev, pathInside, hsplit, hdir, hmount⟩ := hup
          refine (mounted_readKeyfile hsplit hdir hmount).2 (h (keyPath pathInside) ?_)
          exact ⟨htpm, spec, dev, pathInside, rfl, hsplit, rfl, hdir, hmount⟩
        · refine mounted_readKeyfile_of_unmounted fun dev pathInside hsplit hboth => hup ?_
          exact ⟨dev, pathInside, hsplit, hboth⟩

/-- The tiers are gone through as documented just when the first key is accepted and the file on a
mounted key device can be read. -/
theorem fallsThrough_iff (env : Call → Reply) (device name : String) (keyfile : Option String) :
    FallsThrough env device name keyfile ↔ Smooth env device name keyfile := by
  constructor
  · intro h
    refine ⟨fun key hkey => ?_, unmounted_iff.1 h.unmounted⟩
    exact accepted_of_exhaustive (fun e he tier hmem => (h.exhaustive e he tier hmem).2) hkey
  · intro h
    obtain ⟨hcomplete, hexhaustive⟩ := falls_of_accepted h.accepted
    exact ⟨hcomplete, hexhaustive, unmounted_iff.2 h.readable⟩

end Tiers

/-- The key in the TPM is of no use any more, and the one that is typed is. -/
def staleTpm (c : Call) : Reply :=
  match c with
  | .tpm2Available | .tpm2BlobExists | .exists_ _ => { holds := true }
  | .unsealLuksKey => { data := [1] }
  | .consoleLine => { data := [2] }
  | .wait _ stdin => { status := some (if stdin = [2] then 0 else 2) }
  | _ => {}

/-- The machine does not start, though the user could have opened it. -/
theorem stale_key_ends_unlock : ¬FallsThrough staleTpm "/dev/sda2" "root" none := by
  intro h
  have hopen := h.complete .prompt (by decide) rfl
  cases hopen

end Quantra.RootMount
