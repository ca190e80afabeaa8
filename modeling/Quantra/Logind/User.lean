import Quantra.Logind.Types

/-! `user.rs`: the user manager, with the files and directories that it keeps and the cleanup threads
that it starts. The user slices, which nothing else reads, are left out. -/
namespace Quantra.Logind
open Text

/-- What a cleanup thread has still to do; the wait before it and the wait between the signals may
take any time. -/
inductive CleanupAct
  | sigterm
  | sigkill
  | removeIpc
  | destroyRuntimeDir
  deriving DecidableEq, Repr

structure Cleanup where
  uid : Uid
  todo : List CleanupAct
  deriving DecidableEq, Repr

/-- `lingerFiles` are the names in `/var/lib/quantra-logind/linger`, and `runtimeDirs` the uids that
have a directory in `/run/user`. -/
structure UserManager where
  users : Table Uid UserRecord UserRecord.uid
  lingerFiles : List String
  runtimeDirs : List Uid
  cleanups : List Cleanup

/-- The answers to the calls of `create_runtime_dir`. -/
structure DirAnswers where
  createDirAll : Except String Unit := .ok ()
  mounted : Bool := true
  metadata : Except String Unit := .ok ()
  setPermissions : Except String Unit := .ok ()

/-- The answers to the calls of `set_linger`. -/
structure LingerAnswers where
  createDirAll : Except String Unit := .ok ()
  write : Except String Unit := .ok ()
  removed : Bool := true
  resolve : Uid → Option String
  runtimeDir : DirAnswers := {}
  destroyed : Bool := true

namespace UserManager

def new (lingerFiles : List String) (runtimeDirs : List Uid) : UserManager where
  users := .empty
  lingerFiles := lingerFiles
  runtimeDirs := runtimeDirs
  cleanups := []

def addName (name : String) (names : List String) : List String :=
  if name ∈ names then names else names ++ [name]

/-- The directory is there as soon as it is made, also when its setup fails. -/
def createRuntimeDir (um : UserManager) (uid : Uid) (answers : DirAnswers) :
    Except String Unit × UserManager :=
  match answers.createDirAll with
  | .error e => (.error ("create " ++ runtimeDir uid ++ ": " ++ e), um)
  | .ok _ =>
    let um := { um with runtimeDirs := if uid ∈ um.runtimeDirs then um.runtimeDirs
                                       else um.runtimeDirs ++ [uid] }
    if answers.mounted then (.ok (), um)
    else
      match answers.metadata, answers.setPermissions with
      | .error e, _ => (.error e, um)
      | .ok _, .error e => (.error e, um)
      | .ok _, .ok _ => (.ok (), um)

/-- `removed` tells whether the directory could be removed; if not, that is only logged. -/
def destroyRuntimeDir (um : UserManager) (uid : Uid) (removed : Bool) : UserManager :=
  if removed then { um with runtimeDirs := um.runtimeDirs.filter (· ≠ uid) } else um

def setUser (um : UserManager) (rec : UserRecord) : UserManager :=
  { um with users := um.users.insert rec }

def removeUser (um : UserManager) (uid : Uid) : UserManager :=
  { um with users := um.users.remove uid }

def newRecord (uid : Uid) (username : String) (now : ℕ) : UserRecord where
  uid := uid
  username := username
  firstLogin := now
  lastLogin := now

def addLogin (sid : SessionId) (now : ℕ) (u : UserRecord) : UserRecord :=
  if u.sessionIds.contains sid then { u with state := .online }
  else { u with sessionIds := u.sessionIds ++ [sid], lastLogin := now, state := .online }

def login (um : UserManager) (uid : Uid) (username : String) (sid : SessionId) (now : ℕ)
    (answers : DirAnswers) : Except String Unit × UserManager :=
  match um.users.get? uid with
  | some u => (.ok (), um.setUser (addLogin sid now u))
  | none =>
    match um.createRuntimeDir uid answers with
    | (.error e, um) => (.error e, um)
    | (.ok _, um) =>
      (.ok (), um.setUser { newRecord uid username now with sessionIds := [sid], state := .online })

def shouldKill (config : LogindConfig) (username : String) : Bool :=
  if config.killOnlyUsers ≠ [] then config.killOnlyUsers.contains username
  else !config.killExcludeUsers.contains username

/-- What the thread that `logout` starts has to do. -/
def cleanupOf (config : LogindConfig) (u : UserRecord) : Cleanup where
  uid := u.uid
  todo :=
    (if config.killUserProcesses && shouldKill config u.username then [.sigterm, .sigkill] else []) ++
      (if config.removeIpc then [.removeIpc] else []) ++ [.destroyRuntimeDir]

def dropLogin (sid : SessionId) (u : UserRecord) : UserRecord :=
  let ids := u.sessionIds.filter (· ≠ sid)
  { u with
    sessionIds := ids
    state := if ids = [] then (if u.linger then .lingering else .closing) else u.state }

def logout (um : UserManager) (uid : Uid) (sid : SessionId) (config : LogindConfig) : UserManager :=
  match um.users.get? uid with
  | none => um
  | some u =>
    let u := dropLogin sid u
    if u.sessionIds = [] ∧ u.linger = false then
      { um.removeUser uid with cleanups := um.cleanups ++ [cleanupOf config u] }
    else um.setUser u

def lingerName (uid : Uid) : String := toString uid.toNat

/-- The file is written or removed before the record is looked at. -/
def persistLinger (um : UserManager) (uid : Uid) (enable : Bool) (answers : LingerAnswers) :
    Except String Unit × UserManager :=
  match answers.createDirAll with
  | .error e => (.error ("create linger dir: " ++ e), um)
  | .ok _ =>
    if enable then
      match answers.write with
      | .error e => (.error ("write linger file: " ++ e), um)
      | .ok _ => (.ok (), { um with lingerFiles := addName (lingerName uid) um.lingerFiles })
    else if answers.removed then
      (.ok (), { um with lingerFiles := um.lingerFiles.filter (· ≠ lingerName uid) })
    else (.ok (), um)

/-- The record of a user that is to linger without being logged in. -/
def startLinger (um : UserManager) (uid : Uid) (now : ℕ) (answers : LingerAnswers) :
    Except String Unit × UserManager :=
  match answers.resolve uid with
  | none => (.ok (), um)
  | some username =>
    match um.createRuntimeDir uid answers.runtimeDir with
    | (.error e, um) => (.error e, um)
    | (.ok _, um) =>
      (.ok (), um.setUser { newRecord uid username now with linger := true, state := .lingering })

def setLinger (um : UserManager) (uid : Uid) (enable : Bool) (now : ℕ) (answers : LingerAnswers) :
    Except String Unit × UserManager :=
  match um.persistLinger uid enable answers with
  | (.error e, um) => (.error e, um)
  | (.ok _, um) =>
    match um.users.get? uid with
    | some u =>
      if enable = false ∧ u.sessionIds = [] then
        (.ok (), (um.destroyRuntimeDir uid answers.destroyed).removeUser uid)
      else (.ok (), um.setUser { u with linger := enable })
    | none => if enable then um.startLinger uid now answers else (.ok (), um)

def terminate (um : UserManager) (uid : Uid) (destroyed : Bool) : UserManager :=
  match um.users.get? uid with
  | some _ => (um.destroyRuntimeDir uid destroyed).removeUser uid
  | none => um

/-- A name that is no uid, or the uid of nobody, is passed over. -/
def loadLingerEntry (now : ℕ) (answers : Uid → LingerAnswers) (um : UserManager) (name : String) :
    UserManager :=
  match parseU32 name with
  | none => um
  | some n =>
    let uid := UInt32.ofNat n
    match (answers uid).resolve uid with
    | none => um
    | some _ => (um.setLinger uid true now (answers uid)).2

def loadLingerState (um : UserManager) (now : ℕ) (answers : Uid → LingerAnswers) : UserManager :=
  um.lingerFiles.foldl (loadLingerEntry now answers) um

/-- What every call of `set_linger` keeps, the load keeps. -/
theorem loadLingerState_invariant {p : UserManager → Prop} {now : ℕ}
    {answers : Uid → LingerAnswers}
    (h : ∀ um uid, p um → p (um.setLinger uid true now (answers uid)).2) {um : UserManager}
    (hum : p um) : p (um.loadLingerState now answers) := by
  refine List.foldlRecOn um.lingerFiles (loadLingerEntry now answers) hum fun um hum name _ => ?_
  unfold loadLingerEntry
  split
  · exact hum
  · dsimp only
    split
    · exact hum
    · exact h um _ hum

def all (um : UserManager) : List UserRecord :=
  um.users.rows.mergeSort fun a b => a.uid ≤ b.uid

end UserManager

/-- The calls that the handlers make on the manager, with the answers that each gets. -/
inductive UserCall
  | login (uid : Uid) (username : String) (sid : SessionId) (now : ℕ) (answers : DirAnswers)
  | logout (uid : Uid) (sid : SessionId)
  | setLinger (uid : Uid) (enable : Bool) (now : ℕ) (answers : LingerAnswers)
  | terminate (uid : Uid) (destroyed : Bool)

namespace UserManager

def after (config : LogindConfig) (um : UserManager) : UserCall → UserManager
  | .login uid username sid now answers => (um.login uid username sid now answers).2
  | .logout uid sid => um.logout uid sid config
  | .setLinger uid enable now answers => (um.setLinger uid enable now answers).2
  | .terminate uid destroyed => um.terminate uid destroyed

/-! What each operation can do to the manager. -/

/-- The directory can be made and set up. -/
def dirSucceeds (answers : DirAnswers) : Bool :=
  answers.createDirAll.isOk &&
    (answers.mounted || (answers.metadata.isOk && answers.setPermissions.isOk))

/-- The linger file can be written, or need not be. -/
def persists (enable : Bool) (answers : LingerAnswers) : Bool :=
  answers.createDirAll.isOk && (!enable || answers.write.isOk)

/-- A user that is not logged in can be given a record. -/
def canStart (uid : Uid) (answers : LingerAnswers) : Bool :=
  (answers.resolve uid).isSome && dirSucceeds answers.runtimeDir

/-- The linger files once those of `uid` are as `enable` wants them. -/
def filesAfter (um : UserManager) (uid : Uid) (enable : Bool) (answers : LingerAnswers) :
    List String :=
  if enable then addName (lingerName uid) um.lingerFiles
  else if answers.removed then um.lingerFiles.filter (· ≠ lingerName uid)
  else um.lingerFiles

section Cases
variable (um : UserManager) (uid : Uid)

theorem createRuntimeDir_cases (answers : DirAnswers) :
    ∃ dirs, (∀ k ∈ um.runtimeDirs, k ∈ dirs) ∧
      ((dirSucceeds answers = true ∧ uid ∈ dirs ∧
          um.createRuntimeDir uid answers = (.ok (), { um with runtimeDirs := dirs })) ∨
        (dirSucceeds answers = false ∧
          ∃ e, um.createRuntimeDir uid answers = (.error e, { um with runtimeDirs := dirs }))) := by
  obtain ⟨createDirAll, mounted, metadata, setPermissions⟩ := answers
  cases createDirAll with
  | error e => exact ⟨um.runtimeDirs, fun _ h => h, .inr ⟨rfl, _, rfl⟩⟩
  | ok _ =>
    have hmem : uid ∈ if uid ∈ um.runtimeDirs then um.runtimeDirs else um.runtimeDirs ++ [uid] := by
      split
      · assumption
      · simp
    refine ⟨if uid ∈ um.runtimeDirs then um.runtimeDirs else um.runtimeDirs ++ [uid], ?_, ?_⟩
    · intro k hk
      split
      · exact hk
      · exact List.mem_append_left _ hk
    · cases mounted with
      | true => exact .inl ⟨rfl, hmem, rfl⟩
      | false =>
        cases metadata with
        | error e => exact .inr ⟨rfl, _, rfl⟩
        | ok _ =>
          cases setPermissions with
          | error e => exact .inr ⟨rfl, _, rfl⟩
          | ok _ => exact .inl ⟨rfl, hmem, rfl⟩

/-- A login is one more of a user who has a record, or the first one; that fails without the runtime
directory. -/
theorem login_cases (username : String) (sid : SessionId) (now : ℕ) (answers : DirAnswers) :
    (∃ u, um.users.get? uid = some u ∧
      um.login uid username sid now answers = (.ok (), um.setUser (addLogin sid now u))) ∨
    (um.users.get? uid = none ∧ ∃ dirs, (∀ k ∈ um.runtimeDirs, k ∈ dirs) ∧
      ((dirSucceeds answers = true ∧ uid ∈ dirs ∧
          um.login uid username sid now answers =
            (.ok (), { um with runtimeDirs := dirs }.setUser
              { newRecord uid username now with sessionIds := [sid], state := .online })) ∨
        (dirSucceeds answers = false ∧ ∃ e,
          um.login uid username sid now answers = (.error e, { um with runtimeDirs := dirs })))) := by
  unfold login
  cases hget : um.users.get? uid with
  | some u => exact .inl ⟨u, rfl, rfl⟩
  | none =>
    obtain ⟨dirs, hsub, ⟨hok, hmem, heq⟩ | ⟨hfail, e, heq⟩⟩ := um.createRuntimeDir_cases uid answers
    · exact .inr ⟨rfl, dirs, hsub, .inl ⟨hok, hmem, by rw [heq]⟩⟩
    · exact .inr ⟨rfl, dirs, hsub, .inr ⟨hfail, e, by rw [heq]⟩⟩

/-- The last logout of a user that does not linger drops the record and starts a cleanup. -/
theorem logout_cases (sid : SessionId) (config : LogindConfig) :
    (um.users.get? uid = none ∧ um.logout uid sid config = um) ∨
    ∃ u, um.users.get? uid = some u ∧
      (((dropLogin sid u).sessionIds = [] ∧ u.linger = false ∧
          um.logout uid sid config =
            { um.removeUser uid with
              cleanups := um.cleanups ++ [cleanupOf config (dropLogin sid u)] }) ∨
        (((dropLogin sid u).sessionIds ≠ [] ∨ u.linger = true) ∧
          um.logout uid sid config = um.setUser (dropLogin sid u))) := by
  unfold logout
  cases hget : um.users.get? uid with
  | none => exact .inl ⟨rfl, rfl⟩
  | some u =>
    refine .inr ⟨u, rfl, ?_⟩
    dsimp only
    split
    · rename_i h
      exact .inl ⟨h.1, h.2, rfl⟩
    · rename_i h
      refine .inr ⟨?_, rfl⟩
      by_cases hnil : (dropLogin sid u).sessionIds = []
      · have hlinger : u.linger ≠ false := fun hlinger => h ⟨hnil, hlinger⟩
        exact .inr (by simpa using hlinger)
      · exact .inl hnil

theorem persistLinger_cases (enable : Bool) (answers : LingerAnswers) :
    (persists enable answers = true ∧
      um.persistLinger uid enable answers =
        (.ok (), { um with lingerFiles := um.filesAfter uid enable answers })) ∨
    (persists enable answers = false ∧
      ∃ e, um.persistLinger uid enable answers = (.error e, um)) := by
  unfold persistLinger persists filesAfter
  cases answers.createDirAll with
  | error e => exact .inr ⟨rfl, _, rfl⟩
  | ok _ =>
    cases enable with
    | true =>
      cases answers.write with
      | error e => exact .inr ⟨rfl, _, rfl⟩
      | ok _ => exact .inl ⟨rfl, rfl⟩
    | false => cases answers.removed <;> exact .inl ⟨rfl, rfl⟩

/-- What `set_linger` leaves: the manager as it was; the file, and a directory perhaps, for a user
that gets no record; a new record; the record removed; or the record changed. -/
inductive LingerDoes (um : UserManager) (uid : Uid) (enable : Bool) (now : ℕ)
    (answers : LingerAnswers) : UserManager → Prop
  | unpersisted (h : persists enable answers = false) : LingerDoes um uid enable now answers um
  | filed {dirs : List Uid} (h : persists enable answers = true) (hget : um.users.get? uid = none)
      (hno : (enable && canStart uid answers) = false) (hdirs : ∀ k ∈ um.runtimeDirs, k ∈ dirs) :
      LingerDoes um uid enable now answers
        { um with lingerFiles := um.filesAfter uid enable answers, runtimeDirs := dirs }
  | started {username : String} {dirs : List Uid} (h : persists enable answers = true)
      (hget : um.users.get? uid = none) (henable : enable = true) (hcan : canStart uid answers = true)
      (hdirs : ∀ k ∈ um.runtimeDirs, k ∈ dirs) (hmem : uid ∈ dirs) :
      LingerDoes um uid enable now answers
        (({ um with lingerFiles := um.filesAfter uid enable answers, runtimeDirs := dirs } :
          UserManager).setUser { newRecord uid username now with linger := true, state := .lingering })
  | stopped {u : UserRecord} {dirs : List Uid} (h : persists enable answers = true)
      (hget : um.users.get? uid = some u) (henable : enable = false) (hnone : u.sessionIds = [])
      (hdirs : ∀ k ∈ um.runtimeDirs, k ≠ uid → k ∈ dirs) :
      LingerDoes um uid enable now answers
        (({ um with lingerFiles := um.filesAfter uid enable answers, runtimeDirs := dirs } :
          UserManager).removeUser uid)
  | flagged {u : UserRecord} (h : persists enable answers = true)
      (hget : um.users.get? uid = some u) (hkeep : enable = true ∨ u.sessionIds ≠ []) :
      LingerDoes um uid enable now answers
        (({ um with lingerFiles := um.filesAfter uid enable answers } : UserManager).setUser
          { u with linger := enable })

theorem destroyRuntimeDir_eq (destroyed : Bool) :
    ∃ dirs, (∀ k ∈ um.runtimeDirs, k ≠ uid → k ∈ dirs) ∧
      um.destroyRuntimeDir uid destroyed = { um with runtimeDirs := dirs } := by
  cases destroyed with
  | false => exact ⟨um.runtimeDirs, fun _ h _ => h, rfl⟩
  | true => exact ⟨um.runtimeDirs.filter (· ≠ uid), fun k hk hne => by simp [hk, hne], rfl⟩

theorem lingerDoes_setLinger (enable : Bool) (now : ℕ) (answers : LingerAnswers) :
    LingerDoes um uid enable now answers (um.setLinger uid enable now answers).2 := by
  unfold setLinger
  obtain ⟨hp, heq⟩ | ⟨hp, e, heq⟩ := um.persistLinger_cases uid enable answers
  · rw [heq]
    dsimp only
    cases hget : um.users.get? uid with
    | some u =>
      dsimp only
      split
      · rename_i hstop
        obtain ⟨dirs, hdirs, hdestroy⟩ := destroyRuntimeDir_eq
          { um with lingerFiles := um.filesAfter uid enable answers } uid answers.destroyed
        rw [hdestroy]
        exact .stopped hp hget hstop.1 hstop.2 hdirs
      · rename_i hkeep
        refine .flagged hp hget ?_
        cases enable with
        | true => exact .inl rfl
        | false => exact .inr fun hnil => hkeep ⟨rfl, hnil⟩
    | none =>
      cases enable with
      | false => exact .filed hp hget rfl fun _ h => h
      | true =>
        dsimp only [startLinger, if_true]
        cases hresolve : answers.resolve uid with
        | none => exact .filed hp hget (by simp [canStart, hresolve]) fun _ h => h
        | some username =>
          obtain ⟨dirs, hdirs, ⟨hok, hmem, hdir⟩ | ⟨hfail, e, hdir⟩⟩ := createRuntimeDir_cases
            { um with lingerFiles := um.filesAfter uid true answers } uid answers.runtimeDir
          · simp only [hdir]
            exact .started hp hget rfl (by simp [canStart, hresolve, hok]) hdirs hmem
          · simp only [hdir]
            exact .filed hp hget (by simp [canStart, hfail]) hdirs
  · rw [heq]
    exact .unpersisted hp

theorem terminate_cases (destroyed : Bool) :
    (um.users.get? uid = none ∧ um.terminate uid destroyed = um) ∨
    ∃ u dirs, um.users.get? uid = some u ∧ (∀ k ∈ um.runtimeDirs, k ≠ uid → k ∈ dirs) ∧
      um.terminate uid destroyed = ({ um with runtimeDirs := dirs } : UserManager).removeUser uid := by
  unfold terminate
  cases hget : um.users.get? uid with
  | none => exact .inl ⟨rfl, rfl⟩
  | some u =>
    obtain ⟨dirs, hdirs, hdestroy⟩ := um.destroyRuntimeDir_eq uid destroyed
    exact .inr ⟨u, dirs, rfl, hdirs, by rw [hdestroy]⟩

end Cases

section Get
variable {um : UserManager} {uid k : Uid} {rec : UserRecord}

@[simp] theorem get?_setUser : (um.setUser rec).users.get? k =
    if k = rec.uid then some rec else um.users.get? k :=
  Table.get?_insert

@[simp] theorem get?_removeUser : (um.removeUser uid).users.get? k =
    if k = uid then none else um.users.get? k :=
  Table.get?_remove

/-! The other users are left alone. -/

theorem get?_logout_ne {sid : SessionId} {config : LogindConfig} (hk : k ≠ uid) :
    (um.logout uid sid config).users.get? k = um.users.get? k := by
  obtain ⟨-, heq⟩ | ⟨r, hget, ⟨-, -, heq⟩ | ⟨-, heq⟩⟩ := um.logout_cases uid sid config
  · rw [heq]
  · rw [heq]
    exact get?_removeUser.trans (if_neg hk)
  · have huid : (dropLogin sid r).uid = uid := Table.key_of_get? (a := r) hget
    rw [heq, get?_setUser, huid, if_neg hk]

theorem get?_setLinger_ne {enable : Bool} {now : ℕ} {answers : LingerAnswers} (hk : k ≠ uid) :
    (um.setLinger uid enable now answers).2.users.get? k = um.users.get? k := by
  have hdoes := um.lingerDoes_setLinger uid enable now answers
  generalize (um.setLinger uid enable now answers).2 = um' at hdoes
  cases hdoes with
  | unpersisted | filed => rfl
  | started => exact get?_setUser.trans (if_neg hk)
  | stopped => exact get?_removeUser.trans (if_neg hk)
  | @flagged r _ hget =>
    have huid : r.uid = uid := Table.key_of_get? hget
    exact get?_setUser.trans (if_neg (huid ▸ hk))

/-- The last logout of a user that does not linger. -/
def Drops (um : UserManager) (uid : Uid) (sid : SessionId) : Prop :=
  ∃ u, um.users.get? uid = some u ∧ (dropLogin sid u).sessionIds = [] ∧ u.linger = false

/-- A user without a record is made to linger. -/
def Starts (um : UserManager) (uid : Uid) (enable : Bool) (answers : LingerAnswers) : Prop :=
  um.users.get? uid = none ∧ enable = true ∧ persists enable answers = true ∧
    canStart uid answers = true

/-- A user without a session ceases to linger. -/
def Stops (um : UserManager) (uid : Uid) (enable : Bool) (answers : LingerAnswers) : Prop :=
  enable = false ∧ persists enable answers = true ∧
    ∃ u, um.users.get? uid = some u ∧ u.sessionIds = []

theorem Starts.not_stops {enable : Bool} {answers : LingerAnswers} (h : um.Starts uid enable answers) :
    ¬um.Stops uid enable answers := by
  intro hstops
  have htrue : enable = true := h.2.1
  rw [hstops.1] at htrue
  cases htrue

/-! Who has no record after each operation. -/

theorem get?_setUser_eq_none : (um.setUser rec).users.get? k = none ↔
    k ≠ rec.uid ∧ um.users.get? k = none := by
  rw [get?_setUser]
  split <;> simp [*]

theorem get?_removeUser_eq_none : (um.removeUser uid).users.get? k = none ↔
    k = uid ∨ um.users.get? k = none := by
  rw [get?_removeUser]
  split <;> simp [*]

@[simp] theorem addLogin_uid (sid : SessionId) (now : ℕ) (u : UserRecord) :
    (addLogin sid now u).uid = u.uid := by
  unfold addLogin
  split <;> rfl

theorem get?_login_eq_none {username : String} {sid : SessionId} {now : ℕ} {answers : DirAnswers} :
    (um.login uid username sid now answers).2.users.get? k = none ↔
      um.users.get? k = none ∧ (k = uid → dirSucceeds answers = false) := by
  obtain ⟨r, hget, heq⟩ | ⟨hget, dirs, -, ⟨hok, -, heq⟩ | ⟨hfail, e, heq⟩⟩ :=
    um.login_cases uid username sid now answers
  · rw [heq, get?_setUser_eq_none, addLogin_uid, Table.key_of_get? hget]
    by_cases hk : k = uid <;> simp [hk, hget]
  · rw [heq, get?_setUser_eq_none]
    by_cases hk : k = uid <;> simp [newRecord, hk, hok]
  · rw [heq]
    simp [hfail]

theorem get?_logout_eq_none {sid : SessionId} {config : LogindConfig} :
    (um.logout uid sid config).users.get? k = none ↔
      um.users.get? k = none ∨ (k = uid ∧ um.Drops uid sid) := by
  obtain ⟨hget, heq⟩ | ⟨r, hget, ⟨hnil, hlinger, heq⟩ | ⟨hkeep, heq⟩⟩ :=
    um.logout_cases uid sid config
  · rw [heq]
    simp [Drops, hget]
  · have hdrops : um.Drops uid sid := ⟨r, hget, hnil, hlinger⟩
    rw [heq]
    refine get?_removeUser_eq_none.trans ?_
    by_cases hk : k = uid <;> simp [hk, hdrops]
  · have hdrops : ¬um.Drops uid sid := by
      rintro ⟨r', hget', hnil, hlinger⟩
      rw [hget] at hget'
      cases hget'
      rcases hkeep with hne | hlinger'
      · exact hne hnil
      · rw [hlinger] at hlinger'
        cases hlinger'
    have huid : (dropLogin sid r).uid = uid := Table.key_of_get? (a := r) hget
    rw [heq, get?_setUser_eq_none, huid]
    by_cases hk : k = uid <;> simp [hk, hget, hdrops]

theorem get?_setLinger_eq_none {enable : Bool} {now : ℕ} {answers : LingerAnswers} :
    (um.setLinger uid enable now answers).2.users.get? k = none ↔
      (um.users.get? k = none ∧ ¬(k = uid ∧ um.Starts uid enable answers)) ∨
        (k = uid ∧ um.Stops uid enable answers) := by
  have hdoes := um.lingerDoes_setLinger uid enable now answers
  generalize (um.setLinger uid enable now answers).2 = um' at hdoes
  cases hdoes with
  | unpersisted hno => simp [Starts, Stops, hno]
  | filed h hget hno =>
    have hstarts : ¬um.Starts uid enable answers := by
      rintro ⟨-, henable, -, hcan⟩
      simp [henable, hcan] at hno
    simp [Stops, hget, hstarts]
  | started h hget henable hcan =>
    subst henable
    have hstarts : um.Starts uid true answers := ⟨hget, rfl, h, hcan⟩
    rw [get?_setUser_eq_none]
    by_cases hk : k = uid <;> simp [newRecord, hk, hstarts, Stops]
  | stopped h hget henable hnone =>
    have hstops : um.Stops uid enable answers := ⟨henable, h, _, hget, hnone⟩
    rw [get?_removeUser_eq_none]
    by_cases hk : k = uid <;> simp [hk, hstops]
  | @flagged r h hget hkeep =>
    have hstops : ¬um.Stops uid enable answers := by
      rintro ⟨henable, -, r', hget', hnil⟩
      rw [hget] at hget'
      cases hget'
      rcases hkeep with htrue | hne
      · rw [henable] at htrue
        cases htrue
      · exact hne hnil
    rw [get?_setUser_eq_none]
    have huid : r.uid = uid := Table.key_of_get? hget
    by_cases hk : k = uid <;> simp [hk, huid, hget, hstops]

theorem get?_terminate_eq_none {destroyed : Bool} :
    (um.terminate uid destroyed).users.get? k = none ↔ k = uid ∨ um.users.get? k = none := by
  obtain ⟨hget, heq⟩ | ⟨r, dirs, hget, -, heq⟩ := um.terminate_cases uid destroyed
  · rw [heq]
    refine ⟨.inr, ?_⟩
    rintro (rfl | hk)
    · exact hget
    · exact hk
  · rw [heq]
    exact get?_removeUser_eq_none

end Get

end UserManager

end Quantra.Logind
