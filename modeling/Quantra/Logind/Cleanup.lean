import Quantra.Lib.Runs
import Quantra.Logind.User

/-! When the cleanup that a logout has started can hit a user that is back. -/
namespace Quantra.Logind
open Runs

/-- A call on the manager, or the next act of the cleanup thread `i`; `removed` tells whether the
runtime directory could be removed. -/
inductive UserEvent
  | call (c : UserCall)
  | cleanup (i : ℕ) (removed : Bool)

namespace UserManager

/-- The directory is destroyed if it is there; the signals and the IPC objects are nothing that the
manager keeps. -/
def perform (um : UserManager) (uid : Uid) (removed : Bool) : CleanupAct → UserManager
  | .destroyRuntimeDir => if uid ∈ um.runtimeDirs then um.destroyRuntimeDir uid removed else um
  | _ => um

def cleanup (um : UserManager) (i : ℕ) (removed : Bool) : Option UserManager :=
  match um.cleanups[i]? with
  | some { uid, todo := act :: todo } =>
    some { um.perform uid removed act with cleanups := um.cleanups.set i { uid, todo } }
  | _ => none

def userStep (config : LogindConfig) (um : UserManager) : UserEvent → Option UserManager
  | .call c => some (um.after config c)
  | .cleanup i removed => um.cleanup i removed

def Live (um : UserManager) (u : Uid) : Prop :=
  ∃ r, um.users.get? u = some r ∧ (r.sessionIds ≠ [] ∨ r.linger = true)

/-- The act kills processes of the user or destroys the runtime directory. -/
def Harms (um : UserManager) (uid : Uid) : CleanupAct → Prop
  | .sigterm | .sigkill => True
  | .destroyRuntimeDir => uid ∈ um.runtimeDirs
  | .removeIpc => False

/-- A cleanup thread harms a user that has a session or lingers. -/
def Hits (um : UserManager) : UserEvent → Prop
  | .call _ => False
  | .cleanup i _ => ∃ uid act todo, um.cleanups[i]? = some { uid, todo := act :: todo } ∧
      um.Harms uid act ∧ um.Live uid

/-- Whenever the cleanup threads that there are go on, they hit nobody. -/
def Spares (config : LogindConfig) (um : UserManager) : Prop :=
  ∀ es, (∀ e ∈ es, ∃ i removed, e = UserEvent.cleanup i removed) →
    Meets (userStep config) (fun um e => ¬um.Hits e) um es

/-- Every cleanup of the user has come to its end. -/
def CleanedUp (um : UserManager) (u : Uid) : Prop := ∀ c ∈ um.cleanups, c.uid = u → c.todo = []

/-- A user gets a new record only when every cleanup of the old ones has come to its end. -/
def Waits (um : UserManager) : UserEvent → Prop
  | .call (.login uid _ _ _ answers) =>
    um.users.get? uid = none → dirSucceeds answers = true → um.CleanedUp uid
  | .call (.setLinger uid enable _ answers) => um.Starts uid enable answers → um.CleanedUp uid
  | _ => True

/-- Every record is of a user that has a session or lingers, and that has a runtime directory. -/
def Records (users : Table Uid UserRecord UserRecord.uid) (dirs : List Uid) : Prop :=
  ∀ u r, users.get? u = some r → (r.sessionIds ≠ [] ∨ r.linger = true) ∧ u ∈ dirs

/-- The last act of a cleanup is to destroy the directory. -/
structure Sound (um : UserManager) : Prop where
  records : Records um.users um.runtimeDirs
  todo : ∀ c ∈ um.cleanups, c.todo ≠ [] → ∃ acts, c.todo = acts ++ [.destroyRuntimeDir]

/-- No user has both a record and a cleanup that goes on. -/
def Apart (um : UserManager) : Prop :=
  ∀ c ∈ um.cleanups, c.todo ≠ [] → um.users.get? c.uid = none

section Records
variable {users : Table Uid UserRecord UserRecord.uid} {dirs dirs' : List Uid}

theorem Records.mono (h : Records users dirs) (hdirs : ∀ k ∈ dirs, k ∈ dirs') :
    Records users dirs' :=
  fun u r hget => ⟨(h u r hget).1, hdirs u (h u r hget).2⟩

theorem Records.insert {rec : UserRecord} (h : Records users dirs) (hdirs : ∀ k ∈ dirs, k ∈ dirs')
    (hlive : rec.sessionIds ≠ [] ∨ rec.linger = true) (hmem : rec.uid ∈ dirs') :
    Records (users.insert rec) dirs' := by
  intro u r hget
  rw [Table.get?_insert] at hget
  split at hget
  · rename_i hu
    cases hget
    exact ⟨hlive, hu ▸ hmem⟩
  · exact h.mono hdirs u r hget

theorem Records.remove {uid : Uid} (h : Records users dirs)
    (hdirs : ∀ k ∈ dirs, k ≠ uid → k ∈ dirs') : Records (users.remove uid) dirs' := by
  intro u r hget
  rw [Table.get?_remove] at hget
  split at hget
  · cases hget
  · rename_i hu
    exact ⟨(h u r hget).1, hdirs u (h u r hget).2 hu⟩

end Records

section Steps
variable {config : LogindConfig} {um um' : UserManager}

theorem todo_cleanupOf (config : LogindConfig) (r : UserRecord) :
    ∃ acts, (cleanupOf config r).todo = acts ++ [.destroyRuntimeDir] := ⟨_, rfl⟩

/-- Putting a changed record back. -/
theorem Records.setUser {uid : Uid} {r rec : UserRecord} (h : Records um.users um.runtimeDirs)
    (hget : um.users.get? uid = some r) (huid : rec.uid = r.uid)
    (hlive : rec.sessionIds ≠ [] ∨ rec.linger = true) :
    Records (um.setUser rec).users um.runtimeDirs := by
  refine h.insert (fun _ hk => hk) hlive ?_
  rw [huid, Table.key_of_get? hget]
  exact (h uid r hget).2

theorem Sound.after (h : um.Sound) (c : UserCall) : (um.after config c).Sound := by
  cases c with
  | login uid username sid now answers =>
    obtain ⟨r, hget, heq⟩ | ⟨hget, dirs, hdirs, ⟨hok, hmem, heq⟩ | ⟨hfail, e, heq⟩⟩ :=
      um.login_cases uid username sid now answers
    · simp only [UserManager.after, heq]
      refine ⟨h.records.setUser hget (addLogin_uid sid now r) (.inl ?_), h.todo⟩
      unfold addLogin
      split
      · rename_i hmem
        exact List.ne_nil_of_mem (List.contains_iff_mem.1 hmem)
      · simp
    · simp only [UserManager.after, heq]
      exact ⟨h.records.insert hdirs (.inl (by simp)) hmem, h.todo⟩
    · simp only [UserManager.after, heq]
      exact ⟨h.records.mono hdirs, h.todo⟩
  | logout uid sid =>
    obtain ⟨hget, heq⟩ | ⟨r, hget, ⟨hnil, hlinger, heq⟩ | ⟨hkeep, heq⟩⟩ :=
      um.logout_cases uid sid config
    · simp only [UserManager.after, heq]
      exact h
    · simp only [UserManager.after, heq]
      refine ⟨h.records.remove fun _ hk _ => hk, fun c hc hne => ?_⟩
      rcases List.mem_append.1 hc with hc | hc
      · exact h.todo c hc hne
      · rw [List.mem_singleton.1 hc]
        exact todo_cleanupOf config _
    · simp only [UserManager.after, heq]
      exact ⟨h.records.setUser hget rfl hkeep, h.todo⟩
  | setLinger uid enable now answers =>
    have hdoes := um.lingerDoes_setLinger uid enable now answers
    simp only [UserManager.after]
    generalize (um.setLinger uid enable now answers).2 = um' at hdoes
    cases hdoes with
    | unpersisted => exact h
    | filed _ _ _ hdirs => exact ⟨h.records.mono hdirs, h.todo⟩
    | started _ _ _ _ hdirs hmem => exact ⟨h.records.insert hdirs (.inr rfl) hmem, h.todo⟩
    | stopped _ _ _ _ hdirs => exact ⟨h.records.remove hdirs, h.todo⟩
    | @flagged r _ hget hkeep =>
      exact ⟨h.records.setUser hget rfl hkeep.symm, h.todo⟩
  | terminate uid destroyed =>
    obtain ⟨hget, heq⟩ | ⟨r, dirs, -, hdirs, heq⟩ := um.terminate_cases uid destroyed
    · simp only [UserManager.after, heq]
      exact h
    · simp only [UserManager.after, heq]
      exact ⟨h.records.remove hdirs, h.todo⟩

theorem perform_cases (uid : Uid) (removed : Bool) (act : CleanupAct) :
    ∃ dirs, (∀ k ∈ um.runtimeDirs, k ≠ uid ∨ act ≠ .destroyRuntimeDir → k ∈ dirs) ∧
      um.perform uid removed act = { um with runtimeDirs := dirs } := by
  cases act with
  | sigterm | sigkill | removeIpc => exact ⟨um.runtimeDirs, fun _ hk _ => hk, rfl⟩
  | destroyRuntimeDir =>
    by_cases hdir : uid ∈ um.runtimeDirs
    · obtain ⟨dirs, hdirs, heq⟩ := um.destroyRuntimeDir_eq uid removed
      refine ⟨dirs, fun k hk hne => hdirs k hk (hne.resolve_right (by simp)), ?_⟩
      rw [← heq]
      exact if_pos hdir
    · exact ⟨um.runtimeDirs, fun _ hk _ => hk, if_neg hdir⟩

/-- What one act of a cleanup thread can do. -/
theorem cleanup_cases {i : ℕ} {removed : Bool} (h : um.cleanup i removed = some um') :
    ∃ uid act todo dirs, um.cleanups[i]? = some { uid, todo := act :: todo } ∧
      (∀ k ∈ um.runtimeDirs, k ≠ uid ∨ act ≠ .destroyRuntimeDir → k ∈ dirs) ∧
      um' = { um with runtimeDirs := dirs, cleanups := um.cleanups.set i { uid, todo } } := by
  unfold cleanup at h
  split at h
  · rename_i uid act todo hget
    obtain ⟨dirs, hdirs, heq⟩ := um.perform_cases uid removed act
    rw [heq] at h
    cases h
    exact ⟨uid, act, todo, dirs, hget, hdirs, rfl⟩
  · cases h

/-- Cleanup threads only come closer to their end. -/
theorem mem_set_cleanups {i : ℕ} {uid : Uid} {act : CleanupAct} {todo : List CleanupAct}
    {c : Cleanup} (hget : um.cleanups[i]? = some { uid, todo := act :: todo })
    (hc : c ∈ um.cleanups.set i { uid, todo }) :
    c ∈ um.cleanups ∨ c = { uid, todo } ∧ ({ uid, todo := act :: todo } : Cleanup) ∈ um.cleanups := by
  rcases List.mem_or_eq_of_mem_set hc with hc | rfl
  · exact .inl hc
  · exact .inr ⟨rfl, List.mem_of_getElem? hget⟩

theorem Apart.cleanup {i : ℕ} {removed : Bool} (h : um.Apart)
    (hstep : um.cleanup i removed = some um') : um'.Apart := by
  obtain ⟨uid, act, todo, dirs, hget, -, rfl⟩ := cleanup_cases hstep
  intro c hc hne
  rcases mem_set_cleanups hget hc with hc | ⟨rfl, hold⟩
  · exact h c hc hne
  · exact h { uid, todo := act :: todo } hold (by simp)

theorem Sound.cleanup {i : ℕ} {removed : Bool} (h : um.Sound) (hapart : um.Apart)
    (hstep : um.cleanup i removed = some um') : um'.Sound := by
  obtain ⟨uid, act, todo, dirs, hget, hdirs, rfl⟩ := cleanup_cases hstep
  have hgone : um.users.get? uid = none := hapart _ (List.mem_of_getElem? hget) (by simp)
  constructor
  · intro u r hr
    refine ⟨(h.records u r hr).1, hdirs u (h.records u r hr).2 (.inl ?_)⟩
    rintro rfl
    rw [hgone] at hr
    cases hr
  · intro c hc hne
    rcases mem_set_cleanups hget hc with hc | ⟨rfl, hold⟩
    · exact h.todo c hc hne
    · obtain ⟨acts, hacts⟩ := h.todo _ hold (by simp)
      cases acts with
      | nil =>
        cases hacts
        exact absurd rfl hne
      | cons a acts =>
        cases hacts
        exact ⟨acts, rfl⟩

theorem Spares.cleanup {i : ℕ} {removed : Bool} (h : um.Spares config)
    (hstep : um.cleanup i removed = some um') : um'.Spares config := by
  intro es hes
  have hmeets := h (.cleanup i removed :: es) (List.forall_mem_cons.2 ⟨⟨i, removed, rfl⟩, hes⟩)
  exact (hmeets um' hstep).2

/-- A cleanup that goes on comes to the directory of a live user in the end. -/
theorem not_spares_of_live {i : ℕ} {uid : Uid} {acts : List CleanupAct} (hlive : um.Live uid)
    (hdir : uid ∈ um.runtimeDirs)
    (hget : um.cleanups[i]? = some { uid, todo := acts ++ [.destroyRuntimeDir] }) :
    ¬um.Spares config := by
  induction acts generalizing um with
  | nil =>
    intro h
    obtain ⟨um', hstep⟩ : ∃ um', um.cleanup i false = some um' := by
      simp [UserManager.cleanup, hget]
    have hmeets := h [.cleanup i false] (by simp)
    exact (hmeets um' hstep).1 ⟨uid, _, [], hget, hdir, hlive⟩
  | cons act acts ih =>
    intro h
    obtain ⟨um', hstep⟩ : ∃ um', um.cleanup i false = some um' := by
      simp [UserManager.cleanup, hget]
    obtain ⟨uid', act', todo, dirs, hget', hdirs, heq⟩ := cleanup_cases hstep
    rw [hget] at hget'
    cases hget'
    by_cases hact : act = .destroyRuntimeDir
    · have hmeets := h [.cleanup i false] (by simp)
      exact (hmeets um' hstep).1 ⟨uid, act, _, hget, hact ▸ hdir, hlive⟩
    · have hlive' : um'.Live uid := by
        rw [heq]
        exact hlive
      have hdir' : uid ∈ um'.runtimeDirs := by
        rw [heq]
        exact hdirs uid hdir (.inr hact)
      have hnext : um'.cleanups[i]? = some { uid, todo := acts ++ [.destroyRuntimeDir] } := by
        have hlength : i < um.cleanups.length := (List.getElem?_eq_some_iff.1 hget).1
        rw [heq]
        exact List.getElem?_set_self hlength
      exact ih hlive' hdir' hnext (h.cleanup hstep)

theorem Sound.spares_iff_apart (h : um.Sound) : um.Spares config ↔ um.Apart := by
  constructor
  · intro hspares c hc hne
    obtain ⟨acts, hacts⟩ := h.todo c hc hne
    obtain ⟨i, hi⟩ := List.mem_iff_getElem?.1 hc
    cases hrecord : um.users.get? c.uid with
    | none => rfl
    | some r =>
      obtain ⟨hlive, hdir⟩ := h.records c.uid r hrecord
      have hget : um.cleanups[i]? = some { uid := c.uid, todo := acts ++ [.destroyRuntimeDir] } := by
        rw [hi, ← hacts]
      exact absurd hspares (not_spares_of_live ⟨r, hrecord, hlive⟩ hdir hget)
  · intro hapart es hes
    induction es generalizing um with
    | nil => trivial
    | cons e es ih =>
      intro um' hstep
      obtain ⟨⟨i, removed, rfl⟩, hrest⟩ := List.forall_mem_cons.1 hes
      refine ⟨?_, ih (h.cleanup hapart hstep) (hapart.cleanup hstep) hrest⟩
      rintro ⟨uid, act, todo, hget, -, r, hr, -⟩
      have hgone : um.users.get? uid = none := hapart _ (List.mem_of_getElem? hget) (by simp)
      rw [hgone] at hr
      cases hr

theorem cleanups_login {uid : Uid} {username : String} {sid : SessionId} {now : ℕ}
    {answers : DirAnswers} : (um.login uid username sid now answers).2.cleanups = um.cleanups := by
  obtain ⟨r, -, heq⟩ | ⟨-, dirs, -, ⟨-, -, heq⟩ | ⟨-, e, heq⟩⟩ :=
    um.login_cases uid username sid now answers <;> rw [heq] <;> rfl

theorem cleanups_setLinger {uid : Uid} {enable : Bool} {now : ℕ} {answers : LingerAnswers} :
    (um.setLinger uid enable now answers).2.cleanups = um.cleanups := by
  have hdoes := um.lingerDoes_setLinger uid enable now answers
  generalize (um.setLinger uid enable now answers).2 = um' at hdoes
  cases hdoes <;> rfl

theorem cleanups_terminate {uid : Uid} {destroyed : Bool} :
    (um.terminate uid destroyed).cleanups = um.cleanups := by
  obtain ⟨-, heq⟩ | ⟨r, dirs, -, -, heq⟩ := um.terminate_cases uid destroyed
  · rw [heq]
  · rw [heq]
    rfl

theorem Apart.logout (h : um.Apart) (uid : Uid) (sid : SessionId) :
    (um.logout uid sid config).Apart := by
  intro c hc hne
  obtain ⟨-, heq⟩ | ⟨r, hget, ⟨hnil, hlinger, heq⟩ | ⟨-, heq⟩⟩ := um.logout_cases uid sid config
  · rw [heq] at hc
    exact get?_logout_eq_none.2 (.inl (h c hc hne))
  · rw [heq] at hc
    rcases List.mem_append.1 hc with hc | hc
    · exact get?_logout_eq_none.2 (.inl (h c hc hne))
    · rw [List.mem_singleton.1 hc]
      exact get?_logout_eq_none.2 (.inr ⟨Table.key_of_get? (a := r) hget, r, hget, hnil, hlinger⟩)
  · rw [heq] at hc
    exact get?_logout_eq_none.2 (.inl (h c hc hne))

theorem Apart.terminate (h : um.Apart) (uid : Uid) (destroyed : Bool) :
    (um.terminate uid destroyed).Apart := by
  intro c hc hne
  rw [cleanups_terminate] at hc
  exact get?_terminate_eq_none.2 (.inr (h c hc hne))

theorem Apart.step_iff {e : UserEvent} (h : um.Apart) (hstep : userStep config um e = some um') :
    um'.Apart ↔ um.Waits e := by
  cases e with
  | cleanup i removed => exact iff_of_true (h.cleanup hstep) trivial
  | call c =>
    cases hstep
    cases c with
    | logout uid sid => exact iff_of_true (h.logout uid sid) trivial
    | terminate uid destroyed => exact iff_of_true (h.terminate uid destroyed) trivial
    | login uid username sid now answers =>
      simp only [Apart, UserManager.after, cleanups_login, get?_login_eq_none]
      constructor
      · intro hafter _ hok c hc huid
        by_contra hne
        have hfail := (hafter c hc hne).2 huid
        rw [hok] at hfail
        cases hfail
      · intro hwaits c hc hne
        refine ⟨h c hc hne, fun huid => ?_⟩
        by_contra hok
        exact hne (hwaits (huid ▸ h c hc hne) (by simpa using hok) c hc huid)
    | setLinger uid enable now answers =>
      simp only [Apart, UserManager.after, cleanups_setLinger, get?_setLinger_eq_none]
      constructor
      · intro hafter hstarts c hc huid
        by_contra hne
        rcases hafter c hc hne with ⟨-, hnot⟩ | ⟨-, hstops⟩
        · exact hnot ⟨huid, hstarts⟩
        · exact hstarts.not_stops hstops
      · intro hwaits c hc hne
        exact .inl ⟨h c hc hne, fun hstarts => hne (hwaits hstarts.2 c hc hstarts.1)⟩

/-- The records of the users that linger are made before any session is opened. -/
theorem sound_loadLingerState (files : List String) (dirs : List Uid) (now : ℕ)
    (answers : Uid → LingerAnswers) :
    ((new files dirs).loadLingerState now answers).Sound ∧
      ((new files dirs).loadLingerState now answers).cleanups = [] := by
  have hnew : (new files dirs).Sound ∧ (new files dirs).cleanups = [] :=
    ⟨⟨fun u r hget => by simp [new] at hget, by simp [new]⟩, rfl⟩
  refine loadLingerState_invariant (p := fun um => um.Sound ∧ um.cleanups = []) ?_ hnew
  intro um uid h
  have hafter : (um.after {} (.setLinger uid true now (answers uid))).Sound := h.1.after _
  exact ⟨hafter, cleanups_setLinger.trans h.2⟩

end Steps

/-- In a run in which a user gets a new record, by a login or by `set_linger`, only when every cleanup
that an earlier logout of that user has started has come to its end, no cleanup hits a user that has
a session or lingers; and only in such a run do the cleanups hit nobody however long they take. -/
theorem spares_iff (config : LogindConfig) (files : List String) (dirs : List Uid) (now : ℕ)
    (answers : Uid → LingerAnswers) (es : List UserEvent) :
    (Meets (userStep config) Waits ((new files dirs).loadLingerState now answers) es →
      Meets (userStep config) (fun um e => ¬um.Hits e)
        ((new files dirs).loadLingerState now answers) es) ∧
    (Always (userStep config) (Spares config) ((new files dirs).loadLingerState now answers) es ↔
      Meets (userStep config) Waits ((new files dirs).loadLingerState now answers) es) := by
  obtain ⟨hsound, hnone⟩ := sound_loadLingerState files dirs now answers
  have hapart : ((new files dirs).loadLingerState now answers).Apart := by
    intro c hc
    rw [hnone] at hc
    cases hc
  have hkeep : ∀ {um um' : UserManager} {e : UserEvent}, um.Sound → um.Spares config →
      userStep config um e = some um' → um'.Sound := by
    intro um um' e h hspares hstep
    cases e with
    | call c =>
      cases hstep
      exact h.after c
    | cleanup i removed => exact h.cleanup (h.spares_iff_apart.1 hspares) hstep
  have hiff : Always (userStep config) (Spares config)
      ((new files dirs).loadLingerState now answers) es ↔
        Meets (userStep config) Waits ((new files dirs).loadLingerState now answers) es := by
    refine always_iff_meets_of_invariant (fun h hspares _ => hkeep h hspares) ?_ hsound
      (hsound.spares_iff_apart.2 hapart) es
    intro um um' e h hspares hstep
    rw [(hkeep h hspares hstep).spares_iff_apart]
    exact (h.spares_iff_apart.1 hspares).step_iff hstep
  refine ⟨fun hwaits => (hiff.2 hwaits).meets ?_, hiff⟩
  intro um um' e hspares hstep
  cases e with
  | call c => exact fun h => h
  | cleanup i removed =>
    have hmeets := hspares [.cleanup i removed] fun e he => ⟨i, removed, List.mem_singleton.1 he⟩
    exact (hmeets um' hstep).1

/-- A user logs out and in again before the cleanup has run, and loses the runtime directory. -/
theorem not_spares_login_again :
    ¬Meets (userStep {}) (fun um e => ¬um.Hits e) (new [] [])
      [.call (.login 1000 "alice" 1 0 {}), .call (.logout 1000 1),
        .call (.login 1000 "alice" 2 0 {}), .cleanup 0 true, .cleanup 0 true] := by
  intro h
  have hlast := (((h _ rfl).2 _ rfl).2 _ rfl).2 _ rfl
  exact (hlast.2 _ rfl).1 ⟨1000, .destroyRuntimeDir, [], rfl, by unfold Harms; decide, _, rfl,
    .inl (by decide)⟩

end UserManager

end Quantra.Logind
