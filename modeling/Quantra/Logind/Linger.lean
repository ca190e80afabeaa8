import Quantra.Lib.Runs
import Quantra.Logind.User

/-! Whether the users that linger are those that have a linger file, while the file operations
succeed and every uid has a name. -/
namespace Quantra.Logind
open Runs Text

/-- Every call of `set_linger` succeeds, and every uid is resolved. -/
structure LingerAnswers.Succeed (answers : LingerAnswers) : Prop where
  persists : ∀ enable, UserManager.persists enable answers = true
  removed : answers.removed = true
  canStart : ∀ uid, UserManager.canStart uid answers = true

def UserCall.Succeeds : UserCall → Prop
  | .login _ _ _ _ answers => UserManager.dirSucceeds answers = true
  | .setLinger _ _ _ answers => answers.Succeed
  | _ => True

abbrev WorkingCall := { c : UserCall // c.Succeeds }

namespace UserManager

def Lingers (um : UserManager) (u : Uid) : Prop := ∃ r, um.users.get? u = some r ∧ r.linger = true

def LingerAgrees (um : UserManager) : Prop :=
  ∀ u, um.Lingers u ↔ lingerName u ∈ um.lingerFiles

def lingerStep (config : LogindConfig) (um : UserManager) (c : WorkingCall) : Option UserManager :=
  some (um.after config c.1)

/-- Nobody that lingers is terminated. -/
def SparesLingering (um : UserManager) (c : WorkingCall) : Prop :=
  ∀ u destroyed, c.1 = .terminate u destroyed → ¬um.Lingers u

theorem parseU32_lingerName (u : Uid) : parseU32 (lingerName u) = some u.toNat :=
  parseU32_toDigits u.toNat_lt

theorem lingerName_inj {u v : Uid} : lingerName u = lingerName v ↔ u = v := by
  constructor
  · intro h
    have hparse := parseU32_lingerName u
    rw [h, parseU32_lingerName, Option.some.injEq] at hparse
    exact (UInt32.toNat_inj.1 hparse).symm
  · exact congrArg lingerName

section Lingers
variable {um : UserManager} {uid u : Uid}

theorem lingers_setUser {rec : UserRecord} :
    (um.setUser rec).Lingers u ↔ if u = rec.uid then rec.linger = true else um.Lingers u := by
  unfold Lingers
  rw [get?_setUser]
  split <;> simp

theorem lingers_removeUser : (um.removeUser uid).Lingers u ↔ u ≠ uid ∧ um.Lingers u := by
  unfold Lingers
  rw [get?_removeUser]
  split <;> simp [*]

/-- A record that is put back with the flag it had changes nothing. -/
theorem lingers_setUser_of_get? {r rec : UserRecord} (hget : um.users.get? uid = some r)
    (hkey : rec.uid = r.uid) (hlinger : rec.linger = r.linger) :
    (um.setUser rec).Lingers u ↔ um.Lingers u := by
  have huid : r.uid = uid := Table.key_of_get? hget
  rw [lingers_setUser, hkey, huid, hlinger]
  split
  · rename_i hu
    simp [Lingers, hu, hget]
  · rfl

theorem lingers_login (username : String) (sid : SessionId) (now : ℕ) (answers : DirAnswers) :
    (um.login uid username sid now answers).2.Lingers u ↔ um.Lingers u := by
  obtain ⟨r, hget, heq⟩ | ⟨hget, dirs, -, ⟨-, -, heq⟩ | ⟨-, e, heq⟩⟩ :=
    um.login_cases uid username sid now answers
  · rw [heq]
    apply lingers_setUser_of_get? hget <;> (unfold addLogin; split <;> rfl)
  · rw [heq, lingers_setUser]
    split
    · rename_i hu
      have huid : u = uid := hu
      simp [newRecord, Lingers, huid, hget]
    · rfl
  · rw [heq]
    rfl

theorem lingers_logout (sid : SessionId) (config : LogindConfig) :
    (um.logout uid sid config).Lingers u ↔ um.Lingers u := by
  obtain ⟨hget, heq⟩ | ⟨r, hget, ⟨-, hlinger, heq⟩ | ⟨-, heq⟩⟩ := um.logout_cases uid sid config
  · rw [heq]
  · rw [heq]
    have hgone : ¬um.Lingers uid := by simp [Lingers, hget, hlinger]
    refine lingers_removeUser.trans ⟨fun h => h.2, fun h => ⟨?_, h⟩⟩
    rintro rfl
    exact hgone h
  · rw [heq]
    exact lingers_setUser_of_get? hget rfl rfl

theorem lingerFiles_login (username : String) (sid : SessionId) (now : ℕ) (answers : DirAnswers) :
    (um.login uid username sid now answers).2.lingerFiles = um.lingerFiles := by
  obtain ⟨r, -, heq⟩ | ⟨-, dirs, -, ⟨-, -, heq⟩ | ⟨-, e, heq⟩⟩ :=
    um.login_cases uid username sid now answers <;> rw [heq] <;> rfl

theorem lingerFiles_logout (sid : SessionId) (config : LogindConfig) :
    (um.logout uid sid config).lingerFiles = um.lingerFiles := by
  obtain ⟨-, heq⟩ | ⟨r, -, ⟨-, -, heq⟩ | ⟨-, heq⟩⟩ := um.logout_cases uid sid config <;>
    rw [heq] <;> rfl

theorem lingers_setLinger {enable : Bool} {now : ℕ} {answers : LingerAnswers}
    (h : answers.Succeed) :
    (um.setLinger uid enable now answers).2.Lingers u ↔
      if u = uid then enable = true else um.Lingers u := by
  have hpersists := h.persists enable
  have hcan := h.canStart uid
  have hdoes := um.lingerDoes_setLinger uid enable now answers
  generalize (um.setLinger uid enable now answers).2 = um' at hdoes
  cases hdoes with
  | unpersisted hno => simp [hno] at hpersists
  | filed _ hget hno =>
    have henable : enable = false := by simpa [hcan] using hno
    subst henable
    split
    · rename_i hu
      simp [Lingers, hu, hget]
    · rfl
  | started _ _ henable =>
    rw [lingers_setUser, henable]
    rfl
  | stopped _ _ henable =>
    rw [lingers_removeUser, henable]
    split
    · rename_i hu
      simp [hu]
    · rename_i hu
      simp only [ne_eq, hu, not_false_eq_true, true_and]
      rfl
  | @flagged r _ hget =>
    have huid : r.uid = uid := Table.key_of_get? hget
    rw [lingers_setUser, ← huid]
    rfl

theorem lingerFiles_setLinger {enable : Bool} {now : ℕ} {answers : LingerAnswers}
    (h : answers.Succeed) :
    (um.setLinger uid enable now answers).2.lingerFiles = um.filesAfter uid enable answers := by
  have hpersists := h.persists enable
  have hdoes := um.lingerDoes_setLinger uid enable now answers
  generalize (um.setLinger uid enable now answers).2 = um' at hdoes
  cases hdoes with
  | unpersisted hno => simp [hno] at hpersists
  | filed | started | stopped | flagged => rfl

theorem mem_filesAfter {enable : Bool} {answers : LingerAnswers} (h : answers.Succeed) :
    lingerName u ∈ um.filesAfter uid enable answers ↔
      if u = uid then enable = true else lingerName u ∈ um.lingerFiles := by
  cases enable with
  | true =>
    have hadd : um.filesAfter uid true answers = addName (lingerName uid) um.lingerFiles := rfl
    rw [hadd, addName]
    split
    · rename_i hmem
      split
      · rename_i hu
        simp [hu, hmem]
      · rfl
    · simp only [List.mem_append, List.mem_singleton, lingerName_inj]
      split <;> simp [*]
  | false =>
    simp only [filesAfter, h.removed, Bool.false_eq_true, if_false, if_true, List.mem_filter,
      decide_eq_true_eq, ne_eq, lingerName_inj]
    split <;> simp [*]

theorem lingers_terminate (destroyed : Bool) :
    (um.terminate uid destroyed).Lingers u ↔ u ≠ uid ∧ um.Lingers u := by
  obtain ⟨hget, heq⟩ | ⟨r, dirs, -, -, heq⟩ := um.terminate_cases uid destroyed
  · rw [heq]
    refine ⟨fun h => ⟨?_, h⟩, fun h => h.2⟩
    rintro rfl
    simp [Lingers, hget] at h
  · rw [heq]
    exact lingers_removeUser

theorem lingerFiles_terminate (destroyed : Bool) :
    (um.terminate uid destroyed).lingerFiles = um.lingerFiles := by
  obtain ⟨-, heq⟩ | ⟨r, dirs, -, -, heq⟩ := um.terminate_cases uid destroyed
  · rw [heq]
  · rw [heq]
    rfl

/-- The flag and the file go together, except where a user that lingers is terminated. -/
theorem lingerAgrees_after_iff {config : LogindConfig} {c : WorkingCall} (h : um.LingerAgrees) :
    (um.after config c.1).LingerAgrees ↔ um.SparesLingering c := by
  obtain ⟨c, hc⟩ := c
  cases c with
  | login uid username sid now answers =>
    refine iff_of_true (fun u => ?_) (fun _ _ hne => by cases hne)
    simp only [after, lingers_login, lingerFiles_login]
    exact h u
  | logout uid sid =>
    refine iff_of_true (fun u => ?_) (fun _ _ hne => by cases hne)
    simp only [after, lingers_logout, lingerFiles_logout]
    exact h u
  | setLinger uid enable now answers =>
    refine iff_of_true (fun u => ?_) (fun _ _ hne => by cases hne)
    have hanswers : answers.Succeed := hc
    simp only [after, lingers_setLinger hanswers, lingerFiles_setLinger hanswers,
      mem_filesAfter hanswers]
    split
    · rfl
    · exact h u
  | terminate uid destroyed =>
    unfold LingerAgrees
    simp only [after, lingers_terminate, lingerFiles_terminate]
    constructor
    · rintro hafter u d hterminate hlingers
      cases hterminate
      exact ((hafter uid).2 ((h uid).1 hlingers)).1 rfl
    · intro hspares u
      rw [← h u, and_iff_right_iff_imp]
      rintro hlingers rfl
      exact hspares u destroyed rfl hlingers

/-- What the load of the linger files has reached when `names` are still to be read. -/
def LoadedBut (um : UserManager) (names : List String) : Prop :=
  ∀ u, (um.Lingers u → lingerName u ∈ um.lingerFiles) ∧
    (lingerName u ∈ um.lingerFiles → um.Lingers u ∨ lingerName u ∈ names)

theorem LoadedBut.entry {now : ℕ} {answers : Uid → LingerAnswers} {name : String}
    {names : List String} (hanswers : ∀ u, (answers u).Succeed) (h : um.LoadedBut (name :: names)) :
    (loadLingerEntry now answers um name).LoadedBut names := by
  unfold loadLingerEntry
  cases hparse : parseU32 name with
  | none =>
    refine fun u => ⟨(h u).1, fun hfile => ?_⟩
    rcases (h u).2 hfile with hlingers | hname
    · exact .inl hlingers
    · rcases List.mem_cons.1 hname with rfl | hname
      · rw [parseU32_lingerName] at hparse
        cases hparse
      · exact .inr hname
  | some n =>
    dsimp only
    have hresolve := (hanswers (UInt32.ofNat n)).canStart (UInt32.ofNat n)
    split
    · rename_i hnone
      simp [canStart, hnone] at hresolve
    · intro u
      simp only [lingers_setLinger (hanswers _), lingerFiles_setLinger (hanswers _),
        mem_filesAfter (hanswers _)]
      split
      · simp
      · rename_i hu
        refine ⟨(h u).1, fun hfile => ?_⟩
        rcases (h u).2 hfile with hlingers | hname
        · exact .inl hlingers
        · rcases List.mem_cons.1 hname with rfl | hname
          · rw [parseU32_lingerName, Option.some.injEq] at hparse
            rw [← hparse, UInt32.ofNat_toNat] at hu
            exact absurd rfl hu
          · exact .inr hname

theorem lingerAgrees_loadLingerState {files : List String} {dirs : List Uid} {now : ℕ}
    {answers : Uid → LingerAnswers} (hanswers : ∀ u, (answers u).Succeed) :
    ((new files dirs).loadLingerState now answers).LingerAgrees := by
  have hfold : ∀ (names : List String) (um : UserManager), um.LoadedBut names →
      (names.foldl (loadLingerEntry now answers) um).LoadedBut [] := by
    intro names
    induction names with
    | nil => exact fun _ h => h
    | cons name names ih => exact fun um h => ih _ (h.entry hanswers)
  have hloaded := hfold files (new files dirs) fun u => ⟨fun h => by simp [Lingers, new] at h, .inr⟩
  intro u
  constructor
  · exact (hloaded u).1
  · intro hfile
    exact ((hloaded u).2 hfile).resolve_right (by simp)

end Lingers

/-- From the load of any linger directory on, the flag and the file of every user agree exactly as
long as no user that lingers is terminated: that one loses the record and keeps the file. -/
theorem lingerAgrees_iff (config : LogindConfig) (files : List String) (dirs : List Uid) (now : ℕ)
    (answers : Uid → { a : LingerAnswers // a.Succeed }) (calls : List WorkingCall) :
    Always (lingerStep config) LingerAgrees
        ((new files dirs).loadLingerState now fun u => (answers u).1) calls ↔
      Meets (lingerStep config) SparesLingering
        ((new files dirs).loadLingerState now fun u => (answers u).1) calls := by
  refine always_iff_meets ?_ (lingerAgrees_loadLingerState fun u => (answers u).2) calls
  intro um um' c h hstep
  cases hstep
  exact lingerAgrees_after_iff h

/-- Answers that let everything succeed. -/
def allWell : LingerAnswers where
  resolve _ := some "alice"

/-- A user that lingers is terminated and logs in again: the file is there, the flag is not set. -/
theorem not_lingerAgrees_terminate_login :
    allWell.Succeed ∧
      ¬Always (lingerStep {}) LingerAgrees ((new ["1000"] []).loadLingerState 0 fun _ => allWell)
        [⟨.terminate 1000 true, trivial⟩, ⟨.login 1000 "alice" 1 0 {}, rfl⟩] := by
  refine ⟨⟨by decide, rfl, fun _ => rfl⟩, fun h => ?_⟩
  have hexec : exec (lingerStep {}) ((new ["1000"] []).loadLingerState 0 fun _ => allWell)
      [⟨.terminate 1000 true, trivial⟩, ⟨.login 1000 "alice" 1 0 {}, rfl⟩] = some _ := rfl
  obtain ⟨r, hget, hlinger⟩ := (h.last hexec 1000).2 (by decide)
  cases hget
  cases hlinger

end UserManager

end Quantra.Logind
