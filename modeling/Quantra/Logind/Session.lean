import Quantra.Logind.Types

/-! `session.rs`: the session manager. The cgroup scopes and the signals to session leaders, which
nothing else reads, are left out. -/
namespace Quantra.Logind
open Text

structure SessionManager where
  sessions : Table SessionId Session Session.id
  nextId : SessionId

namespace SessionManager

def new : SessionManager where
  sessions := .empty
  nextId := 1

def extractVtNumber (tty : String) : Option ℕ :=
  ((dropLead "/dev/tty" tty).or (dropLead "tty" tty)).bind parseU32

/-- The record that `open` makes under the id `id`. -/
def openedSession (id : SessionId) (args : OpenSession) (now : ℕ) : Session where
  id := id
  uid := args.uid
  username := args.username
  leaderPid := args.leaderPid
  sessionType := args.sessionType
  sessionClass := args.sessionClass
  createdAt := now
  tty := args.tty
  display := args.display
  remoteHost := args.remoteHost
  remoteUser := args.remoteUser
  remote := args.remoteHost.isSome
  service := args.service
  vtNumber := args.vt.or (args.tty.bind extractVtNumber)

def open_ (sm : SessionManager) (args : OpenSession) (now : ℕ) : SessionId × SessionManager :=
  (sm.nextId,
    { sessions := sm.sessions.insert (openedSession sm.nextId args now)
      nextId := sm.nextId + 1 })

def notFound (id : SessionId) : String := "session " ++ toString id ++ " not found"

/-- The row is changed if it is there; otherwise nothing is. -/
def alter (sm : SessionManager) (id : SessionId) (f : Session → Session)
    (hf : ∀ s, (f s).id = s.id) : Except String Unit × SessionManager :=
  match sm.sessions.get? id with
  | none => (.error (notFound id), sm)
  | some _ => (.ok (), { sm with sessions := sm.sessions.modify id f hf })

def close (sm : SessionManager) (id : SessionId) : Except String Unit × SessionManager :=
  match sm.sessions.get? id with
  | none => (.error (notFound id), sm)
  | some _ => (.ok (), { sm with sessions := sm.sessions.remove id })

/-- What activating `id`, whose seat is `seat`, makes of a session: the others on the seat, also of
no seat at all, go into the background. -/
def activated (id : SessionId) (seat : Option String) (s : Session) : Session :=
  if s.id = id then { s with state := .active }
  else if s.state = .active ∧ s.seat = seat then { s with state := .online }
  else s

@[simp] theorem activated_id (id : SessionId) (seat : Option String) (s : Session) :
    (activated id seat s).id = s.id := by
  unfold activated
  split
  · rfl
  · split <;> rfl

def activate (sm : SessionManager) (id : SessionId) : Except String Unit × SessionManager :=
  match sm.sessions.get? id with
  | none => (.error (notFound id), sm)
  | some target =>
    (.ok (), { sm with sessions := sm.sessions.map _ (activated_id id target.seat) })

def lock (sm : SessionManager) (id : SessionId) : Except String Unit × SessionManager :=
  sm.alter id (fun s => { s with lockedHint := true }) fun _ => rfl

def unlock (sm : SessionManager) (id : SessionId) : Except String Unit × SessionManager :=
  sm.alter id (fun s => { s with lockedHint := false }) fun _ => rfl

def lockAll (sm : SessionManager) : SessionManager :=
  (sm.sessions.rows.map Session.id).foldl (fun sm id => (sm.lock id).2) sm

def unlockAll (sm : SessionManager) : SessionManager :=
  (sm.sessions.rows.map Session.id).foldl (fun sm id => (sm.unlock id).2) sm

def setIdleHint (sm : SessionManager) (id : SessionId) (idle : Bool) (now : ℕ) :
    Except String Unit × SessionManager :=
  sm.alter id
    (fun s => { s with idleHint := idle, idleSince := if idle then some now else none }) fun _ => rfl

def setLockedHint (sm : SessionManager) (id : SessionId) (locked : Bool) :
    Except String Unit × SessionManager :=
  sm.alter id (fun s => { s with lockedHint := locked }) fun _ => rfl

def assignSeat (sm : SessionManager) (id : SessionId) (seat : String) : SessionManager :=
  { sm with sessions := sm.sessions.modify id (fun s => { s with seat := some seat }) fun _ => rfl }

def uidOf (sm : SessionManager) (id : SessionId) : Option Uid := (sm.sessions.get? id).map (·.uid)

def seatOf (sm : SessionManager) (id : SessionId) : Option String :=
  (sm.sessions.get? id).bind (·.seat)

def vtOf (sm : SessionManager) (id : SessionId) : Option ℕ :=
  (sm.sessions.get? id).bind (·.vtNumber)

def all (sm : SessionManager) : List Session :=
  sm.sessions.rows.mergeSort fun a b => a.id ≤ b.id

def contains (s sub : String) : Bool := s.toList.tails.any fun cs => sub.toList.isPrefixOf cs

/-- What `/proc` tells of a process: its cgroup and its parent. -/
structure ProcInfo where
  cgroup : Option String
  ppid : Option ℕ
  deriving DecidableEq, Repr

/-- The walk up the parents of `pid`; `procs` is what `/proc` tells of each process on the way. -/
def sessionByPid (sm : SessionManager) (pid : ℕ) (procs : List ProcInfo) : Option Session :=
  (sm.sessions.rows.find? fun s => s.leaderPid = pid).or <|
    match procs with
    | [] => none
    | info :: procs =>
      (info.cgroup.bind fun cgroup => sm.sessions.rows.find? fun s => contains cgroup s.scope).or <|
        info.ppid.bind fun ppid =>
          if ppid ≠ pid ∧ ppid > 1 then sm.sessionByPid ppid procs else none

/-! What each operation does to the session that an id finds. -/

section Get
variable {sm : SessionManager} {id k : SessionId}

@[simp] theorem get?_open {args : OpenSession} {now : ℕ} :
    (sm.open_ args now).2.sessions.get? k =
      if k = sm.nextId then some (openedSession sm.nextId args now) else sm.sessions.get? k :=
  Table.get?_insert

theorem get?_alter {f : Session → Session} {hf : ∀ s, (f s).id = s.id} :
    (sm.alter id f hf).2.sessions.get? k =
      if k = id then (sm.sessions.get? k).map f else sm.sessions.get? k := by
  unfold alter
  split
  · rename_i hnone
    split
    · rename_i hk
      rw [hk, hnone, Option.map_none]
    · rfl
  · exact Table.get?_modify hf

@[simp] theorem nextId_alter {f : Session → Session} {hf : ∀ s, (f s).id = s.id} :
    (sm.alter id f hf).2.nextId = sm.nextId := by
  unfold alter
  split <;> rfl

@[simp] theorem get?_close :
    (sm.close id).2.sessions.get? k = if k = id then none else sm.sessions.get? k := by
  unfold close
  split
  · rename_i hnone
    split
    · rename_i hk
      rw [hk, hnone]
    · rfl
  · exact Table.get?_remove

@[simp] theorem nextId_close : (sm.close id).2.nextId = sm.nextId := by
  unfold close
  split <;> rfl

theorem get?_activate : (sm.activate id).2.sessions.get? k =
    match sm.sessions.get? id with
    | none => sm.sessions.get? k
    | some target => (sm.sessions.get? k).map (activated id target.seat) := by
  unfold activate
  split
  · rfl
  · exact Table.get?_map (activated_id id _)

@[simp] theorem nextId_activate : (sm.activate id).2.nextId = sm.nextId := by
  unfold activate
  split <;> rfl

theorem activate_fst : (sm.activate id).1 =
    if (sm.sessions.get? id).isSome then .ok () else .error (notFound id) := by
  unfold activate
  split <;> simp [*]

@[simp] theorem get?_assignSeat {seat : String} : (sm.assignSeat id seat).sessions.get? k =
    if k = id then (sm.sessions.get? k).map fun s => { s with seat := some seat }
    else sm.sessions.get? k := by
  simp only [assignSeat, Table.get?_modify]

end Get

/-! What the manager tells of the user, the seat and the state of a session. -/

def stateOf (sm : SessionManager) (id : SessionId) : Option SessionState :=
  (sm.sessions.get? id).map (·.state)

/-- The managers give the same answers. -/
structure SameView (sm sm' : SessionManager) : Prop where
  uidOf : ∀ id, sm'.uidOf id = sm.uidOf id
  seatOf : ∀ id, sm'.seatOf id = sm.seatOf id
  stateOf : ∀ id, sm'.stateOf id = sm.stateOf id
  nextId : sm'.nextId = sm.nextId

section View
variable {sm sm' sm'' : SessionManager} {id k : SessionId}

theorem uidOf_eq_none : sm.uidOf id = none ↔ sm.sessions.get? id = none := Option.map_eq_none_iff

theorem seatOf_eq_none_of_uidOf (h : sm.uidOf id = none) : sm.seatOf id = none := by
  simp [seatOf, uidOf_eq_none.1 h]

theorem SameView.refl (sm : SessionManager) : SameView sm sm :=
  ⟨fun _ => rfl, fun _ => rfl, fun _ => rfl, rfl⟩

theorem SameView.trans (h : SameView sm sm') (h' : SameView sm' sm'') : SameView sm sm'' :=
  ⟨fun id => (h'.uidOf id).trans (h.uidOf id), fun id => (h'.seatOf id).trans (h.seatOf id),
    fun id => (h'.stateOf id).trans (h.stateOf id), h'.nextId.trans h.nextId⟩

/-- A change of the hints of one session. -/
theorem sameView_alter {f : Session → Session} {hf : ∀ x, (f x).id = x.id}
    (huid : ∀ x, (f x).uid = x.uid) (hseat : ∀ x, (f x).seat = x.seat)
    (hstate : ∀ x, (f x).state = x.state) : SameView sm (sm.alter id f hf).2 := by
  refine ⟨fun k => ?_, fun k => ?_, fun k => ?_, nextId_alter⟩
  · simp only [uidOf, get?_alter]
    cases sm.sessions.get? k <;> by_cases hk : k = id <;> simp [hk, huid]
  · simp only [seatOf, get?_alter]
    cases sm.sessions.get? k <;> by_cases hk : k = id <;> simp [hk, hseat]
  · simp only [stateOf, get?_alter]
    cases sm.sessions.get? k <;> by_cases hk : k = id <;> simp [hk, hstate]

theorem sameView_foldl {f : SessionManager → SessionId → SessionManager}
    (hf : ∀ sm id, SameView sm (f sm id)) (ids : List SessionId) (sm : SessionManager) :
    SameView sm (ids.foldl f sm) := by
  induction ids generalizing sm with
  | nil => exact .refl sm
  | cons id ids ih => exact (hf sm id).trans (ih _)

theorem sameView_lock : SameView sm (sm.lock id).2 :=
  sameView_alter (fun _ => rfl) (fun _ => rfl) fun _ => rfl

theorem sameView_unlock : SameView sm (sm.unlock id).2 :=
  sameView_alter (fun _ => rfl) (fun _ => rfl) fun _ => rfl

theorem sameView_lockAll : SameView sm sm.lockAll := sameView_foldl (fun _ _ => sameView_lock) _ sm

theorem sameView_unlockAll : SameView sm sm.unlockAll :=
  sameView_foldl (fun _ _ => sameView_unlock) _ sm

theorem sameView_setIdleHint {idle : Bool} {now : ℕ} :
    SameView sm (sm.setIdleHint id idle now).2 :=
  sameView_alter (fun _ => rfl) (fun _ => rfl) fun _ => rfl

theorem sameView_setLockedHint {locked : Bool} : SameView sm (sm.setLockedHint id locked).2 :=
  sameView_alter (fun _ => rfl) (fun _ => rfl) fun _ => rfl

section Open
variable {args : OpenSession} {now : ℕ} {seat : String}

theorem uidOf_open : (sm.open_ args now).2.uidOf k =
    if k = sm.nextId then some args.uid else sm.uidOf k := by
  unfold uidOf
  rw [get?_open]
  split <;> rfl

theorem seatOf_open : (sm.open_ args now).2.seatOf k =
    if k = sm.nextId then none else sm.seatOf k := by
  unfold seatOf
  rw [get?_open]
  split <;> rfl

theorem stateOf_open : (sm.open_ args now).2.stateOf k =
    if k = sm.nextId then some .online else sm.stateOf k := by
  unfold stateOf
  rw [get?_open]
  split <;> rfl

theorem uidOf_assignSeat : (sm.assignSeat id seat).uidOf k = sm.uidOf k := by
  dsimp only [uidOf, assignSeat]
  exact Table.map_get?_modify fun _ => rfl

theorem stateOf_assignSeat : (sm.assignSeat id seat).stateOf k = sm.stateOf k := by
  dsimp only [stateOf, assignSeat]
  exact Table.map_get?_modify fun _ => rfl

theorem seatOf_open_assignSeat : ((sm.open_ args now).2.assignSeat sm.nextId seat).seatOf k =
    if k = sm.nextId then some seat else sm.seatOf k := by
  unfold seatOf
  rw [get?_assignSeat, get?_open]
  split <;> rfl

theorem stateOf_open_assignSeat : ((sm.open_ args now).2.assignSeat sm.nextId seat).stateOf k =
    if k = sm.nextId then some .online else sm.stateOf k := by
  rw [stateOf_assignSeat, stateOf_open]

end Open

theorem uidOf_close : (sm.close id).2.uidOf k = if k = id then none else sm.uidOf k := by
  unfold uidOf
  rw [get?_close]
  split <;> rfl

theorem seatOf_close : (sm.close id).2.seatOf k = if k = id then none else sm.seatOf k := by
  unfold seatOf
  rw [get?_close]
  split <;> rfl

theorem stateOf_close : (sm.close id).2.stateOf k = if k = id then none else sm.stateOf k := by
  unfold stateOf
  rw [get?_close]
  split <;> rfl

/-- Activation leaves all but the state of a session. -/
theorem activated_eq (id : SessionId) (seat : Option String) (x : Session) :
    ∃ state, activated id seat x = { x with state := state } := by
  unfold activated
  split
  · exact ⟨_, rfl⟩
  · split
    · exact ⟨_, rfl⟩
    · exact ⟨x.state, rfl⟩

theorem uidOf_activate : (sm.activate id).2.uidOf k = sm.uidOf k := by
  unfold uidOf
  rw [get?_activate]
  split
  · rfl
  · rename_i target _
    rw [Option.map_map]
    refine Option.map_congr fun x _ => ?_
    obtain ⟨state, heq⟩ := activated_eq id target.seat x
    rw [Function.comp_apply, heq]

theorem seatOf_activate : (sm.activate id).2.seatOf k = sm.seatOf k := by
  unfold seatOf
  rw [get?_activate]
  split
  · rfl
  · rename_i target _
    rw [Option.bind_map]
    refine Option.bind_congr fun x _ => ?_
    obtain ⟨state, heq⟩ := activated_eq id target.seat x
    rw [Function.comp_apply, heq]

/-- After the activation of a session, the others that are active are elsewhere. -/
theorem stateOf_activate_eq_active {x : Session} (hget : sm.sessions.get? id = some x) :
    (sm.activate id).2.stateOf k = some .active ↔
      k = id ∨ (sm.stateOf k = some .active ∧ sm.seatOf k ≠ x.seat) := by
  unfold stateOf seatOf
  rw [get?_activate, hget]
  dsimp only
  cases hk : sm.sessions.get? k with
  | none =>
    have hne : k ≠ id := by
      rintro rfl
      rw [hk] at hget
      cases hget
    simp [hne]
  | some y =>
    have hy : y.id = k := Table.key_of_get? hk
    simp only [Option.map_some, Option.some.injEq, Option.bind_some, activated, hy]
    by_cases hid : k = id
    · simp [hid]
    · simp only [hid, if_false, false_or]
      split
      · rename_i hboth
        simp [hboth]
      · rename_i hboth
        constructor
        · intro hactive
          exact ⟨hactive, fun hseat => hboth ⟨hactive, hseat⟩⟩
        · exact fun h => h.1

end View

end SessionManager

end Quantra.Logind
