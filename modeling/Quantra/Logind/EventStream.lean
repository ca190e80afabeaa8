import Mathlib.Data.Finset.Insert
import Mathlib.Data.Finset.Erase
import Quantra.Logind.Delay
import Quantra.Logind.Stores

/-! Whether a listener that keeps a list of the sessions and of the users from the events has the
list that the managers have. -/
namespace Quantra.Logind
open Runs Locks Locks.Code

/-- What becomes of a `Subscribe`: the stream cannot be cloned, the acknowledgement cannot be sent, or
it is. -/
inductive Subscribing
  | notCloned
  | notAcked
  | acked
  deriving DecidableEq, Repr

/-- A request, with the connection that it comes on. -/
structure Sent extends Asked where
  conn : ℕ := 0
  subscribing : Subscribing := .acked

/-- What the requests so far have left: the state, and the locks that are never released again, since
who holds them sleeps, or waits for one of them. -/
structure Serving where
  state : State
  kept : List Lock := []

/-- A `Subscribe` that is acknowledged keeps the guard of the bus. -/
def Serving.subscribe (v : Serving) (a : Sent) : Serving :=
  match a.subscribing with
  | .notCloned => v
  | .notAcked =>
    { v with state.bus := (v.state.bus.push ⟨a.conn, a.peer⟩).note (.failed a.conn) }
  | .acked =>
    { state := { v.state with
        bus := (v.state.bus.push ⟨a.conn, a.peer⟩).note (.wrote a.conn .ack) }
      kept := .bus :: v.kept }

/-- `handle`, one request after another: each has ended or waits for ever when the next comes. -/
def Serving.handle (config : LogindConfig) (v : Serving) (a : Sent) : Option Serving :=
  match a.req with
  | .subscribe => some (if .bus ∈ v.kept then v else v.subscribe a)
  | req =>
    let (kept, state) := (dispatch config a.peer a.out req).attempt perform v.kept [] v.state
    some { state, kept }

/-- What a listener knows. -/
structure Known where
  sessions : Finset SessionId := ∅
  users : Finset Uid := ∅

/-- What is new must not be known, and what is removed must be. -/
def Known.tell (v : Known) : LogindEvent → Option Known
  | .sessionNew id _ _ =>
    if id ∈ v.sessions then none else some { v with sessions := insert id v.sessions }
  | .sessionRemoved id _ =>
    if id ∈ v.sessions then some { v with sessions := v.sessions.erase id } else none
  | .userNew u _ => if u ∈ v.users then none else some { v with users := insert u v.users }
  | .userRemoved u => if u ∈ v.users then some { v with users := v.users.erase u } else none
  | _ => some v

def replay (v : Known) (es : List LogindEvent) : Option Known := es.foldlM Known.tell v

/-- What the listener knows is what the managers hold. -/
structure Known.Matches (v : Known) (s : State) : Prop where
  sessions : ∀ id, id ∈ v.sessions ↔ s.sessions.sessions.get? id ≠ none
  users : ∀ u, u ∈ v.users ↔ s.users.users.get? u ≠ none

def Reconstructs (s : State) : Prop := ∃ v, replay {} s.bus.events = some v ∧ v.Matches s

/-- A session is opened for a user without a record only, one that can be logged in; the last session
of a user that does not linger is not closed, and no record comes or goes by other requests. -/
def Told (s : State) (a : Asked) : Prop :=
  Works s a.peer a.req →
    match a.req with
    | .openSession args => s.users.users.get? args.uid = none ∧
        UserManager.dirSucceeds a.out.dir = true
    | .closeSession id => ∀ uid, s.sessions.uidOf id = some uid → ¬s.users.Drops uid id
    | .setLinger uid enable => ¬s.users.Starts uid enable a.out.linger ∧
        ¬s.users.Stops uid enable a.out.linger
    | .terminateUser uid => s.users.users.get? uid = none
    | _ => True

/-- Once nothing can be broadcast any more, no session is opened or closed and no record comes or goes:
the request is refused, or waits before that for a lock that is kept. -/
def Withheld (v : Serving) (a : Asked) : Prop :=
  Works v.state a.peer a.req →
    match a.req with
    | .openSession _ => .sessions ∈ v.kept
    | .closeSession id => .sessions ∈ v.kept ∨ .seats ∈ v.kept ∧ v.state.sessions.seatOf id ≠ none
    | .setLinger uid enable => .users ∈ v.kept ∨ ¬v.state.users.Starts uid enable a.out.linger ∧
        ¬v.state.users.Stops uid enable a.out.linger
    | .terminateUser uid => .users ∈ v.kept ∨ v.state.users.users.get? uid = none
    | _ => True

/-- The events keep up with the request. -/
def KeepsUp (v : Serving) (a : Sent) : Prop :=
  if .bus ∈ v.kept then Withheld v a.toAsked else Told v.state a.toAsked

theorem replay_append (v : Known) (es es' : List LogindEvent) :
    replay v (es ++ es') = (replay v es).bind fun v' => replay v' es' := List.foldlM_append

/-- The other events tell nothing. -/
theorem replay_filter_tells (v : Known) (es : List LogindEvent) :
    replay v (es.filter LogindEvent.tells) = replay v es := by
  induction es generalizing v with
  | nil => rfl
  | cons e es ih =>
    have hcons : ∀ es', replay v (e :: es') = (v.tell e).bind fun v' => replay v' es' :=
      fun _ => List.foldlM_cons
    cases hcase : e.tells with
    | true =>
      rw [List.filter_cons_of_pos hcase, hcons, hcons]
      exact Option.bind_congr fun v' _ => ih v'
    | false =>
      have hnothing : v.tell e = some v := by
        cases e <;> first | rfl | cases hcase
      rw [List.filter_cons_of_neg (by simp [hcase]), ih, hcons, hnothing]
      rfl

section Steps
variable {s s' : State} {v : Known} {config : LogindConfig} {out : Outside}

/-- What a listener makes of the events that are new. -/
theorem reconstructs_iff_of_told {es : List LogindEvent} (hv : replay {} s.bus.events = some v)
    (htold : s'.bus.told = s.bus.told ++ es) :
    Reconstructs s' ↔ ∃ v', replay v es = some v' ∧ v'.Matches s' := by
  have hreplay : replay {} s'.bus.events = replay v es := by
    rw [← replay_filter_tells, ← EventBus.told, htold, replay_append, EventBus.told,
      replay_filter_tells, hv, Option.bind_some]
  unfold Reconstructs
  rw [hreplay]

/-- Nothing is told. -/
theorem Reconstructs.iff_of_untold (h : Reconstructs s) (htold : s'.bus.told = s.bus.told) :
    Reconstructs s' ↔ (∀ id, s'.sessions.uidOf id = none ↔ s.sessions.uidOf id = none) ∧
      ∀ u, s'.users.users.get? u = none ↔ s.users.users.get? u = none := by
  obtain ⟨v, hv, hmatches⟩ := h
  have hsilent : s'.bus.told = s.bus.told ++ [] := by rw [htold, List.append_nil]
  rw [reconstructs_iff_of_told hv hsilent]
  simp only [SessionManager.uidOf_eq_none]
  constructor
  · rintro ⟨v', hv', hafter⟩
    cases hv'
    exact ⟨fun id => not_iff_not.1 ((hafter.sessions id).symm.trans (hmatches.sessions id)),
      fun u => not_iff_not.1 ((hafter.users u).symm.trans (hmatches.users u))⟩
  · rintro ⟨hids, husers⟩
    refine ⟨v, rfl, fun id => ?_, fun u => ?_⟩
    · rw [hmatches.sessions, Ne, Ne, hids]
    · rw [hmatches.users, Ne, Ne, husers]

/-- Nothing is told, and the sessions are as they were. -/
theorem Reconstructs.iff_of_silent (h : Reconstructs s) (htold : s'.bus.told = s.bus.told)
    (hsessions : ∀ id, s'.sessions.uidOf id = s.sessions.uidOf id) :
    Reconstructs s' ↔ ∀ u, s'.users.users.get? u = none ↔ s.users.users.get? u = none := by
  rw [h.iff_of_untold htold, and_iff_right]
  intro id
  rw [hsessions]

theorem reconstructs_openSession_iff {args : OpenSession} (h : Reconstructs s) (hfresh : FreshIds s) :
    Reconstructs (s.handle config 0 (.openSession args) out).2 ↔
      s.users.users.get? args.uid = none ∧ UserManager.dirSucceeds out.dir = true := by
  obtain ⟨v, hv, hmatches⟩ := h
  have hnew : s.sessions.nextId ∉ v.sessions := by
    rw [hmatches.sessions, not_not]
    exact SessionManager.uidOf_eq_none.1 (hfresh _ le_rfl)
  have htold : ∀ um, s.users.login args.uid args.username s.sessions.nextId out.now out.dir =
      (.ok (), um) → (s.handle config 0 (.openSession args) out).2.bus.told = s.bus.told ++
        [.sessionNew s.sessions.nextId args.uid args.username, .userNew args.uid args.username] := by
    intro um heq
    rw [handle_openSession_ok heq]
    dsimp only
    rw [EventBus.told_broadcast, EventBus.told_broadcast, List.append_assoc]
    rfl
  have hreplay : replay v [.sessionNew s.sessions.nextId args.uid args.username,
      .userNew args.uid args.username] =
        if args.uid ∈ v.users then none
        else some ⟨insert s.sessions.nextId v.sessions, insert args.uid v.users⟩ := by
    by_cases hu : args.uid ∈ v.users <;> simp [replay, Known.tell, hnew, hu]
  obtain ⟨r, hget, heq⟩ | ⟨hget, dirs, -, ⟨hok, -, heq⟩ | ⟨hfail, e, heq⟩⟩ :=
    s.users.login_cases args.uid args.username s.sessions.nextId out.now out.dir
  · have hu : args.uid ∈ v.users := by simp [hmatches.users, hget]
    rw [reconstructs_iff_of_told hv (htold _ heq), hreplay, if_pos hu]
    simp [hget]
  · have hu : args.uid ∉ v.users := by simp [hmatches.users, hget]
    rw [reconstructs_iff_of_told hv (htold _ heq), hreplay, if_neg hu]
    refine iff_of_true ⟨_, rfl, fun id => ?_, fun u => ?_⟩ ⟨hget, hok⟩
    · rw [handle_openSession_ok heq]
      dsimp only
      rw [Finset.mem_insert, hmatches.sessions, SessionManager.get?_assignSeat,
        SessionManager.get?_open]
      by_cases hid : id = s.sessions.nextId <;> simp [hid]
    · rw [handle_openSession_ok heq, Finset.mem_insert, hmatches.users, Ne, Ne,
        UserManager.get?_setUser_eq_none]
      by_cases hid : u = args.uid <;> simp [UserManager.newRecord, hid]
  · refine iff_of_false ?_ fun hok => by simp [hfail] at hok
    have hsilent : (s.handle config 0 (.openSession args) out).2.bus.told = s.bus.told ++ [] := by
      rw [handle_openSession_error heq, List.append_nil]
    rw [reconstructs_iff_of_told hv hsilent]
    rintro ⟨v', hv', hafter⟩
    cases hv'
    refine hnew ((hafter.sessions _).2 ?_)
    rw [handle_openSession_error heq]
    simp

theorem reconstructs_closeSession_iff {peer : Uid} {id : SessionId} {x : Session} (h : Reconstructs s)
    (hx : s.sessions.sessions.get? id = some x) (hpeer : ¬(peer ≠ 0 ∧ peer ≠ x.uid)) :
    Reconstructs (s.handle config peer (.closeSession id) out).2 ↔ ¬s.users.Drops x.uid id := by
  obtain ⟨v, hv, hmatches⟩ := h
  have hid : id ∈ v.sessions := by simp [hmatches.sessions, hx]
  have htold : (s.handle config peer (.closeSession id) out).2.bus.told =
      s.bus.told ++ [LogindEvent.sessionRemoved id x.uid] := by
    rw [handle_closeSession hx hpeer]
    simp [EventBus.told_broadcast, LogindEvent.tells]
  have hreplay : replay v [.sessionRemoved id x.uid] =
      some { v with sessions := v.sessions.erase id } := by
    simp [replay, Known.tell, hid]
  rw [reconstructs_iff_of_told hv htold, hreplay, handle_closeSession hx hpeer]
  constructor
  · rintro ⟨v', hv', hafter⟩ hdrops
    cases hv'
    have hgone : (s.users.logout x.uid id config).users.get? x.uid = none :=
      UserManager.get?_logout_eq_none.2 (.inr ⟨rfl, hdrops⟩)
    obtain ⟨r, hget, -⟩ := hdrops
    have hu : x.uid ∈ v.users := by simp [hmatches.users, hget]
    exact (hafter.users x.uid).1 hu hgone
  · intro hkept
    refine ⟨_, rfl, fun k => ?_, fun u => ?_⟩
    · dsimp only
      rw [Finset.mem_erase, hmatches.sessions, SessionManager.get?_close]
      by_cases hk : k = id <;> simp [hk]
    · dsimp only
      rw [hmatches.users, Ne, Ne, UserManager.get?_logout_eq_none]
      simp [hkept]

theorem setLinger_eq_none_iff {uid : Uid} {enable : Bool} {now : ℕ} {answers : LingerAnswers}
    {um : UserManager} :
    (∀ u, (um.setLinger uid enable now answers).2.users.get? u = none ↔ um.users.get? u = none) ↔
      ¬um.Starts uid enable answers ∧ ¬um.Stops uid enable answers := by
  simp only [UserManager.get?_setLinger_eq_none]
  constructor
  · intro h
    constructor
    · intro hstarts
      rcases (h uid).2 hstarts.1 with ⟨-, hnot⟩ | ⟨-, hstops⟩
      · exact hnot ⟨rfl, hstarts⟩
      · exact hstarts.not_stops hstops
    · intro hstops
      have hnone := (h uid).1 (.inr ⟨rfl, hstops⟩)
      obtain ⟨-, -, r, hget, -⟩ := hstops
      rw [hnone] at hget
      cases hget
  · rintro ⟨hstarts, hstops⟩ u
    simp [hstarts, hstops]

theorem terminate_eq_none_iff {uid : Uid} {destroyed : Bool} {um : UserManager} :
    (∀ u, (um.terminate uid destroyed).users.get? u = none ↔ um.users.get? u = none) ↔
      um.users.get? uid = none := by
  simp only [UserManager.get?_terminate_eq_none]
  constructor
  · intro hnone
    exact (hnone uid).1 (.inl rfl)
  · intro hnone u
    refine ⟨?_, .inr⟩
    rintro (rfl | hu)
    · exact hnone
    · exact hu

theorem reconstructs_serve_iff {a : Asked} (h : Reconstructs s) (hfresh : FreshIds s) :
    Reconstructs (s.handle config a.peer a.req a.out).2 ↔ Told s a := by
  by_cases hworks : Works s a.peer a.req
  · rw [Told, imp_iff_right hworks]
    obtain ⟨peer, req, out⟩ := a
    dsimp only at hworks ⊢
    cases hworks with
    | openSession args => exact reconstructs_openSession_iff h hfresh
    | @closeSession _ id x hget hpeer =>
      rw [reconstructs_closeSession_iff h hget hpeer]
      simp [SessionManager.uidOf, hget]
    | activateSession hget =>
      obtain ⟨bus, htold, heq⟩ := handle_activateSession hget
      rw [heq, h.iff_of_silent htold fun _ => SessionManager.uidOf_activate]
      exact iff_of_true (fun _ => .rfl) trivial
    | activateSessionOnSeat hget hmem =>
      rw [handle_activateSessionOnSeat hget hmem]
      refine (h.iff_of_silent ?_ ?_).trans (iff_of_true (fun _ => .rfl) trivial)
      · rfl
      · exact fun _ => SessionManager.uidOf_activate
    | setLinger hpeer =>
      rw [handle_setLinger hpeer]
      refine (h.iff_of_silent ?_ ?_).trans setLinger_eq_none_iff
      · rfl
      · exact fun _ => rfl
    | terminateUser uid =>
      rw [handle_terminateUser]
      refine (h.iff_of_silent ?_ ?_).trans terminate_eq_none_iff
      · rfl
      · exact fun _ => rfl
  · have hsame := sameStores_of_not_works config a.out hworks
    rw [h.iff_of_silent hsame.told hsame.sessions.uidOf]
    exact iff_of_true (fun u => by rw [hsame.users]) fun h => absurd h hworks

end Steps

/-! A request that comes when the guard of the bus is kept. -/

/-- The calls that open or close no session, and give or take no record. -/
def Op.plain : Op → Bool
  | .openSession .. | .closeSession _ | .login .. | .logout .. | .setLinger .. | .terminate .. => false
  | _ => true

/-- Which sessions there are and of whom, the records and what has been told are as they were. -/
structure Unmoved (s s' : State) : Prop where
  uidOf : ∀ id, s'.sessions.uidOf id = s.sessions.uidOf id
  users : s'.users = s.users
  told : s'.bus.told = s.bus.told

theorem Unmoved.refl (s : State) : Unmoved s s := ⟨fun _ => rfl, rfl, rfl⟩

theorem Unmoved.trans {s t u : State} (h : Unmoved s t) (h' : Unmoved t u) : Unmoved s u :=
  ⟨fun id => (h'.uidOf id).trans (h.uidOf id), h'.users.trans h.users, h'.told.trans h.told⟩

open SessionManager in
theorem unmoved_perform {o : Op} (s : State) (hplain : o.plain = true) (hbus : .bus ∉ guards o) :
    Unmoved s (perform o s).2 := by
  have hview : ∀ {sm : SessionManager}, s.sessions.SameView sm →
      Unmoved s { s with sessions := sm } := fun hsame => ⟨hsame.uidOf, rfl, rfl⟩
  cases o with
  | openSession | closeSession | login | logout | setLinger | terminate => cases hplain
  | broadcast e writable => exact absurd (List.mem_singleton_self _) hbus
  | activateSession id => exact ⟨fun _ => uidOf_activate, rfl, rfl⟩
  | assignSeat id seat => exact ⟨fun _ => uidOf_assignSeat, rfl, rfl⟩
  | lockSession id => exact hview sameView_lock
  | unlockSession id => exact hview sameView_unlock
  | lockAll => exact hview sameView_lockAll
  | unlockAll => exact hview sameView_unlockAll
  | setIdleHint id idle now => exact hview sameView_setIdleHint
  | setLockedHint id locked => exact hview sameView_setLockedHint
  | idleTimer allIdle now threshold =>
    obtain ⟨since, heq⟩ := s.idleTimer_snd allIdle now threshold
    simp only [Logind.perform, heq]
    exact ⟨fun _ => rfl, rfl, rfl⟩
  | _ => exact ⟨fun _ => rfl, rfl, rfl⟩

section Plain
variable {kept : List Lock} {α β : Type}

/-- Every call that the program can come to is plain. -/
def Plain (kept : List Lock) (c : Handler α) : Prop := c.Makes kept fun o => o.plain = true

theorem plain_ret (a : α) : Plain kept (ret a) := trivial

theorem Plain.bind {c : Handler α} {f : α → Handler β} (hc : Plain kept c)
    (hf : ∀ a, Plain kept (f a)) : Plain kept (c >>= f) := Makes.bind hc hf

theorem plain_within {m : Lock} {o : Op} (h : o.plain = true) : Plain kept (within m o) :=
  makes_guarded h

theorem plain_broadcastEvent (out : Outside) (e : LogindEvent) :
    Plain kept (broadcastEvent out e) := plain_within rfl

theorem Plain.ite {p : Prop} [Decidable p] {c d : Handler α} (hc : Plain kept c)
    (hd : Plain kept d) : Plain kept (if p then c else d) := by
  split
  · exact hc
  · exact hd

theorem plain_within_ret {m : Lock} {o : Op} (h : o.plain = true) (f : Reply o → α) :
    Plain kept (within m o >>= fun r => pure (f r)) :=
  (plain_within h).bind fun r => plain_ret (f r)

theorem Plain.forSome {o : Option α} {f : α → Handler Unit} (hf : ∀ a, Plain kept (f a)) :
    Plain kept (forSome o f) := by
  cases o with
  | none => exact plain_ret ()
  | some a => exact hf a

theorem Plain.ignoring {c : Handler α} (hc : Plain kept c) : Plain kept (ignoring c) :=
  hc.bind fun _ => plain_ret ()

theorem plain_executePower (out : Outside) (c : PowerManager.PowerCall) (interactive : Bool) :
    Plain kept (executePower out c interactive) := fun _ _ => ⟨rfl, fun _ => trivial⟩

/-- The requests of which `Told` and `Withheld` ask something. -/
def Request.counts : Request → Bool
  | .openSession _ | .closeSession _ | .setLinger .. | .terminateUser _ => true
  | _ => false

theorem plain_dispatch (config : LogindConfig) (peer : Uid) (out : Outside) {req : Request}
    (h : req.counts = false) : Plain kept (dispatch config peer out req) := by
  cases req with
  | openSession | closeSession | setLinger | terminateUser => cases h
  | activateSession id =>
    refine (plain_within rfl).bind fun r => ?_
    cases r with
    | error e => exact plain_ret _
    | ok _ =>
      refine (plain_within rfl).bind fun seat => ?_
      refine Plain.bind (.forSome fun seat => (plain_within rfl).ignoring) fun _ => ?_
      refine (plain_within rfl).bind fun vt => ?_
      refine Plain.bind (.forSome fun n => ?_) fun _ => plain_ret _
      exact (plain_within rfl).ignoring.bind fun _ => plain_broadcastEvent _ _
  | lockSession id | unlockSession id =>
    refine (plain_within rfl).bind fun r => ?_
    cases r with
    | error e => exact plain_ret _
    | ok _ => exact (plain_broadcastEvent _ _).bind fun _ => plain_ret _
  | activateSessionOnSeat id seatId =>
    refine (plain_within rfl).bind fun r => ?_
    cases r with
    | error e => exact plain_ret _
    | ok _ => exact (plain_within rfl).ignoring.bind fun _ => plain_ret _
  | switchTo vt =>
    refine (plain_ret _).ite fun _ => ⟨rfl, fun r => ?_⟩
    cases r with
    | error e => trivial
    | ok _ => exact fun _ => ⟨rfl, fun _ => trivial⟩
  | getUser uid | listUsers => exact (plain_ret _).ite (plain_within_ret rfl _)
  | takeDevice seatId devpath =>
    refine (plain_ret _).ite ((plain_within rfl).bind fun r => ?_)
    cases r <;> exact plain_ret _
  | getBrightness subsystem name =>
    refine (plain_within rfl).bind fun r => ?_
    cases r <;> exact plain_ret _
  | releaseDevice seatId devpath => exact (plain_within rfl).ignoring.bind fun _ => plain_ret _
  | powerOff interactive | reboot interactive | rebootToFirmwareSetup interactive
  | halt interactive => exact (plain_ret _).ite (plain_executePower _ _ _)
  | suspend interactive | hibernate interactive | hybridSleep interactive
  | suspendThenHibernate interactive => exact plain_executePower _ _ _
  | setBrightness subsystem name value =>
    refine fun _ => ⟨rfl, fun r => ?_⟩
    cases r with
    | error e => trivial
    | ok _ => exact fun _ => ⟨rfl, fun _ => trivial⟩
  | scheduleShutdown action usec =>
    exact (plain_ret _).ite fun _ => ⟨rfl, fun _ _ => ⟨rfl, fun _ => trivial⟩⟩
  | status =>
    refine fun _ _ _ _ => ⟨rfl, fun _ => ⟨rfl, fun _ => ⟨rfl, fun _ => ⟨rfl, fun _ => ?_⟩⟩⟩⟩
    exact fun _ => ⟨rfl, fun _ _ => ⟨rfl, fun _ => trivial⟩⟩
  | subscribe | version => exact plain_ret _
  | lockSessions | unlockSessions | listSessions | getSession _ | getSessionByPid _
  | setIdleHint _ _ | setLockedHint _ _ | listSeats | getSeat _ | takeInhibitor _
  | releaseInhibitor _ | listInhibitors | canPowerOff | canReboot | canSuspend | canHibernate
  | canHybridSleep | canSuspendThenHibernate | cancelScheduledShutdown =>
    exact plain_within_ret rfl _

end Plain

section Kept
variable {s : State} {kept : List Lock} {config : LogindConfig} {out : Outside}

theorem unmoved_attempt {α : Type} {c : Handler α} (hbus : .bus ∈ kept) (hcovered : Covered c)
    (hplain : Plain kept c) : Unmoved s (c.attempt perform kept [] s).2 := by
  have hmakes := hplain.and (hcovered.makes (List.forall_mem_nil _))
  refine attempt_invariant (fun o t ho ht => ht.trans (unmoved_perform t ho.1 ?_)) hmakes (.refl s)
  exact fun hmem => ho.2 _ hmem hbus

theorem Reconstructs.iff_of_unmoved {s' : State} (h : Reconstructs s) (hsame : Unmoved s s') :
    Reconstructs s' := by
  rw [h.iff_of_silent hsame.told hsame.uidOf, hsame.users]
  exact fun _ => .rfl

/-- The session is opened, and nobody is told. -/
theorem reconstructs_openSession_kept {args : OpenSession} (h : Reconstructs s) (hfresh : FreshIds s)
    (hbus : .bus ∈ kept) :
    Reconstructs ((dispatch config 0 out (.openSession args)).attempt perform kept [] s).2 ↔
      .sessions ∈ kept := by
  have hnew : s.sessions.uidOf s.sessions.nextId = none := hfresh _ le_rfl
  -- as soon as the session is there, nothing can make up for it
  have hnot : ∀ t : State, t.bus = s.bus → t.sessions.uidOf s.sessions.nextId = some args.uid →
      ¬Reconstructs t := by
    intro t htold hopened hafter
    have hsame := ((h.iff_of_untold (by rw [htold])).1 hafter).1 s.sessions.nextId
    rw [hopened] at hsame
    cases hsame.2 hnew
  have hopened : (s.sessions.open_ args out.now).2.uidOf s.sessions.nextId = some args.uid := by
    rw [SessionManager.uidOf_open, if_pos rfl]
  simp only [dispatch, openSession, ne_eq, not_true_eq_false, if_false, within]
  by_cases hsessions : .sessions ∈ kept
  · rw [attempt_guarded_kept hsessions]
    exact iff_of_true h hsessions
  · refine iff_of_false ?_ hsessions
    rw [attempt_guarded hsessions]
    by_cases husers : .users ∈ kept
    · rw [attempt_guarded_kept husers]
      exact hnot _ rfl hopened
    · rw [attempt_guarded husers]
      split
      · exact hnot _ rfl hopened
      · by_cases hseats : .seats ∈ kept
        · rw [attempt_guarded_kept hseats]
          exact hnot _ rfl hopened
        · rw [attempt_guarded hseats, attempt_guarded hsessions, broadcastEvent, within,
            attempt_guarded_kept hbus]
          exact hnot _ rfl (SessionManager.uidOf_assignSeat.trans hopened)

/-- A call that changes nothing, and of which the answer is not used. -/
theorem attempt_forSome_read {α β : Type} {m : Lock} {o : Op} {a : Option α}
    {f : Unit → Handler β} (hm : m ∉ kept) (hread : ∀ s, (perform o s).2 = s) :
    (forSome a (fun _ => ignoring (Code.guarded m o)) >>= f).attempt perform kept [] s =
      (f ()).attempt perform kept [] s := by
  cases a with
  | none => rfl
  | some a =>
    rw [forSome, ignoring, bind_bind, attempt_guarded hm, hread]
    rfl

/-- What is left of `close_session` once the seat has been seen to. -/
def closeAndTell (config : LogindConfig) (out : Outside) (id : SessionId) (uid : Uid) :
    Handler Response := do
  match ← within .sessions (.closeSession id) with
  | .error e => pure (.err e)
  | .ok _ =>
    within .users (.logout uid id config)
    broadcastEvent out (.sessionRemoved id uid)
    pure .okEmpty

/-- The session is closed, and nobody is told. -/
theorem untold_closeAndTell {id : SessionId} {x : Session} {uid : Uid}
    (hx : s.sessions.sessions.get? id = some x) (hsessions : .sessions ∉ kept)
    (hbus : .bus ∈ kept) :
    ((closeAndTell config out id uid).attempt perform kept [] s).2.bus = s.bus ∧
      ((closeAndTell config out id uid).attempt perform kept [] s).2.sessions.uidOf id = none := by
  have hclose : (s.sessions.close id).1 = .ok () := by simp [SessionManager.close, hx]
  have hclosed : (s.sessions.close id).2.uidOf id = none := by
    rw [SessionManager.uidOf_close, if_pos rfl]
  rw [closeAndTell, within, attempt_guarded hsessions]
  simp only [perform, State.putSessions, hclose, within]
  by_cases husers : .users ∈ kept
  · rw [attempt_guarded_kept husers]
    exact ⟨rfl, hclosed⟩
  · rw [attempt_guarded husers, broadcastEvent, within, attempt_guarded_kept hbus]
    exact ⟨rfl, hclosed⟩

theorem reconstructs_closeSession_kept {peer : Uid} {id : SessionId} {x : Session}
    (h : Reconstructs s) (hx : s.sessions.sessions.get? id = some x)
    (hpeer : ¬(peer ≠ 0 ∧ peer ≠ x.uid)) (hbus : .bus ∈ kept) :
    Reconstructs ((dispatch config peer out (.closeSession id)).attempt perform kept [] s).2 ↔
      .sessions ∈ kept ∨ .seats ∈ kept ∧ s.sessions.seatOf id ≠ none := by
  have huid : s.sessions.uidOf id = some x.uid := by simp [SessionManager.uidOf, hx]
  by_cases hsessions : .sessions ∈ kept
  · simp only [dispatch, closeSession, within]
    rw [attempt_guarded_kept hsessions]
    exact iff_of_true h (.inl hsessions)
  · rw [or_iff_right hsessions]
    -- the clients still have the session
    have hend : ∀ t : State, t.bus = s.bus → t.sessions = s.sessions →
        ¬Reconstructs ((closeAndTell config out id x.uid).attempt perform kept [] t).2 := by
      intro t htold hsame hafter
      obtain ⟨htold', hclosed⟩ := @untold_closeAndTell t kept config out id x x.uid
        (hsame ▸ hx) hsessions hbus
      have hknown := (((h.iff_of_untold (by rw [htold', htold])).1 hafter).1 id).1 hclosed
      rw [huid] at hknown
      cases hknown
    simp only [dispatch, closeSession, within]
    rw [attempt_guarded hsessions, attempt_guarded hsessions]
    simp only [perform, huid, hpeer, if_false]
    rw [attempt_guarded hsessions]
    simp only [perform, hx, SessionManager.seatOf, Option.bind_some]
    rw [attempt_forSome_read hsessions fun _ => rfl]
    cases hseat : x.seat with
    | none => exact iff_of_false (hend s rfl rfl) fun h => h.2 rfl
    | some seat =>
      by_cases hseats : .seats ∈ kept
      · rw [forSome, attempt_guarded_kept hseats]
        exact iff_of_true h ⟨hseats, by simp⟩
      · rw [forSome, attempt_guarded hseats]
        exact iff_of_false (hend _ rfl rfl) fun h => hseats h.1

theorem reconstructs_setLinger_kept {peer uid : Uid} {enable : Bool} (h : Reconstructs s)
    (hpeer : ¬(peer ≠ 0 ∧ peer ≠ uid)) :
    Reconstructs ((dispatch config peer out (.setLinger uid enable)).attempt perform kept [] s).2 ↔
      .users ∈ kept ∨ ¬s.users.Starts uid enable out.linger ∧ ¬s.users.Stops uid enable out.linger := by
  simp only [dispatch, hpeer, if_false, within]
  by_cases husers : .users ∈ kept
  · rw [attempt_guarded_kept husers]
    exact iff_of_true h (.inl husers)
  · rw [attempt_guarded husers, or_iff_right husers, ← setLinger_eq_none_iff]
    exact h.iff_of_silent rfl fun _ => rfl

theorem reconstructs_terminateUser_kept {uid : Uid} (h : Reconstructs s) :
    Reconstructs ((dispatch config 0 out (.terminateUser uid)).attempt perform kept [] s).2 ↔
      .users ∈ kept ∨ s.users.users.get? uid = none := by
  simp only [dispatch, ne_eq, not_true_eq_false, if_false, within]
  by_cases husers : .users ∈ kept
  · rw [attempt_guarded_kept husers]
    exact iff_of_true h (.inl husers)
  · rw [attempt_guarded husers, or_iff_right husers, ← terminate_eq_none_iff]
    exact h.iff_of_silent rfl fun _ => rfl

/-- What is refused changes nothing, whether it waits before that or not. -/
theorem attempt_of_not_works {peer : Uid} {req : Request} (hcounts : req.counts = true)
    (h : ¬Works s peer req) : ((dispatch config peer out req).attempt perform kept [] s).2 = s := by
  cases req with
  | openSession args =>
    have hpeer : peer ≠ 0 := fun hpeer => h (hpeer ▸ .openSession args)
    simp [dispatch, openSession, hpeer]
  | closeSession id =>
    simp only [dispatch, closeSession, within]
    by_cases hsessions : .sessions ∈ kept
    · rw [attempt_guarded_kept hsessions]
    · rw [attempt_guarded hsessions, attempt_guarded hsessions]
      cases hget : s.sessions.sessions.get? id with
      | none => simp [perform, SessionManager.uidOf, hget]
      | some x =>
        have hpeer : peer ≠ 0 ∧ peer ≠ x.uid := by
          by_contra hpeer
          exact h (.closeSession hget hpeer)
        simp [perform, SessionManager.uidOf, hget, hpeer]
  | setLinger uid enable =>
    have hpeer : peer ≠ 0 ∧ peer ≠ uid := by
      by_contra hpeer
      exact h (.setLinger hpeer)
    simp [dispatch, hpeer]
  | terminateUser uid =>
    have hpeer : peer ≠ 0 := fun hpeer => h (hpeer ▸ .terminateUser uid)
    simp [dispatch, hpeer]
  | _ => cases hcounts

/-- What a request that comes when the bus is kept leaves. -/
theorem reconstructs_kept_iff {v : Serving} {a : Asked} (h : Reconstructs v.state)
    (hfresh : FreshIds v.state) (hbus : .bus ∈ v.kept) :
    Reconstructs ((dispatch config a.peer a.out a.req).attempt perform v.kept [] v.state).2 ↔
      Withheld v a := by
  have hplain : a.req.counts = false →
      Reconstructs ((dispatch config a.peer a.out a.req).attempt perform v.kept [] v.state).2 :=
    fun hcounts => h.iff_of_unmoved (unmoved_attempt hbus (covered_dispatch config a.peer a.out a.req)
      (plain_dispatch config a.peer a.out hcounts))
  by_cases hworks : Works v.state a.peer a.req
  · rw [Withheld, imp_iff_right hworks]
    obtain ⟨peer, req, out⟩ := a
    dsimp only at hworks hplain ⊢
    cases hworks with
    | openSession args => exact reconstructs_openSession_kept h hfresh hbus
    | closeSession hget hpeer => exact reconstructs_closeSession_kept h hget hpeer hbus
    | setLinger hpeer => exact reconstructs_setLinger_kept h hpeer
    | terminateUser uid => exact reconstructs_terminateUser_kept h
    | activateSession | activateSessionOnSeat => exact iff_of_true (hplain rfl) trivial
  · refine iff_of_true ?_ fun hworks' => absurd hworks' hworks
    cases hcounts : a.req.counts with
    | false => exact hplain hcounts
    | true =>
      rw [attempt_of_not_works hcounts hworks]
      exact h

end Kept

/-- No id is given twice, and the bus is kept if any lock is. -/
structure Serving.Sound (v : Serving) : Prop where
  fresh : FreshIds v.state
  bus : v.kept ≠ [] → .bus ∈ v.kept

theorem sound_init (config : LogindConfig) (boot : Boot) :
    Serving.Sound ⟨State.init config boot, []⟩ := ⟨fun _ _ => rfl, fun h => absurd rfl h⟩

section Handle
variable {v v' : Serving} {a : Sent} {config : LogindConfig}

/-- A `Subscribe` changes nothing of sessions and users, and tells nothing of them. -/
theorem Serving.unmoved_subscribe (v : Serving) (a : Sent) : Unmoved v.state (v.subscribe a).state := by
  unfold Serving.subscribe
  cases a.subscribing with
  | notCloned => exact .refl v.state
  | notAcked | acked =>
    refine ⟨fun _ => rfl, rfl, ?_⟩
    simp [EventBus.told, EventBus.events, EventBus.note, EventBus.push, broadcasts]

theorem Serving.handle_subscribe (h : a.req = .subscribe) :
    v.handle config a = some (if .bus ∈ v.kept then v else v.subscribe a) := by
  simp only [Serving.handle, h]

theorem Serving.handle_dispatch (h : a.req ≠ .subscribe) :
    v.handle config a =
      some ⟨((dispatch config a.peer a.out a.req).attempt perform v.kept [] v.state).2,
        ((dispatch config a.peer a.out a.req).attempt perform v.kept [] v.state).1⟩ := by
  unfold Serving.handle
  split
  · rename_i hreq
    exact absurd hreq h
  · rfl

theorem Serving.Sound.handle (h : v.Sound) (hstep : v.handle config a = some v') : v'.Sound := by
  by_cases hreq : a.req = .subscribe
  · rw [Serving.handle_subscribe hreq] at hstep
    cases hstep
    split
    · exact h
    · refine ⟨h.fresh.congr (v.unmoved_subscribe a).uidOf ?_, ?_⟩
      · unfold Serving.subscribe
        cases a.subscribing <;> rfl
      · unfold Serving.subscribe
        cases a.subscribing with
        | notCloned | notAcked => exact h.bus
        | acked => exact fun _ => List.mem_cons_self
  · rw [Serving.handle_dispatch hreq] at hstep
    cases hstep
    refine ⟨attempt_invariant (P := fun _ => True) (fun o s _ => FreshIds.perform o s)
      (makes_of_forall fun _ => trivial) h.fresh, ?_⟩
    intro hkept
    refine kept_subset_attempt (h.bus fun hnil => hkept ?_)
    dsimp only
    rw [hnil, attempt_nil (covered_dispatch config a.peer a.out a.req)]

theorem not_works_subscribe {s : State} {peer : Uid} : ¬Works s peer .subscribe := by
  rintro ⟨⟩

theorem reconstructs_handle_iff (hsound : v.Sound) (h : Reconstructs v.state)
    (hstep : v.handle config a = some v') : Reconstructs v'.state ↔ KeepsUp v a := by
  by_cases hreq : a.req = .subscribe
  · have hworks : ¬Works v.state a.peer a.req := by
      rw [hreq]
      exact not_works_subscribe
    rw [Serving.handle_subscribe hreq] at hstep
    cases hstep
    refine iff_of_true ?_ ?_
    · split
      · exact h
      · exact h.iff_of_unmoved (v.unmoved_subscribe a)
    · unfold KeepsUp
      split
      · exact fun hworks' => absurd hworks' hworks
      · exact fun hworks' => absurd hworks' hworks
  · rw [Serving.handle_dispatch hreq] at hstep
    cases hstep
    unfold KeepsUp
    split
    · rename_i hbus
      exact reconstructs_kept_iff h hsound.fresh hbus
    · rename_i hbus
      have hnil : v.kept = [] := by
        by_contra hkept
        exact hbus (hsound.bus hkept)
      rw [hnil, attempt_nil (covered_dispatch config a.peer a.out a.req)]
      exact reconstructs_serve_iff h hsound.fresh

end Handle

theorem reconstructs_init_iff (config : LogindConfig) (boot : Boot) :
    Reconstructs (State.init config boot) ↔
      ∀ u, (State.init config boot).users.users.get? u = none := by
  have hsession : ∀ id, (State.init config boot).sessions.sessions.get? id = none := fun _ => rfl
  constructor
  · rintro ⟨v, hv, hmatches⟩ u
    cases hv
    have hnot : u ∉ (∅ : Finset Uid) := Finset.notMem_empty u
    rw [hmatches.users u, not_not] at hnot
    exact hnot
  · intro hnone
    exact ⟨{}, rfl, fun id => by simp [hsession], fun u => by simp [hnone]⟩

theorem always_reconstructs_iff {config : LogindConfig} {boot : Boot} {es : List Sent}
    (hinit : Reconstructs (State.init config boot)) :
    Always (Serving.handle config) (fun v => Reconstructs v.state) ⟨State.init config boot, []⟩ es ↔
      Meets (Serving.handle config) KeepsUp ⟨State.init config boot, []⟩ es := by
  refine always_iff_meets_of_invariant (J := Serving.Sound) ?_ ?_ (sound_init config boot) hinit es
  · intro v v' a h _ _ hstep
    exact h.handle hstep
  · intro v v' a h hrec hstep
    exact reconstructs_handle_iff h hrec hstep

/-- The events tell of every session and every user, and of nothing else, exactly if no user lingers
when the program starts and every request after that is one that the events can keep up with: a user
is told again with each session, nobody is ever told to be gone, and once a `Subscribe` has been
acknowledged nothing is told at all. -/
theorem reconstructs_iff (config : LogindConfig) (boot : Boot) (es : List Sent) :
    Always (Serving.handle config) (fun v => Reconstructs v.state) ⟨State.init config boot, []⟩ es ↔
      (∀ u, (State.init config boot).users.users.get? u = none) ∧
        Meets (Serving.handle config) KeepsUp ⟨State.init config boot, []⟩ es := by
  rw [← reconstructs_init_iff]
  constructor
  · intro h
    exact ⟨h.first, (always_reconstructs_iff h.first).1 h⟩
  · rintro ⟨hinit, hmeets⟩
    exact (always_reconstructs_iff hinit).2 hmeets

/-- A user that opens and closes one session is never told to be gone. -/
theorem not_reconstructs_lastLogout :
    ¬Always (Serving.handle {}) (fun v => Reconstructs v.state) ⟨State.init {} {}, []⟩
      [{ toAsked := firstSession }, { peer := 0, req := .closeSession 1 }] := by
  intro h
  have hmeets := (always_reconstructs_iff h.first).1 h
  have hclose : KeepsUp _ _ := ((hmeets _ rfl).2 _ rfl).1
  exact hclose (.closeSession rfl (by simp)) 1000 rfl ⟨_, rfl, by decide, rfl⟩

end Quantra.Logind
