import Quantra.Logind.Stores

/-! What a request for a session that is answered with an error leaves behind, however the threads
are interleaved. -/
namespace Quantra.Logind
open Runs Locks Locks.Code

/-- The same sessions, the same listings of the seats and the same users. -/
structure SameRecords (s s' : State) : Prop where
  sessions : ∀ id, s'.sessions.sessions.get? id = s.sessions.sessions.get? id
  seats : ∀ k, (s'.seats.seats.get? k).map Seat.listing = (s.seats.seats.get? k).map Seat.listing
  users : ∀ u, s'.users.users.get? u = s.users.users.get? u

/-- A task, with the answer if it is a request. -/
def answer (config : LogindConfig) : Task → Handler (Option Response)
  | .request peer req out => do
    let r ← dispatch config peer out req
    pure (some r)
  | task => do
    program config task
    pure none

def answering (config : LogindConfig) :
    System Thread Lock Op Reply (Option Response) State Task where
  perform := perform
  program := answer config
  may := mayRun

/-- `OpenSession` and `CloseSession`. -/
def Task.onSession : Task → Bool
  | .request _ (.openSession _) _ | .request _ (.closeSession _) _ => true
  | _ => false

/-- The threads, which of them serve a session request, and whether a step of that request has
changed the records. -/
structure Watched where
  machine : Machine Thread Lock Op Reply (Option Response) State
  serving : Thread → Bool
  altered : Thread → Prop

namespace Watched

def init (config : LogindConfig) (boot : Boot) : Watched where
  machine := { shared := State.init config boot, code := fun _ => ret none, owner := fun _ => none }
  serving _ := false
  altered _ := False

def step (config : LogindConfig) (w : Watched) (e : Event Thread Task) : Option Watched :=
  ((answering config).step w.machine e).map fun machine =>
    match e with
    | .start t task =>
      { machine
        serving := Function.update w.serving t task.onSession
        altered := Function.update w.altered t False }
    | .run t =>
      { w with
        machine
        altered := Function.update w.altered t
          (w.altered t ∨ ¬SameRecords w.machine.shared machine.shared) }

end Watched

/-- A session request that has come to an error has changed nothing. -/
def Unaltered (w : Watched) : Prop :=
  ∀ t msg, w.serving t → (w.machine.code t).settled = some (some (.err msg)) → ¬w.altered t

/-- The user can be logged in; and the session is still there when it is closed, unless the request
has not changed anything before. -/
def Spares (s : State) (altered : Prop) : Op → Prop
  | .login uid _ _ _ answers => s.users.users.get? uid = none → UserManager.dirSucceeds answers = true
  | .closeSession id => s.sessions.sessions.get? id = none → ¬altered
  | _ => True

/-- A session request makes only calls that fail before anything is changed, or not at all. -/
def SparingStep (w : Watched) : Event Thread Task → Prop
  | .start _ _ => True
  | .run t => w.serving t → ∀ o next, w.machine.code t = .call o next →
      Spares w.machine.shared (w.altered t) o

/-- As far as the calls are sparing, the program does not come to an error after a change; and as
soon as one is not, it does. The other threads may change the state before each call. -/
def Guards : Handler (Option Response) → Prop → Prop
  | .ret r, altered => altered → ∀ msg, r ≠ some (.err msg)
  | .lock _ next, altered => Guards next altered
  | .unlock _ next, altered => Guards next altered
  | .call o next, altered => ∀ s, FreshIds s →
      (Spares s altered o →
        Guards (next (perform o s).1) (altered ∨ ¬SameRecords s (perform o s).2)) ∧
      (¬Spares s altered o → (altered ∨ ¬SameRecords s (perform o s).2) ∧
        ∃ msg, (next (perform o s).1).settled = some (some (.err msg)))

section Guards
variable {o : Op} {m : Lock} {altered : Prop} {s : State}

theorem SameRecords.refl (s : State) : SameRecords s s := ⟨fun _ => rfl, fun _ => rfl, fun _ => rfl⟩

theorem Guards.not_altered {c : Handler (Option Response)} (h : Guards c altered) {msg : String}
    (hsettled : c.settled = some (some (.err msg))) : ¬altered := by
  induction c with
  | ret r =>
    intro haltered
    exact h haltered msg (Option.some.inj hsettled)
  | lock m next => cases hsettled
  | unlock m next ih => exact ih h hsettled
  | call o next => cases hsettled

variable {f : Reply o → Handler (Option Response)}

theorem guards_within
    (hspares : ∀ s, FreshIds s → Spares s altered o →
      Guards (f (perform o s).1) (altered ∨ ¬SameRecords s (perform o s).2))
    (hnot : ∀ s, FreshIds s → ¬Spares s altered o → (altered ∨ ¬SameRecords s (perform o s).2) ∧
      ∃ msg, f (perform o s).1 = ret (some (.err msg))) :
    Guards (within m o >>= f) altered := by
  intro s hfresh
  refine ⟨hspares s hfresh, fun h => ?_⟩
  obtain ⟨haltered, msg, hmsg⟩ := hnot s hfresh h
  refine ⟨haltered, msg, ?_⟩
  change (f (perform o s).1).settled = _
  rw [hmsg]
  rfl

/-- A call that cannot fail. -/
theorem guards_within_change (hspares : ∀ s altered, Spares s altered o)
    (h : ∀ r altered, Guards (f r) altered) : Guards (within m o >>= f) altered :=
  guards_within (fun _ _ _ => h _ _) fun s _ hnot => absurd (hspares s altered) hnot

/-- A call that only reads. -/
theorem guards_within_read (hspares : ∀ s altered, Spares s altered o)
    (hread : ∀ s, (perform o s).2 = s) (h : ∀ r, Guards (f r) altered) :
    Guards (within m o >>= f) altered := by
  refine guards_within (fun s _ _ => ?_) fun s _ hnot => absurd (hspares s altered) hnot
  have hsame : (altered ∨ ¬SameRecords s (perform o s).2) = altered := by
    rw [hread]
    simp [SameRecords.refl]
  rw [hsame]
  exact h _

theorem guards_forSome {β : Type} {x : Option β} {g : β → Handler Unit}
    {f : Unit → Handler (Option Response)} (hnone : Guards (f ()) altered)
    (hsome : ∀ b, Guards (g b >>= f) altered) : Guards (forSome x g >>= f) altered := by
  cases x with
  | none => exact hnone
  | some b => exact hsome b

/-- A look that is taken in some cases only, and whose result nobody waits for. -/
theorem guards_forSome_read {β : Type} {x : Option β} {f : Unit → Handler (Option Response)}
    (hspares : ∀ s altered, Spares s altered o) (hread : ∀ s, (perform o s).2 = s)
    (h : Guards (f ()) altered) :
    Guards (forSome x (fun _ => ignoring (within m o)) >>= f) altered := by
  refine guards_forSome h fun _ => ?_
  unfold ignoring
  rw [bind_bind]
  exact guards_within_read hspares hread fun _ => h

theorem guards_ok {r : Response} (h : ∀ msg, r ≠ .err msg) : Guards (ret (some r)) altered :=
  fun _ msg hr => h msg (Option.some.inj hr)

end Guards

section Programs
variable {config : LogindConfig} {peer : Uid} {out : Outside}

theorem not_sameRecords_open {s : State} (h : FreshIds s) (args : OpenSession) (now : ℕ) :
    ¬SameRecords s (perform (.openSession args now) s).2 := by
  intro hsame
  have hnone : s.sessions.sessions.get? s.sessions.nextId = none :=
    SessionManager.uidOf_eq_none.1 (h _ le_rfl)
  have hopened := hsame.sessions s.sessions.nextId
  simp [perform, State.putSessions, hnone] at hopened

/-- The login fails exactly if the call is not sparing. -/
theorem login_fst_of_spares {s : State} {altered : Prop} {uid : Uid} {username : String}
    {sid : SessionId} (h : Spares s altered (.login uid username sid out.now out.dir)) :
    (perform (.login uid username sid out.now out.dir) s).1 = .ok () := by
  obtain ⟨r, -, heq⟩ | ⟨hget, dirs, -, ⟨-, -, heq⟩ | ⟨hdir, e, -⟩⟩ :=
    s.users.login_cases uid username sid out.now out.dir
  · simp [perform, State.putUsers, heq]
  · simp [perform, State.putUsers, heq]
  · simp [Spares, hget, hdir] at h

theorem login_fst_of_not_spares {s : State} {altered : Prop} {uid : Uid} {username : String}
    {sid : SessionId} (h : ¬Spares s altered (.login uid username sid out.now out.dir)) :
    ∃ e, (perform (.login uid username sid out.now out.dir) s).1 = .error e := by
  obtain ⟨r, hget, -⟩ | ⟨hget, dirs, -, ⟨hdir, -, -⟩ | ⟨hdir, e, heq⟩⟩ :=
    s.users.login_cases uid username sid out.now out.dir
  · simp [Spares, hget] at h
  · simp [Spares, hdir] at h
  · exact ⟨e, by simp [perform, State.putUsers, heq]⟩

theorem guards_openSession (args : OpenSession) :
    Guards (answer config (.request peer (.openSession args) out)) False := by
  unfold answer dispatch openSession
  dsimp only
  split
  · exact fun haltered => haltered.elim
  · simp only [bind_bind]
    refine guards_within (fun s hfresh _ => ?_) fun s _ hnot => absurd trivial hnot
    have haltered : False ∨ ¬SameRecords s (perform (.openSession args out.now) s).2 :=
      .inr (not_sameRecords_open hfresh args out.now)
    refine guards_within (fun s' _ hspares => ?_) fun s' _ hnot => ⟨.inl haltered, ?_⟩
    · rw [login_fst_of_spares hspares]
      simp only [bind_bind]
      refine guards_within_change (fun _ _ => trivial) fun _ _ => ?_
      refine guards_within_change (fun _ _ => trivial) fun _ _ => ?_
      refine guards_within_change (fun _ _ => trivial) fun _ _ => ?_
      refine guards_within_change (fun _ _ => trivial) fun _ _ => ?_
      exact guards_ok fun _ => Response.noConfusion
    · obtain ⟨e, he⟩ := login_fst_of_not_spares hnot
      rw [he]
      exact ⟨e, rfl⟩

/-- A session that is gone is not closed. -/
theorem close_of_none {s : State} {id : SessionId} (h : s.sessions.sessions.get? id = none) :
    perform (.closeSession id) s = (.error (SessionManager.notFound id), s) := by
  simp [perform, State.putSessions, SessionManager.close, h]

/-- What is left of `closeSession` once the session is off its seat. -/
theorem guards_close {altered : Prop} {id : SessionId}
    {f : Except String Unit → Handler (Option Response)}
    (hok : ∀ altered, Guards (f (.ok ())) altered)
    (herror : ∀ e, f (.error e) = ret (some (.err e))) :
    Guards (within .sessions (.closeSession id) >>= f) altered := by
  refine guards_within (fun s _ hspares => ?_) fun s _ hnot => ?_
  · cases hget : s.sessions.sessions.get? id with
    | none =>
      rw [close_of_none hget, herror]
      intro haltered
      exact absurd haltered (by simp [SameRecords.refl, hspares hget])
    | some x =>
      have hclose : (perform (.closeSession id) s).1 = .ok () := by
        simp [perform, State.putSessions, SessionManager.close, hget]
      rw [hclose]
      exact hok _
  · simp only [Spares, Classical.not_imp, not_not] at hnot
    rw [close_of_none hnot.1]
    exact ⟨.inl hnot.2, _, herror _⟩

theorem guards_closeSession (id : SessionId) :
    Guards (answer config (.request peer (.closeSession id) out)) False := by
  unfold answer dispatch closeSession
  simp only [bind_bind]
  refine guards_within_read (fun _ _ => trivial) (fun _ => rfl) fun uid => ?_
  refine guards_within_read (fun _ _ => trivial) (fun _ => rfl) fun seat => ?_
  cases uid with
  | none => exact fun haltered => haltered.elim
  | some uid =>
    dsimp only
    split
    · exact fun haltered => haltered.elim
    · simp only [bind_bind]
      refine guards_within_read (fun _ _ => trivial) (fun _ => rfl) fun session => ?_
      have hlogout : ∀ altered, Guards (do
          within .users (.logout uid id config)
          broadcastEvent out (.sessionRemoved id uid)
          pure (some .okEmpty)) altered := by
        intro altered
        refine guards_within_change (fun _ _ => trivial) fun _ _ => ?_
        refine guards_within_change (fun _ _ => trivial) fun _ _ => ?_
        exact guards_ok fun _ => Response.noConfusion
      refine guards_forSome_read (fun _ _ => trivial) (fun _ => rfl) ?_
      refine guards_forSome (guards_close hlogout fun _ => rfl) fun seat => ?_
      exact guards_within_change (fun _ _ => trivial) fun _ _ => guards_close hlogout fun _ => rfl

end Programs

/-- Every session request guards what is left of it. -/
structure Watched.Guarded (w : Watched) : Prop where
  fresh : FreshIds w.machine.shared
  guards : ∀ t, w.serving t → Guards (w.machine.code t) (w.altered t)

section Step
variable {config : LogindConfig} {w w' : Watched} {e : Event Thread Task}

theorem Watched.Guarded.unaltered (h : w.Guarded) : Unaltered w :=
  fun t _ hserving hsettled => (h.guards t hserving).not_altered hsettled

theorem guards_answer {task : Task} (h : task.onSession) : Guards (answer config task) False := by
  unfold Task.onSession at h
  split at h
  · exact guards_openSession _
  · exact guards_closeSession _
  · cases h

/-- What a step does to the records of the watch. -/
theorem Watched.step_cases (h : w.step config e = some w') :
    (∃ t task, e = .start t task ∧ w'.machine = w.machine.goto t (answer config task) ∧
      w'.serving = Function.update w.serving t task.onSession ∧
      w'.altered = Function.update w.altered t False) ∨
    (∃ t next, e = .run t ∧ ((∃ m, w.machine.code t = .lock m next) ∨
        ∃ m, w.machine.code t = .unlock m next) ∧
      w'.machine.shared = w.machine.shared ∧
      w'.machine.code = Function.update w.machine.code t next ∧ w'.serving = w.serving ∧
      w'.altered = w.altered) ∨
    (∃ t o next, e = .run t ∧ w.machine.code t = .call o next ∧
      w'.machine.shared = (perform o w.machine.shared).2 ∧
      w'.machine.code = Function.update w.machine.code t (next (perform o w.machine.shared).1) ∧
      w'.serving = w.serving ∧
      w'.altered = Function.update w.altered t
        (w.altered t ∨ ¬SameRecords w.machine.shared (perform o w.machine.shared).2)) := by
  obtain ⟨N, hstep, rfl⟩ := Option.map_eq_some_iff.1 h
  cases e with
  | start t task =>
    obtain ⟨-, -, rfl⟩ := System.step_start hstep
    exact .inl ⟨t, task, rfl, rfl, rfl, rfl⟩
  | run t =>
    have hquiet : ∀ s, Function.update w.altered t (w.altered t ∨ ¬SameRecords s s) = w.altered := by
      intro s
      simp [SameRecords.refl]
    obtain ⟨m, next, hcode, -, rfl⟩ | ⟨m, next, hcode, rfl⟩ | ⟨o, next, hcode, rfl⟩ :=
      System.step_run hstep
    · exact .inr (.inl ⟨t, next, rfl, .inl ⟨m, hcode⟩, rfl, rfl, rfl, hquiet _⟩)
    · exact .inr (.inl ⟨t, next, rfl, .inr ⟨m, hcode⟩, rfl, rfl, rfl, hquiet _⟩)
    · exact .inr (.inr ⟨t, o, next, rfl, hcode, rfl, rfl, rfl, rfl⟩)

/-- After a step of `t`, the others guard what they did. -/
theorem Watched.Guarded.of_others (h : w.Guarded) {t : Thread} {c : Handler (Option Response)}
    {serving : Bool} {altered : Prop} (hfresh : FreshIds w'.machine.shared)
    (hcode : w'.machine.code = Function.update w.machine.code t c)
    (hserving : w'.serving = Function.update w.serving t serving)
    (haltered : w'.altered = Function.update w.altered t altered)
    (ht : serving → Guards c altered) : w'.Guarded := by
  refine ⟨hfresh, fun u hu => ?_⟩
  rw [hcode, haltered]
  rw [hserving] at hu
  by_cases hut : u = t
  · subst hut
    simp only [Function.update_self] at hu ⊢
    exact ht hu
  · simp only [Function.update_of_ne hut] at hu ⊢
    exact h.guards u hu

theorem Watched.Guarded.step (h : w.Guarded) (hsparing : SparingStep w e)
    (hstep : w.step config e = some w') : w'.Guarded := by
  obtain ⟨t, task, rfl, hmachine, hserving, haltered⟩ |
    ⟨t, next, rfl, hcode, hshared, hcode', hserving, haltered⟩ |
    ⟨t, o, next, rfl, hcode, hshared, hcode', hserving, haltered⟩ := Watched.step_cases hstep
  · refine h.of_others ?_ (congrArg _ hmachine) hserving haltered guards_answer
    rw [hmachine]
    exact h.fresh
  · rw [← Function.update_eq_self t w.serving] at hserving
    rw [← Function.update_eq_self t w.altered] at haltered
    refine h.of_others (hshared ▸ h.fresh) hcode' hserving haltered fun hserves => ?_
    have hguards := h.guards t hserves
    rcases hcode with ⟨m, hcode⟩ | ⟨m, hcode⟩
    · rw [hcode] at hguards
      exact hguards
    · rw [hcode] at hguards
      exact hguards
  · rw [← Function.update_eq_self t w.serving] at hserving
    have hfresh := FreshIds.perform o _ h.fresh
    refine h.of_others (hshared ▸ hfresh) hcode' hserving haltered fun hserves => ?_
    have hguards := h.guards t hserves
    rw [hcode] at hguards
    exact (hguards _ h.fresh).1 (hsparing hserves o next hcode)

theorem unaltered_step_iff (h : w.Guarded) (hstep : w.step config e = some w') :
    Unaltered w' ↔ SparingStep w e := by
  refine ⟨fun hunaltered => ?_, fun hsparing => (h.step hsparing hstep).unaltered⟩
  cases e with
  | start t task => trivial
  | run t =>
    intro hserves o next hcode
    by_contra hnot
    have hguards := h.guards t hserves
    rw [hcode] at hguards
    obtain ⟨haltered', msg, hsettled⟩ := (hguards _ h.fresh).2 hnot
    obtain ⟨_, _, he, -⟩ | ⟨u, _, he, hquiet, -⟩ |
      ⟨u, o', next', he, hcode', -, hafter, hserving, haltered⟩ := Watched.step_cases hstep
    · cases he
    · cases he
      rcases hquiet with ⟨m, hlock⟩ | ⟨m, hunlock⟩
      · rw [hcode] at hlock
        cases hlock
      · rw [hcode] at hunlock
        cases hunlock
    · cases he
      rw [hcode] at hcode'
      cases hcode'
      refine hunaltered t msg (hserving ▸ hserves) ?_ ?_
      · rw [hafter, Function.update_self]
        exact hsettled
      · rw [haltered, Function.update_self]
        exact haltered'

end Step

/-- In every interleaving, the session requests that come to an error have changed nothing exactly
as long as no user fails to be logged in after the session was opened, and no request takes a session
off its seat that another one then closes. -/
theorem unaltered_iff (config : LogindConfig) (boot : Boot) (es : List (Event Thread Task)) :
    Always (Watched.step config) Unaltered (.init config boot) es ↔
      Meets (Watched.step config) SparingStep (.init config boot) es := by
  have hinit : (Watched.init config boot).Guarded := by
    refine ⟨fun _ _ => rfl, fun t ht => ?_⟩
    cases ht
  have hkeep : ∀ {w w' : Watched} {e : Event Thread Task}, w.Guarded → Unaltered w →
      SparingStep w e → w.step config e = some w' → w'.Guarded :=
    fun h _ hsparing hstep => h.step hsparing hstep
  exact always_iff_meets_of_invariant hkeep (fun h _ hstep => unaltered_step_iff h hstep) hinit
    hinit.unaltered es

/-- Root opens a session for a user whose runtime directory cannot be made. -/
def failedLogin : List (Event Thread Task) :=
  .start (.conn 0) (.request 0 (.openSession
      { uid := 1000, username := "alice", leaderPid := 100, sessionType := .tty })
    { dir := { createDirAll := .error "No space left on device" } }) ::
      List.replicate 5 (.run (.conn 0))

theorem not_unaltered_failedLogin :
    ¬Always (Watched.step {}) Unaltered (.init {} {}) failedLogin := by
  intro h
  have hexec : exec (Watched.step {}) (.init {} {}) failedLogin = some _ := rfl
  refine h.last hexec (.conn 0) _ rfl rfl ?_
  -- the second of the five steps opens the session
  left; left; left; right
  intro hsame
  have hopened := hsame.sessions 1
  cases hopened

end Quantra.Logind
