import Quantra.Logind.Control

/-! The order in which the threads of the login manager nest their locks, and when they can block one
another. -/
namespace Quantra.Logind
open Runs Locks Locks.Code Locks.Machine

/-- Under which guards a lock is taken, the latest first: by a power request, by `Status`, by the
ACPI handler and the idle timer, and by a broadcast. -/
inductive Nests : Last Lock → List Lock → Lock → Prop
  | outermost (last : Last Lock) (m : Lock) : Nests last [] m
  | powerRequest : Nests (.took .inhibitors) [.inhibitors] .power
  | statusUsers : Nests (.took .sessions) [.sessions] .users
  | statusSeats : Nests (.took .users) [.users, .sessions] .seats
  | statusInhibitors : Nests (.took .seats) [.seats, .users, .sessions] .inhibitors
  | statusPower : Nests (.took .inhibitors) [.inhibitors, .seats, .users, .sessions] .power
  | statusPowerAgain : Nests (.gave .power) [.inhibitors, .seats, .users, .sessions] .power
  | acpiInhibitors : Nests (.took .power) [.power] .inhibitors
  | idleSessions : Nests (.took .inhibitors) [.inhibitors, .power] .sessions
  | busUnderSeats : Nests (.took .seats) [.seats] .bus
  | busUnderPower : Nests (.took .power) [.power] .bus

/-- A program that takes its locks so, starting with none. -/
def Orderly {α : Type} (c : Handler α) : Prop := ∀ last, c.Conforms Nests last []

section Orderly
variable {α β : Type}

theorem orderly_ret (a : α) : Orderly (ret a) := fun _ => rfl

theorem Orderly.bind {c : Handler α} {f : α → Handler β} (hc : Orderly c)
    (hf : ∀ a, Orderly (f a)) : Orderly (c >>= f) :=
  fun last => (hc last).bind fun a last => hf a last

theorem orderly_within (m : Lock) (o : Op) : Orderly (within m o) :=
  fun last => conforms_guarded (.outermost last m)

theorem orderly_broadcastEvent (out : Outside) (e : LogindEvent) :
    Orderly (broadcastEvent out e) := orderly_within _ _

theorem Orderly.ite {p : Prop} [Decidable p] {c d : Handler α} (hc : Orderly c) (hd : Orderly d) :
    Orderly (if p then c else d) := by
  split
  · exact hc
  · exact hd

/-- A section of its own, and then a pure answer. -/
theorem orderly_within_ret (m : Lock) (o : Op) (f : Reply o → α) :
    Orderly (within m o >>= fun r => pure (f r)) :=
  (orderly_within m o).bind fun r => orderly_ret (f r)

theorem Orderly.forSome {o : Option α} {f : α → Handler Unit} (hf : ∀ a, Orderly (f a)) :
    Orderly (forSome o f) := by
  cases o with
  | none => exact orderly_ret ()
  | some a => exact hf a

theorem Orderly.ignoring {c : Handler α} (hc : Orderly c) : Orderly (ignoring c) :=
  hc.bind fun _ => orderly_ret ()

theorem orderly_openSession (peer : Uid) (out : Outside) (args : OpenSession) :
    Orderly (openSession peer out args) := by
  refine (orderly_ret _).ite ((orderly_within _ _).bind fun sid => ?_)
  refine (orderly_within _ _).bind fun r => ?_
  cases r with
  | error e => exact orderly_ret _
  | ok _ =>
    exact (orderly_within _ _).bind fun _ => (orderly_within _ _).bind fun _ =>
      (orderly_broadcastEvent _ _).bind fun _ => (orderly_broadcastEvent _ _).bind fun _ =>
        orderly_ret _

theorem orderly_closeSession (config : LogindConfig) (peer : Uid) (out : Outside)
    (id : SessionId) : Orderly (closeSession config peer out id) := by
  refine (orderly_within _ _).bind fun uid => (orderly_within _ _).bind fun seat => ?_
  cases uid with
  | none => exact orderly_ret _
  | some uid =>
    refine (orderly_ret _).ite ((orderly_within _ _).bind fun session => ?_)
    refine Orderly.bind (.forSome fun _ => (orderly_within _ _).ignoring) fun _ => ?_
    refine Orderly.bind (.forSome fun seat => orderly_within _ _) fun _ => ?_
    refine (orderly_within _ _).bind fun r => ?_
    cases r with
    | error e => exact orderly_ret _
    | ok _ =>
      exact (orderly_within _ _).bind fun _ => (orderly_broadcastEvent _ _).bind fun _ =>
        orderly_ret _

theorem orderly_activateSession (out : Outside) (id : SessionId) :
    Orderly (activateSession out id) := by
  refine (orderly_within _ _).bind fun r => ?_
  cases r with
  | error e => exact orderly_ret _
  | ok _ =>
    refine (orderly_within _ _).bind fun seat => ?_
    refine Orderly.bind (.forSome fun seat => (orderly_within _ _).ignoring) fun _ => ?_
    refine (orderly_within _ _).bind fun vt => ?_
    refine Orderly.bind (.forSome fun n => ?_) fun _ => orderly_ret _
    exact (orderly_within _ _).ignoring.bind fun _ => orderly_broadcastEvent _ _

theorem orderly_switchTo (peer : Uid) (out : Outside) (vt : ℕ) :
    Orderly (switchTo peer out vt) := by
  refine (orderly_ret _).ite fun last => ⟨.outermost last _, fun r => ?_⟩
  cases r with
  | error e => exact ⟨by simp, rfl⟩
  | ok _ => exact ⟨.busUnderSeats, fun _ => ⟨by simp, by simp, rfl⟩⟩

theorem orderly_executePower (out : Outside) (c : PowerManager.PowerCall) (interactive : Bool) :
    Orderly (executePower out c interactive) :=
  fun last => ⟨.outermost last _, .powerRequest, fun _ => ⟨by simp, by simp, rfl⟩⟩

theorem orderly_setBrightness (out : Outside) (subsystem name : String) (value : ℕ) :
    Orderly (setBrightness out subsystem name value) := by
  refine fun last => ⟨.outermost last _, fun r => ?_⟩
  cases r with
  | error e => exact ⟨by simp, rfl⟩
  | ok _ => exact ⟨.busUnderPower, fun _ => ⟨by simp, by simp, rfl⟩⟩

theorem orderly_scheduleShutdown (peer : Uid) (out : Outside) (action : String) (usec : ℕ) :
    Orderly (scheduleShutdown peer out action usec) := by
  refine (orderly_ret _).ite fun last => ⟨.outermost last _, fun _ => ?_⟩
  exact ⟨.busUnderPower, fun _ => ⟨by simp, by simp, rfl⟩⟩

theorem orderly_status : Orderly status := by
  refine fun last => ⟨.outermost last _, .statusUsers, .statusSeats, .statusInhibitors, ?_⟩
  refine fun _ _ _ _ => ⟨.statusPower, fun _ => ⟨by simp, ?_⟩⟩
  exact ⟨.statusPowerAgain, fun _ => ⟨by simp, by simp, by simp, by simp, by simp, rfl⟩⟩

theorem orderly_dispatch (config : LogindConfig) (peer : Uid) (out : Outside) (req : Request) :
    Orderly (dispatch config peer out req) := by
  cases req with
  | openSession args => exact orderly_openSession peer out args
  | closeSession id => exact orderly_closeSession config peer out id
  | activateSession id => exact orderly_activateSession out id
  | lockSession id | unlockSession id =>
    refine (orderly_within _ _).bind fun r => ?_
    cases r with
    | error e => exact orderly_ret _
    | ok _ => exact (orderly_broadcastEvent _ _).bind fun _ => orderly_ret _
  | activateSessionOnSeat id seatId =>
    refine (orderly_within _ _).bind fun r => ?_
    cases r with
    | error e => exact orderly_ret _
    | ok _ => exact (orderly_within _ _).ignoring.bind fun _ => orderly_ret _
  | switchTo vt => exact orderly_switchTo peer out vt
  | getUser uid | listUsers | setLinger uid enable | terminateUser uid =>
    exact (orderly_ret _).ite (orderly_within_ret _ _ _)
  | takeDevice seatId devpath =>
    refine (orderly_ret _).ite ((orderly_within _ _).bind fun r => ?_)
    cases r <;> exact orderly_ret _
  | getBrightness subsystem name =>
    refine (orderly_within _ _).bind fun r => ?_
    cases r <;> exact orderly_ret _
  | releaseDevice seatId devpath =>
    exact (orderly_within _ _).ignoring.bind fun _ => orderly_ret _
  | powerOff interactive | reboot interactive | rebootToFirmwareSetup interactive
  | halt interactive => exact (orderly_ret _).ite (orderly_executePower _ _ _)
  | suspend interactive | hibernate interactive | hybridSleep interactive
  | suspendThenHibernate interactive => exact orderly_executePower _ _ _
  | setBrightness subsystem name value => exact orderly_setBrightness out subsystem name value
  | scheduleShutdown action usec => exact orderly_scheduleShutdown peer out action usec
  | status => exact orderly_status
  | subscribe | version => exact orderly_ret _
  | lockSessions | unlockSessions | listSessions | getSession _ | getSessionByPid _
  | setIdleHint _ _ | setLockedHint _ _ | listSeats | getSeat _ | takeInhibitor _
  | releaseInhibitor _ | listInhibitors | canPowerOff | canReboot | canSuspend | canHibernate
  | canHybridSleep | canSuspendThenHibernate | cancelScheduledShutdown =>
    exact orderly_within_ret _ _ _

theorem orderly_handleAcpiEvent (config : LogindConfig) (e : AcpiEvent) (answers : PowerAnswers) :
    Orderly (handleAcpiEvent config e answers) := by
  unfold handleAcpiEvent
  cases acpiAction config e with
  | none => exact orderly_ret ()
  | some action =>
    refine fun last => ⟨.outermost last _, .acpiInhibitors, ?_⟩
    cases acpiCall action with
    | none => exact ⟨by simp, by simp, rfl⟩
    | some c => exact fun _ => ⟨by simp, by simp, rfl⟩

theorem orderly_idleAct (config : LogindConfig) (answers : PowerAnswers) :
    Orderly (idleAct config answers) := by
  refine fun last => ⟨.outermost last _, .acpiInhibitors, ?_⟩
  split
  · exact ⟨.idleSessions, fun _ => ⟨by simp, by simp, by simp, rfl⟩⟩
  · cases idleCall config.idleAction with
    | none => exact ⟨by simp, by simp, rfl⟩
    | some c => exact fun _ => ⟨by simp, by simp, rfl⟩

theorem orderly_invoke (o : Op) : Orderly (invoke o) := fun _ _ => rfl

theorem orderly_idleTurn (config : LogindConfig) (now : ℕ) (answers : PowerAnswers) :
    Orderly (idleTurn config now answers) := by
  refine (orderly_ret ()).ite ((orderly_within _ _).bind fun blocked => ?_)
  refine (orderly_invoke _).ignoring.ite ((orderly_within _ _).bind fun sessions => ?_)
  exact (orderly_invoke _).bind fun fire => (orderly_idleAct config answers).ite (orderly_ret ())

theorem orderly_program (config : LogindConfig) (task : Task) : Orderly (program config task) := by
  cases task with
  | request peer req out => exact (orderly_dispatch config peer out req).ignoring
  | acpi e answers => exact orderly_handleAcpiEvent config e answers
  | idle now answers => exact orderly_idleTurn config now answers
  | gc pidExists => exact orderly_within _ _

end Orderly

/-- The pairs of locks that are nested both ways round. -/
inductive Opposed : Lock → Lock → Prop
  | inhibitorsPower : Opposed .inhibitors .power
  | powerInhibitors : Opposed .power .inhibitors
  | inhibitorsSessions : Opposed .inhibitors .sessions
  | sessionsInhibitors : Opposed .sessions .inhibitors

theorem Opposed.symm {m k : Lock} (h : Opposed m k) : Opposed k m := by
  cases h <;> constructor

/-- No set of threads waits for the mutexes of one another; the event bus is not one of them. -/
def NoDeadlock (M : LogindMachine) : Prop := ∀ D, ¬Deadlocked (· ≠ Lock.bus) M D

section Deadlock
variable {M : LogindMachine} {D : Set Thread} {t u : Thread}

/-- `t`, which is in the way of a deadlock, is on its way to `m`, and so is in the way itself of
another thread. -/
def StuckAt (M : LogindMachine) (D : Set Thread) (t : Thread) (m : Lock) : Prop :=
  (M.code t).Heading m ∧ ∃ u ∈ D, u ≠ t ∧ M.owner m = some u

theorem stuckAt_of_mem (htidy : M.Tidy Nests) (hD : Deadlocked (· ≠ Lock.bus) M D) (ht : t ∈ D) :
    ∃ last held m, (∀ k, M.owner k = some t ↔ k ∈ held) ∧ Nests last held m ∧ m ≠ .bus ∧
      StuckAt M D t m := by
  obtain ⟨m, next, u, hm, hcode, howner, hu, hne⟩ := hD.2 t ht
  obtain ⟨last, held, hheld, -, hconforms⟩ := htidy t
  have hhead : (M.code t).Heading m := by
    rw [hcode]
    exact rfl
  exact ⟨last, held, m, hheld, hconforms.nests_of_heading hhead, hm, hhead, u, hu, hne, howner⟩

theorem stuckAt_of_power (htidy : M.Tidy Nests) (hD : Deadlocked (· ≠ Lock.bus) M D) (ht : t ∈ D)
    (hown : M.owner .power = some t) :
    StuckAt M D t .inhibitors ∨ (M.owner .inhibitors = some t ∧ StuckAt M D t .sessions) := by
  obtain ⟨last, held, m, hheld, hnests, hm, hstuck⟩ := stuckAt_of_mem htidy hD ht
  have hmem : .power ∈ held := (hheld _).1 hown
  cases hnests with
  | acpiInhibitors => exact .inl hstuck
  | idleSessions => exact .inr ⟨(hheld _).2 (by simp), hstuck⟩
  | busUnderPower => exact absurd rfl hm
  | outermost | powerRequest | statusUsers | statusSeats | statusInhibitors | statusPower
  | statusPowerAgain | busUnderSeats => simp at hmem

theorem stuckAt_of_inhibitors (htidy : M.Tidy Nests) (hD : Deadlocked (· ≠ Lock.bus) M D)
    (ht : t ∈ D) (hown : M.owner .inhibitors = some t) :
    StuckAt M D t .power ∨ M.owner .power = some t := by
  obtain ⟨last, held, m, hheld, hnests, hm, hstuck⟩ := stuckAt_of_mem htidy hD ht
  have hmem : .inhibitors ∈ held := (hheld _).1 hown
  cases hnests with
  | powerRequest | statusPower | statusPowerAgain => exact .inl hstuck
  | idleSessions => exact .inr ((hheld _).2 (by simp))
  | outermost | statusUsers | statusSeats | statusInhibitors | acpiInhibitors | busUnderSeats
  | busUnderPower => simp at hmem

/-- Users and seats are waited for, and held, under the sessions only. -/
theorem owner_sessions (htidy : M.Tidy Nests) (hD : Deadlocked (· ≠ Lock.bus) M D) (ht : t ∈ D)
    (hown : M.owner .users = some t ∨ M.owner .seats = some t) : M.owner .sessions = some t := by
  obtain ⟨last, held, m, hheld, hnests, hm, hstuck⟩ := stuckAt_of_mem htidy hD ht
  rw [hheld, hheld] at hown
  rw [hheld]
  cases hnests with
  | busUnderSeats => exact absurd rfl hm
  | statusSeats | statusInhibitors | statusPower | statusPowerAgain => simp
  | outermost | powerRequest | statusUsers | acpiInhibitors | idleSessions | busUnderPower =>
    simp at hown

theorem stuckAt_of_sessions (htidy : M.Tidy Nests) (hD : Deadlocked (· ≠ Lock.bus) M D)
    (ht : t ∈ D) (hown : M.owner .sessions = some t) :
    StuckAt M D t .inhibitors ∨ M.owner .inhibitors = some t := by
  obtain ⟨last, held, m, hheld, hnests, hm, hstuck⟩ := stuckAt_of_mem htidy hD ht
  -- a thread that waits for users or seats would wait for one that holds the sessions too
  have hself : ∀ {k : Lock}, (k = .users ∨ k = .seats) → ¬StuckAt M D t k := by
    rintro k hk ⟨-, u, hu, hne, hku⟩
    have hsessions : M.owner .sessions = some u := by
      refine owner_sessions htidy hD hu ?_
      rcases hk with rfl | rfl
      · exact .inl hku
      · exact .inr hku
    rw [hown] at hsessions
    exact hne (Option.some.inj hsessions).symm
  have hmem : .sessions ∈ held := (hheld _).1 hown
  cases hnests with
  | statusUsers => exact absurd hstuck (hself (.inl rfl))
  | statusSeats => exact absurd hstuck (hself (.inr rfl))
  | statusInhibitors => exact .inl hstuck
  | statusPower | statusPowerAgain => exact .inr ((hheld _).2 (by simp))
  | outermost | powerRequest | acpiInhibitors | idleSessions | busUnderSeats | busUnderPower =>
    simp at hmem

theorem crossing_of_power (htidy : M.Tidy Nests) (hD : Deadlocked (· ≠ Lock.bus) M D) (ht : t ∈ D)
    (hown : M.owner .power = some t) : M.Crossing Opposed := by
  obtain ⟨hhead, u, hu, hne, hinh⟩ | ⟨hinh, hhead, u, hu, hne, hses⟩ :=
    stuckAt_of_power htidy hD ht hown
  · rcases stuckAt_of_inhibitors htidy hD hu hinh with hstuck | hpower
    · exact ⟨t, u, _, _, hne.symm, hhead, hinh, hstuck.1, hown, .inhibitorsPower⟩
    · rw [hown] at hpower
      exact absurd (Option.some.inj hpower).symm hne
  · rcases stuckAt_of_sessions htidy hD hu hses with hstuck | hinh'
    · exact ⟨t, u, _, _, hne.symm, hhead, hses, hstuck.1, hinh, .sessionsInhibitors⟩
    · rw [hinh] at hinh'
      exact absurd (Option.some.inj hinh').symm hne

theorem crossing_of_inhibitors (htidy : M.Tidy Nests) (hD : Deadlocked (· ≠ Lock.bus) M D)
    (ht : t ∈ D) (hown : M.owner .inhibitors = some t) : M.Crossing Opposed := by
  obtain ⟨-, u, hu, -, hpower⟩ | hpower := stuckAt_of_inhibitors htidy hD ht hown
  · exact crossing_of_power htidy hD hu hpower
  · exact crossing_of_power htidy hD ht hpower

theorem crossing_of_sessions (htidy : M.Tidy Nests) (hD : Deadlocked (· ≠ Lock.bus) M D)
    (ht : t ∈ D) (hown : M.owner .sessions = some t) : M.Crossing Opposed := by
  obtain ⟨-, u, hu, -, hinh⟩ | hinh := stuckAt_of_sessions htidy hD ht hown
  · exact crossing_of_inhibitors htidy hD hu hinh
  · exact crossing_of_inhibitors htidy hD ht hinh

/-- Whatever the set of threads, two of them block each other over an opposed pair of locks. -/
theorem crossing_of_deadlocked (htidy : M.Tidy Nests) (hD : Deadlocked (· ≠ Lock.bus) M D) :
    M.Crossing Opposed := by
  obtain ⟨t, ht⟩ := hD.1
  obtain ⟨m, next, u, hm, -, hown, hu, -⟩ := hD.2 t ht
  cases m with
  | power => exact crossing_of_power htidy hD hu hown
  | inhibitors => exact crossing_of_inhibitors htidy hD hu hown
  | sessions => exact crossing_of_sessions htidy hD hu hown
  | users => exact crossing_of_sessions htidy hD hu (owner_sessions htidy hD hu (.inl hown))
  | seats => exact crossing_of_sessions htidy hD hu (owner_sessions htidy hD hu (.inr hown))
  | bus => exact absurd rfl hm

end Deadlock

theorem tidy_init (config : LogindConfig) (boot : Boot) :
    (LogindMachine.init config boot).Tidy Nests :=
  fun _ => ⟨.start, [], by simp [LogindMachine.init], List.nodup_nil, rfl⟩

theorem Nests.gave {l m : Lock} {held : List Lock} (h : Nests (.gave l) held m) :
    held = [] ∨ m = l := by
  cases h with
  | outermost => exact .inl rfl
  | statusPowerAgain => exact .inr rfl

/-- In a run in which no thread takes a lock on its way to another against a thread that comes the
other way, over the pairs inhibitors and power or inhibitors and sessions, nothing ever deadlocks. -/
theorem noDeadlock_of_clear (config : LogindConfig) (boot : Boot) (es : List (Event Thread Task))
    (h : Meets (system config).step (Clear Opposed) (LogindMachine.init config boot) es) :
    Always (system config).step NoDeadlock (LogindMachine.init config boot) es := by
  have hkeep : ∀ {M N : LogindMachine} {e : Event Thread Task},
      M.Tidy Nests ∧ ¬M.Crossing Opposed → M.Clear Opposed e → (system config).step M e = some N →
        N.Tidy Nests ∧ ¬N.Crossing Opposed := by
    intro M N e hM hclear hstep
    refine ⟨hM.1.step (fun task => orderly_program config task .start) hstep, ?_⟩
    exact not_crossing_step (fun _ _ _ => Nests.gave) (fun _ _ => Opposed.symm) hM.1 hM.2 hclear hstep
  have hfree : ∀ M : LogindMachine, M.Tidy Nests ∧ ¬M.Crossing Opposed → NoDeadlock M :=
    fun M hM D hD => hM.2 (crossing_of_deadlocked hM.1 hD)
  have hinit : ¬(LogindMachine.init config boot).Crossing Opposed := by
    rintro ⟨t, u, m, k, -, hhead, -⟩
    exact hhead
  exact always_of_meets hkeep hfree ⟨tidy_init config boot, hinit⟩ h

/-- A suspend request that waits until another one has let go of the inhibitors. -/
def twoSuspends : List (Event Thread Task) :=
  [.start (.conn 0) (.request 0 (.suspend false) {}), .run (.conn 0),
    .start (.conn 1) (.request 0 (.suspend false) {}), .run (.conn 0), .run (.conn 0),
    .run (.conn 0), .run (.conn 0), .run (.conn 1), .run (.conn 1)]

theorem noDeadlock_twoSuspends :
    Meets (system {}).step (Clear Opposed) (LogindMachine.init {} {}) twoSuspends ∧
      Always (system {}).step NoDeadlock (LogindMachine.init {} {}) twoSuspends := by
  have h : Meets (system {}).step (Clear Opposed) (LogindMachine.init {} {}) twoSuspends := by
    -- the inhibitors are taken twice, and both times the power manager is free
    refine meets_cons rfl trivial (meets_cons rfl ?_ (meets_cons rfl trivial (meets_cons rfl ?_
      (meets_cons rfl ?_ (meets_cons rfl ?_ (meets_cons rfl ?_ (meets_cons rfl ?_
        (meets_cons rfl ?_ trivial))))))))
    case refine_1 | refine_6 =>
      intro l next hcode m u k hm hmu
      cases hcode
      cases hm
      cases hmu
    case refine_2 | refine_7 =>
      intro l next hcode m u k hm
      cases hcode
      obtain ⟨r, hr⟩ := hm
      exact hr.elim
    all_goals
      intro l next hcode
      cases hcode
  exact ⟨h, noDeadlock_of_clear {} {} twoSuspends h⟩
/-- A suspend request that has the inhibitors, and a power button that has the power manager. -/
def suspendAndPowerButton : List (Event Thread Task) :=
  [.start (.conn 0) (.request 0 (.suspend false) {}), .run (.conn 0),
    .start .acpi (.acpi .powerButton {}), .run .acpi]

theorem deadlock_suspendAndPowerButton :
    ¬Always (system {}).step NoDeadlock (LogindMachine.init {} {}) suspendAndPowerButton := by
  intro h
  have hexec : exec (system {}).step (LogindMachine.init {} {}) suspendAndPowerButton = some _ := rfl
  refine h.last hexec {.conn 0, .acpi} ⟨⟨.conn 0, .inl rfl⟩, ?_⟩
  intro t ht
  rcases ht with rfl | rfl
  · exact ⟨.power, _, .acpi, by decide, rfl, rfl, .inr rfl, by decide⟩
  · exact ⟨.inhibitors, _, .conn 0, by decide, rfl, rfl, .inl rfl, by decide⟩

end Quantra.Logind
