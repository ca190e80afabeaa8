import Quantra.Lib.Runs
import Quantra.Logind.Types
import Mathlib.Logic.Function.Basic

/-! `control.rs`: the event bus, the connections that subscribe to it and the handlers that broadcast
on it. -/
namespace Quantra.Logind
open Runs

inductive Frame
  | ack
  | event (e : LogindEvent)
  deriving DecidableEq, Repr

/-- What has happened on the bus: an event was broadcast, a frame was written to a connection, or a
write to a connection failed. -/
inductive Happening
  | broadcast (e : LogindEvent)
  | wrote (conn : ℕ) (frame : Frame)
  | failed (conn : ℕ)
  deriving DecidableEq, Repr

structure EventSink where
  conn : ℕ
  uid : Uid
  deriving DecidableEq, Repr

structure EventBus where
  sinks : List EventSink := []
  history : List Happening := []
  deriving DecidableEq, Repr

/-- The events that a part of the history tells of. -/
def broadcasts (hs : List Happening) : List LogindEvent :=
  hs.filterMap fun
    | .broadcast e => some e
    | _ => none

/-- The events that a part of the history tells to have been written to `t`. -/
def received (t : ℕ) (hs : List Happening) : List LogindEvent :=
  hs.filterMap fun
    | .wrote u (.event e) => if u = t then some e else none
    | _ => none

namespace EventBus

/-- `broadcast_event` with the guard held: a sink that cannot be written to is dropped. -/
def broadcast (bus : EventBus) (e : LogindEvent) (writable : ℕ → Bool) : EventBus where
  sinks := bus.sinks.filter fun sink => writable sink.conn
  history := bus.history ++ .broadcast e :: bus.sinks.map fun sink =>
    if writable sink.conn then .wrote sink.conn (.event e) else .failed sink.conn

def push (bus : EventBus) (sink : EventSink) : EventBus :=
  { bus with sinks := bus.sinks ++ [sink] }

def note (bus : EventBus) (h : Happening) : EventBus :=
  { bus with history := bus.history ++ [h] }

/-- The events that have been broadcast. -/
def events (bus : EventBus) : List LogindEvent := broadcasts bus.history

end EventBus

/-- Where a connection is: between two requests, in a `Subscribe`, or in a `broadcast_event` that one
of its requests has called. -/
inductive Conn
  | idle
  | subscribing (uid : Uid)
  | cloning (uid : Uid)
  | acking
  | asleep
  | calling (e : LogindEvent)
  | sending (e : LogindEvent)
  | closed
  deriving DecidableEq, Repr

/-- `guard` is the connection that holds the write guard of the bus. -/
structure BusState where
  conn : ℕ → Conn
  guard : Option ℕ
  bus : EventBus

/-- A connection sends `Subscribe` or a request that broadcasts; takes the guard; clones its stream
and pushes it; sends the acknowledgement; or writes an event to the sinks. -/
inductive BusEvent
  | subscribe (t : ℕ) (uid : Uid)
  | call (t : ℕ) (e : LogindEvent)
  | take (t : ℕ)
  | clone (t : ℕ) (ok : Bool)
  | ack (t : ℕ) (ok : Bool)
  | send (t : ℕ) (writable : ℕ → Bool)

namespace BusState

def init : BusState where
  conn _ := .idle
  guard := none
  bus := {}

def goto (s : BusState) (t : ℕ) (c : Conn) : BusState :=
  { s with conn := Function.update s.conn t c }

/-- A `Subscribe` that has been acknowledged sleeps in a loop, with the guard; one that fails returns
and drops it. -/
def step (s : BusState) : BusEvent → Option BusState
  | .subscribe t uid => if s.conn t = .idle then some (s.goto t (.subscribing uid)) else none
  | .call t e => if s.conn t = .idle then some (s.goto t (.calling e)) else none
  | .take t =>
    if s.guard = none then
      match s.conn t with
      | .subscribing uid => some { s.goto t (.cloning uid) with guard := some t }
      | .calling e => some { s.goto t (.sending e) with guard := some t }
      | _ => none
    else none
  | .clone t ok =>
    match s.conn t with
    | .cloning uid =>
      if ok then some { s.goto t .acking with bus := s.bus.push { conn := t, uid } }
      else some { s.goto t .closed with guard := none }
    | _ => none
  | .ack t ok =>
    if s.conn t = .acking then
      if ok then some { s.goto t .asleep with bus := s.bus.note (.wrote t .ack) }
      else some { s.goto t .closed with guard := none, bus := s.bus.note (.failed t) }
    else none
  | .send t writable =>
    match s.conn t with
    | .sending e =>
      some { s.goto t .idle with guard := none, bus := s.bus.broadcast e writable }
    | _ => none

/-- The request of `t` can come to its end. -/
def CanEnd (s : BusState) (t : ℕ) : Prop := ∃ es s', exec step s es = some s' ∧ s'.conn t = .idle

/-- Every `broadcast_event` that has been called can come to its end. -/
def Completes (s : BusState) : Prop :=
  ∀ t e, s.conn t = .calling e ∨ s.conn t = .sending e → s.CanEnd t

/-- From its acknowledgement on, a connection that every write reaches receives what is broadcast. -/
def Delivers (s : BusState) : Prop :=
  ∀ before t after, s.bus.history = before ++ .wrote t .ack :: after → .failed t ∉ after →
    received t after = broadcasts after

/-- No `Subscribe` is acknowledged while a broadcast waits for the guard, and none is called once one
has been acknowledged. -/
def Apart (s : BusState) : BusEvent → Prop
  | .ack _ true => ∀ u e, s.conn u ≠ .calling e
  | .call _ _ => ∀ u, s.conn u ≠ .asleep
  | _ => True

variable {s s' : BusState} {t u : ℕ}

@[simp] theorem goto_conn (c : Conn) : (s.goto t c).conn = Function.update s.conn t c := rfl

@[simp] theorem goto_guard (c : Conn) : (s.goto t c).guard = s.guard := rfl

@[simp] theorem goto_bus (c : Conn) : (s.goto t c).bus = s.bus := rfl

/-- Every move that the bus can make. -/
inductive Moves (s : BusState) : BusEvent → BusState → Prop
  | subscribe {t : ℕ} {uid : Uid} (hconn : s.conn t = .idle) :
    Moves s (.subscribe t uid) (s.goto t (.subscribing uid))
  | call {t : ℕ} {e : LogindEvent} (hconn : s.conn t = .idle) :
    Moves s (.call t e) (s.goto t (.calling e))
  | takeSubscribe {t : ℕ} {uid : Uid} (hfree : s.guard = none) (hconn : s.conn t = .subscribing uid) :
    Moves s (.take t) { s.goto t (.cloning uid) with guard := some t }
  | takeCall {t : ℕ} {e : LogindEvent} (hfree : s.guard = none) (hconn : s.conn t = .calling e) :
    Moves s (.take t) { s.goto t (.sending e) with guard := some t }
  | clone {t : ℕ} {uid : Uid} (hconn : s.conn t = .cloning uid) :
    Moves s (.clone t true) { s.goto t .acking with bus := s.bus.push { conn := t, uid } }
  | cloneFails {t : ℕ} {uid : Uid} (hconn : s.conn t = .cloning uid) :
    Moves s (.clone t false) { s.goto t .closed with guard := none }
  | ack {t : ℕ} (hconn : s.conn t = .acking) :
    Moves s (.ack t true) { s.goto t .asleep with bus := s.bus.note (.wrote t .ack) }
  | ackFails {t : ℕ} (hconn : s.conn t = .acking) :
    Moves s (.ack t false)
      { s.goto t .closed with guard := none, bus := s.bus.note (.failed t) }
  | send {t : ℕ} {e : LogindEvent} {writable : ℕ → Bool} (hconn : s.conn t = .sending e) :
    Moves s (.send t writable)
      { s.goto t .idle with guard := none, bus := s.bus.broadcast e writable }

theorem moves_of_step {ev : BusEvent} (h : step s ev = some s') : Moves s ev s' := by
  cases ev with
  | subscribe t uid =>
    simp only [step, Option.ite_none_right_eq_some, Option.some.injEq] at h
    exact h.2 ▸ .subscribe h.1
  | call t e =>
    simp only [step, Option.ite_none_right_eq_some, Option.some.injEq] at h
    exact h.2 ▸ .call h.1
  | take t =>
    simp only [step, Option.ite_none_right_eq_some] at h
    obtain ⟨hfree, h⟩ := h
    split at h
    · rename_i uid hconn
      cases h
      exact .takeSubscribe hfree hconn
    · rename_i e hconn
      cases h
      exact .takeCall hfree hconn
    · cases h
  | clone t ok =>
    simp only [step] at h
    split at h
    · rename_i uid hconn
      cases ok <;> cases h
      · exact .cloneFails hconn
      · exact .clone hconn
    · cases h
  | ack t ok =>
    simp only [step, Option.ite_none_right_eq_some] at h
    obtain ⟨hconn, h⟩ := h
    cases ok <;> cases h
    · exact .ackFails hconn
    · exact .ack hconn
  | send t writable =>
    simp only [step] at h
    split at h
    · rename_i e hconn
      cases h
      exact .send hconn
    · cases h

/-- The places at which a connection has the guard. -/
def Holds : Conn → Prop
  | .cloning _ | .acking | .asleep | .sending _ => True
  | _ => False

/-- The guard belongs to the one connection that is at such a place, and an acknowledgement is the
last thing that ever happens on the bus. -/
structure Sound (s : BusState) : Prop where
  guard : ∀ t, s.guard = some t ↔ Holds (s.conn t)
  ack : ∀ before t after, s.bus.history = before ++ .wrote t .ack :: after →
    after = [] ∧ s.conn t = .asleep

theorem sound_init : Sound init where
  guard _ := iff_of_false (by simp [init]) fun hidle => hidle
  ack before t after h := by simp [init] at h

/-- While nobody is asleep with the guard, nothing has been acknowledged. -/
theorem Sound.no_ack (h : Sound s) (hguard : ∀ u, s.guard = some u → s.conn u ≠ .asleep) :
    .wrote t .ack ∉ s.bus.history := by
  intro hmem
  obtain ⟨before, after, hsplit⟩ := List.append_of_mem hmem
  have hasleep := (h.ack before t after hsplit).2
  have hheld : s.guard = some t := (h.guard t).2 (by rw [hasleep]; trivial)
  exact hguard t hheld hasleep

/-- The guard after a move of `t`, which alone may have got or lost it. -/
theorem guard_update (h : Sound s) {c : Conn} {g : Option ℕ} (hself : g = some t ↔ Holds c)
    (hother : ∀ u, u ≠ t → (g = some u ↔ s.guard = some u)) (u : ℕ) :
    g = some u ↔ Holds (Function.update s.conn t c u) := by
  by_cases hu : u = t
  · rw [hu, Function.update_self]
    exact hself
  · rw [Function.update_of_ne hu, ← h.guard u]
    exact hother u hu

/-- An acknowledgement stands as it is after a move of a connection that is not asleep. -/
theorem ack_update (h : Sound s) (hconn : s.conn t ≠ .asleep) (c : Conn)
    (before : List Happening) (u : ℕ) (after : List Happening)
    (hsplit : s.bus.history = before ++ .wrote u .ack :: after) :
    after = [] ∧ Function.update s.conn t c u = .asleep := by
  obtain ⟨hafter, hasleep⟩ := h.ack before u after hsplit
  refine ⟨hafter, ?_⟩
  rw [Function.update_of_ne, hasleep]
  rintro rfl
  exact hconn hasleep

/-- What a connection that has the guard, and is not asleep, may assume. -/
theorem Sound.guard_of_holds (h : Sound s) (hholds : Holds (s.conn t)) (hconn : s.conn t ≠ .asleep) :
    s.guard = some t ∧ ∀ u, .wrote u .ack ∉ s.bus.history := by
  have hguard : s.guard = some t := (h.guard t).2 hholds
  refine ⟨hguard, fun u => h.no_ack ?_⟩
  intro v hv
  rw [hguard] at hv
  cases hv
  exact hconn

/-- Nothing is acknowledged by what is neither in the history nor in what is added to it. -/
theorem no_split {hs new before after : List Happening} (hhs : ∀ v, .wrote v .ack ∉ hs)
    (hnew : ∀ v, .wrote v .ack ∉ new) : hs ++ new ≠ before ++ .wrote u .ack :: after := by
  intro hsplit
  have hmem : .wrote u .ack ∈ hs ++ new := by
    rw [hsplit]
    simp
  rcases List.mem_append.1 hmem with hold | hadded
  · exact hhs u hold
  · exact hnew u hadded

theorem split_last {hs before after : List Happening} (hhs : ∀ v, .wrote v .ack ∉ hs)
    (hsplit : hs ++ [.wrote t .ack] = before ++ .wrote u .ack :: after) : after = [] ∧ u = t := by
  induction hs generalizing before with
  | nil =>
    cases before with
    | nil => simp_all
    | cons b before => simp at hsplit
  | cons x hs ih =>
    cases before with
    | nil =>
      rw [List.cons_append, List.nil_append, List.cons.injEq] at hsplit
      exact absurd (hsplit.1 ▸ List.mem_cons_self) (hhs u)
    | cons b before =>
      rw [List.cons_append, List.cons_append, List.cons.injEq] at hsplit
      exact ih (fun v hv => hhs v (List.mem_cons_of_mem x hv)) hsplit.2

theorem Sound.step {ev : BusEvent} (h : Sound s) (hstep : step s ev = some s') : Sound s' := by
  -- the moves that end a section release the guard, which only its holder had
  have hreleased : ∀ {t u : ℕ}, s.guard = some t → u ≠ t → (none = some u ↔ s.guard = some u) := by
    intro t u ht hu
    rw [ht]
    simp [hu.symm]
  have hgone : ∀ {t : ℕ} {c : Conn}, ¬Holds c → (none = some t ↔ Holds c) :=
    fun hc => iff_of_false (by simp) hc
  cases moves_of_step hstep with
  | subscribe hconn | call hconn =>
    refine ⟨guard_update h ?_ fun u _ => Iff.rfl, ack_update h (by simp [hconn]) _⟩
    rw [goto_guard, h.guard, hconn]
    exact Iff.rfl
  | takeSubscribe hfree hconn | takeCall hfree hconn =>
    refine ⟨guard_update h (iff_of_true rfl trivial) fun u hu => ?_, ack_update h (by simp [hconn]) _⟩
    simp [hfree, hu.symm]
  | clone hconn =>
    refine ⟨guard_update h ?_ fun u _ => Iff.rfl, ack_update h (by simp [hconn]) _⟩
    rw [goto_guard, h.guard, hconn]
    exact Iff.rfl
  | cloneFails hconn =>
    have hguard := (h.guard_of_holds (by rw [hconn]; trivial) (by simp [hconn])).1
    exact ⟨guard_update h (hgone fun hc => hc) fun u hu => hreleased hguard hu,
      ack_update h (by simp [hconn]) _⟩
  | ack hconn =>
    obtain ⟨hguard, hnone⟩ := h.guard_of_holds (by rw [hconn]; trivial) (by simp [hconn])
    refine ⟨guard_update h (iff_of_true hguard trivial) fun u _ => Iff.rfl, ?_⟩
    intro before u after hsplit
    obtain ⟨hafter, rfl⟩ := split_last hnone hsplit
    exact ⟨hafter, Function.update_self ..⟩
  | ackFails hconn =>
    obtain ⟨hguard, hnone⟩ := h.guard_of_holds (by rw [hconn]; trivial) (by simp [hconn])
    refine ⟨guard_update h (hgone fun hc => hc) fun u hu => hreleased hguard hu, ?_⟩
    intro before u after hsplit
    exact absurd hsplit (no_split hnone (by simp))
  | send hconn =>
    obtain ⟨hguard, hnone⟩ := h.guard_of_holds (by rw [hconn]; trivial) (by simp [hconn])
    refine ⟨guard_update h (hgone fun hc => hc) fun u hu => hreleased hguard hu, ?_⟩
    intro before u after hsplit
    refine absurd hsplit (no_split hnone fun v => ?_)
    simp [ite_eq_iff]

/-- Nobody waits to broadcast behind a connection that is asleep. -/
def Quiet (s : BusState) : Prop := ∀ u, s.conn u = .asleep → ∀ t e, s.conn t ≠ .calling e

theorem Sound.delivers (h : Sound s) : Delivers s := by
  intro before t after hsplit _
  rw [(h.ack before t after hsplit).1]
  rfl

/-- `t` waits to broadcast while `u` is asleep with the guard. -/
structure Stuck (u t : ℕ) (e : LogindEvent) (s : BusState) : Prop where
  sound : Sound s
  asleep : s.conn u = .asleep
  waits : s.conn t = .calling e

/-- Behind a connection that is asleep, a broadcast waits for ever. -/
theorem Stuck.step {e : LogindEvent} {ev : BusEvent} (h : Stuck u t e s)
    (hstep : step s ev = some s') : Stuck u t e s' := by
  have hguard : s.guard = some u := (h.sound.guard u).2 (by rw [h.asleep]; trivial)
  -- nobody but `u` and `t` moves
  have hstay : ∀ {v : ℕ} {c : Conn}, s.conn v ≠ .asleep → s.conn v ≠ .calling e →
      Function.update s.conn v c u = .asleep ∧ Function.update s.conn v c t = .calling e := by
    intro v c hasleep hcalling
    have hvu : u ≠ v := by rintro rfl; exact hasleep h.asleep
    have hvt : t ≠ v := by rintro rfl; exact hcalling h.waits
    rw [Function.update_of_ne hvu, Function.update_of_ne hvt]
    exact ⟨h.asleep, h.waits⟩
  have hconns : s'.conn u = .asleep ∧ s'.conn t = .calling e := by
    cases moves_of_step hstep with
    | takeSubscribe hfree hconn | takeCall hfree hconn => rw [hguard] at hfree; cases hfree
    | subscribe hconn | call hconn | clone hconn | cloneFails hconn | ack hconn | ackFails hconn
    | send hconn => exact hstay (by simp [hconn]) (by simp [hconn])
  exact ⟨h.sound.step hstep, hconns.1, hconns.2⟩

theorem CanEnd.of_step {ev : BusEvent} (hstep : step s ev = some s') (h : s'.CanEnd t) :
    s.CanEnd t := by
  obtain ⟨es, s'', hexec, hidle⟩ := h
  refine ⟨ev :: es, s'', ?_, hidle⟩
  simp only [exec, hstep, Option.bind_some]
  exact hexec

theorem canEnd_of_sending {e : LogindEvent} (ht : s.conn t = .sending e) : s.CanEnd t := by
  have hstep : step s (.send t fun _ => true) =
      some { s.goto t .idle with guard := none, bus := s.bus.broadcast e fun _ => true } := by
    simp only [BusState.step, ht]
  refine .of_step hstep ⟨[], _, rfl, ?_⟩
  exact Function.update_self ..

theorem canEnd_of_free {e : LogindEvent} (hfree : s.guard = none) (ht : s.conn t = .calling e) :
    s.CanEnd t := by
  have hstep : step s (.take t) = some { s.goto t (.sending e) with guard := some t } := by
    simp only [BusState.step, hfree, ht, if_true]
  refine .of_step hstep (canEnd_of_sending (e := e) ?_)
  exact Function.update_self ..

/-- A connection that waits goes on once the holder of the guard has dropped it. -/
theorem canEnd_of_release {e : LogindEvent} {v : ℕ} {c : Conn} {bus : EventBus} {ev : BusEvent}
    (hv : t ≠ v) (ht : s.conn t = .calling e)
    (hstep : step s ev = some { s.goto v c with guard := none, bus := bus }) : s.CanEnd t := by
  refine .of_step hstep (canEnd_of_free (e := e) rfl ?_)
  exact (Function.update_of_ne hv ..).trans ht

/-- A broadcast that waits for nobody asleep can go on at once, or after the holder of the guard. -/
theorem Sound.completes_iff (h : Sound s) : Completes s ↔ Quiet s := by
  constructor
  · intro hcompletes u hu t e ht
    obtain ⟨es, s', hexec, hidle⟩ := hcompletes t e (.inl ht)
    have hstuck : Stuck u t e s' := exec_invariant Stuck.step ⟨h, hu, ht⟩ hexec
    rw [hstuck.waits] at hidle
    cases hidle
  · rintro hquiet t e (ht | ht)
    · cases hguard : s.guard with
      | none => exact canEnd_of_free hguard ht
      | some v =>
        have hv : t ≠ v := by
          rintro rfl
          have hholds := (h.guard t).1 hguard
          rw [ht] at hholds
          exact hholds
        have hholds := (h.guard v).1 hguard
        cases hconn : s.conn v with
        | idle | subscribing _ | calling _ | closed => rw [hconn] at hholds; exact hholds.elim
        | asleep => exact absurd ht (hquiet v hconn t e)
        | cloning uid =>
          have hstep : s.step (.clone v false) =
              some { s.goto v .closed with guard := none, bus := s.bus } := by
            simp [BusState.step, hconn]
          exact canEnd_of_release hv ht hstep
        | acking =>
          have hstep : s.step (.ack v false) =
              some { s.goto v .closed with guard := none, bus := s.bus.note (.failed v) } := by
            simp [BusState.step, hconn]
          exact canEnd_of_release hv ht hstep
        | sending e' =>
          have hstep : s.step (.send v fun _ => true) =
              some { s.goto v .idle with
                guard := none, bus := s.bus.broadcast e' fun _ => true } := by
            simp [BusState.step, hconn]
          exact canEnd_of_release hv ht hstep
    · exact canEnd_of_sending ht

theorem quiet_step_iff {ev : BusEvent} (hquiet : Quiet s)
    (hstep : step s ev = some s') : Quiet s' ↔ Apart s ev := by
  -- a move to a place that is neither `asleep` nor `calling` makes nobody wait behind a sleeper
  have hkeeps : ∀ {t : ℕ} {c : Conn}, c ≠ .asleep → (∀ e, c ≠ .calling e) →
      ∀ u, Function.update s.conn t c u = .asleep →
        ∀ v e, Function.update s.conn t c v ≠ .calling e := by
    intro t c hasleep hcalling u hu v e hv
    have hut : u ≠ t := by
      rintro rfl
      rw [Function.update_self] at hu
      exact hasleep hu
    have hvt : v ≠ t := by
      rintro rfl
      rw [Function.update_self] at hv
      exact hcalling e hv
    rw [Function.update_of_ne hut] at hu
    rw [Function.update_of_ne hvt] at hv
    exact hquiet u hu v e hv
  cases moves_of_step hstep with
  | subscribe hconn | takeSubscribe hfree hconn | takeCall hfree hconn | clone hconn
  | cloneFails hconn | ackFails hconn | send hconn =>
    exact iff_of_true (hkeeps (by simp) (by simp)) trivial
  | @call t e hconn =>
    constructor
    · intro h u hu
      have hut : u ≠ t := by
        rintro rfl
        rw [hconn] at hu
        cases hu
      refine h u ?_ t e (Function.update_self ..)
      exact (Function.update_of_ne hut ..).trans hu
    · intro h u hu
      by_cases hut : u = t
      · rw [hut, goto_conn, Function.update_self] at hu
        cases hu
      · rw [goto_conn, Function.update_of_ne hut] at hu
        exact absurd hu (h u)
  | @ack t hconn =>
    constructor
    · intro h u e hu
      have hut : u ≠ t := by
        rintro rfl
        rw [hconn] at hu
        cases hu
      refine h t (Function.update_self ..) u e ?_
      exact (Function.update_of_ne hut ..).trans hu
    · intro h u _ v e hv
      dsimp only [goto_conn] at hv
      by_cases hvt : v = t
      · rw [hvt, Function.update_self] at hv
        cases hv
      · rw [Function.update_of_ne hvt] at hv
        exact h v e hv

/-- A run of subscribers and broadcasters delivers every event and lets every broadcast complete
exactly if no broadcast is left waiting by, or comes after, an acknowledged `Subscribe`: that one
keeps the guard for ever. -/
theorem busDelivers_iff (es : List BusEvent) :
    Always step (fun s => Completes s ∧ Delivers s) init es ↔ Meets step Apart init es := by
  refine always_iff_meets_of_invariant (J := Sound) (fun h _ _ => h.step) ?_ sound_init ?_ es
  · intro s s' ev hsound hinv hstep
    have hsound' := hsound.step hstep
    rw [hsound'.completes_iff, and_iff_left hsound'.delivers]
    exact quiet_step_iff (hsound.completes_iff.1 hinv.1) hstep
  · refine ⟨sound_init.completes_iff.2 ?_, sound_init.delivers⟩
    intro u hu
    cases hu

/-- The first subscriber blocks the next broadcast. -/
theorem not_busDelivers_after_subscribe :
    ¬Always step (fun s => Completes s ∧ Delivers s) init
      [.subscribe 0 1000, .take 0, .clone 0 true, .ack 0 true, .call 1 (.sessionLocked 1)] := by
  intro h
  have hexec : exec step init [.subscribe 0 1000, .take 0, .clone 0 true, .ack 0 true,
      .call 1 (.sessionLocked 1)] = some _ := rfl
  have hsound : Sound _ := exec_invariant Sound.step sound_init hexec
  have hquiet : Quiet _ := hsound.completes_iff.1 (h.last hexec).1
  exact hquiet 0 rfl 1 _ rfl

end BusState

end Quantra.Logind
