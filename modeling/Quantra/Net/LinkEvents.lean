import Quantra.Lib.Changes
import Quantra.Lib.Json
import Quantra.Lib.Table
import Quantra.Net.Config

/-! `quality.rs`: what is reported of the links between two looks at them
(`monitor_interface_events`). -/
namespace Quantra.LinkEvents

open NetConfig Changes

inductive EventType
  | linkUp
  | linkDown
  | addressAdded
  | addressRemoved
  deriving DecidableEq, Repr

structure NetEvent where
  eventType : EventType
  interface : String
  details : Json

/-- `{:?}`. -/
def stateText : LinkState → String
  | .up => "Up"
  | .down => "Down"
  | .unknown => "Unknown"

/-- The `HashMap` of the links under their names. -/
def linkMap (links : List InterfaceInfo) : Table String InterfaceInfo (·.name) :=
  links.foldl Table.insert .empty

def stateEvents (prev iface : InterfaceInfo) : List NetEvent :=
  if prev.state ≠ iface.state then
    [⟨if iface.state = .up then .linkUp else .linkDown, iface.name,
      .obj [("state", .str (stateText iface.state))]⟩]
  else []

def addressEvent (type : EventType) (interface address : String) : NetEvent :=
  ⟨type, interface, .obj [("address", .str address)]⟩

/-- The changes of a link that was there before. -/
def linkEvents (prev iface : InterfaceInfo) : List NetEvent :=
  stateEvents prev iface ++
    (iface.ipAddresses.filter (· ∉ prev.ipAddresses)).map (addressEvent .addressAdded iface.name) ++
    (prev.ipAddresses.filter (· ∉ iface.ipAddresses)).map (addressEvent .addressRemoved iface.name)

/-- One pass of the loop. -/
def eventsOf (interface : Option String) (beforeMap : Table String InterfaceInfo (·.name))
    (iface : InterfaceInfo) : List NetEvent :=
  if interface.any (iface.name ≠ ·) then []
  else match beforeMap.get? iface.name with
    | some prev => linkEvents prev iface
    | none => []

/-- `monitor_interface_events`, of the links that are found before and after the two seconds. -/
def monitorInterfaceEvents (interface : Option String) (before after : List InterfaceInfo) :
    List NetEvent :=
  after.flatMap (eventsOf interface (linkMap before))

/-! What a reader knows of the links. -/

structure View where
  state : LinkState
  addresses : Finset String
  deriving DecidableEq

def viewOf (iface : InterfaceInfo) : View := ⟨iface.state, iface.ipAddresses.toFinset⟩

/-- What is known of each link after a look at all of them. -/
def views (links : List InterfaceInfo) (name : String) : Option View :=
  ((linkMap links).get? name).map viewOf

def readState (j : Json) : Option LinkState :=
  j.asStr.bind fun s => [LinkState.up, .down, .unknown].find? fun state => stateText state = s

def NetEvent.address (e : NetEvent) : Option String := e.details.field "address" Json.asStr

/-- What an event changes of that; one without its details changes nothing. -/
def View.told (v : View) (e : NetEvent) : View :=
  match e.eventType with
  | .linkUp | .linkDown => { v with state := (e.details.field "state" readState).getD v.state }
  | .addressAdded => { v with addresses := (e.address.map (insert · v.addresses)).getD v.addresses }
  | .addressRemoved => { v with addresses := (e.address.map v.addresses.erase).getD v.addresses }

/-- The views after some events. -/
def replay (events : List NetEvent) (known : String → Option View) : String → Option View :=
  events.foldl (follow NetEvent.interface View.told) known

/-- The event about a change of an address. -/
def changeEvent (interface : String) : Change String → NetEvent
  | .add address => addressEvent .addressAdded interface address
  | .remove address => addressEvent .addressRemoved interface address

section Links
variable {prev iface : InterfaceInfo} {links : List InterfaceInfo} {interface : Option String}
  {before after : List InterfaceInfo} {name : String} {v : View}

theorem linkEvents_eq : linkEvents prev iface =
    stateEvents prev iface ++
      (between prev.ipAddresses iface.ipAddresses).map (changeEvent iface.name) := by
  unfold linkEvents between
  rw [List.map_append, List.map_map, List.map_map, List.append_assoc]
  rfl

theorem readState_stateText (state : LinkState) :
    Json.field (.obj [("state", .str (stateText state))]) "state" readState = some state := by
  cases state <;> rfl

theorem told_stateEvents (h : v.state = prev.state) :
    (stateEvents prev iface).foldl View.told v = { v with state := iface.state } := by
  unfold stateEvents
  split
  · show View.told v _ = _
    unfold View.told
    rw [readState_stateText]
    split <;> rename_i htype
    · rfl
    · rfl
    · split at htype <;> cases htype
    · split at htype <;> cases htype
  · rename_i hsame
    rw [not_not] at hsame
    rw [← hsame, ← h]
    rfl

theorem told_changeEvents (cs : List (Change String)) (v : View) :
    (cs.map (changeEvent name)).foldl View.told v =
      { v with addresses := cs.foldl Change.apply v.addresses } := by
  induction cs generalizing v with
  | nil => rfl
  | cons c cs ih =>
    rw [List.map_cons, List.foldl_cons, ih]
    cases c with
    | add address => rfl
    | remove address => rfl

/-- The events about a link lead from what it was to what it is. -/
theorem told_linkEvents :
    (linkEvents prev iface).foldl View.told (viewOf prev) = viewOf iface := by
  rw [linkEvents_eq, List.foldl_append, told_stateEvents rfl, told_changeEvents]
  show View.mk _ ((between prev.ipAddresses iface.ipAddresses).foldl Change.apply
    prev.ipAddresses.toFinset) = _
  rw [foldl_between]
  rfl

theorem stateEvents_eq_nil_iff : stateEvents prev iface = [] ↔ prev.state = iface.state := by
  unfold stateEvents
  split
  · rename_i hne
    exact iff_of_false (List.cons_ne_nil _ _) hne
  · rename_i hsame
    exact iff_of_true rfl (not_not.1 hsame)

/-- Nothing is reported of a link that is as it was, and of no other. -/
theorem linkEvents_eq_nil_iff : linkEvents prev iface = [] ↔ viewOf prev = viewOf iface := by
  rw [linkEvents_eq, List.append_eq_nil_iff, List.map_eq_nil_iff, stateEvents_eq_nil_iff,
    between_eq_nil_iff]
  unfold viewOf
  rw [View.mk.injEq]

theorem interface_of_mem_linkEvents {e : NetEvent} (he : e ∈ linkEvents prev iface) :
    e.interface = iface.name := by
  rw [linkEvents_eq, List.mem_append] at he
  rcases he with he | he
  · unfold stateEvents at he
    split at he
    · rw [List.mem_singleton.1 he]
    · cases he
  · obtain ⟨c, -, rfl⟩ := List.mem_map.1 he
    cases c with
    | add address => rfl
    | remove address => rfl

/-- Where no name comes twice, every link is held. -/
theorem get?_linkMap (h : (links.map (·.name)).Nodup) :
    (linkMap links).get? name = links.find? fun iface => iface.name = name := by
  unfold linkMap
  rw [Table.get?_foldl_insert h, Table.get?_empty, Option.or_none]

theorem interface_of_mem_eventsOf {beforeMap : Table String InterfaceInfo (·.name)} {e : NetEvent}
    (he : e ∈ eventsOf interface beforeMap iface) : e.interface = iface.name := by
  unfold eventsOf at he
  split at he
  · cases he
  · split at he
    · exact interface_of_mem_linkEvents he
    · cases he

/-- What is reported of one link. -/
theorem filter_monitorInterfaceEvents (interface : Option String) (before : List InterfaceInfo)
    (h : (after.map (·.name)).Nodup) (name : String) :
    (monitorInterfaceEvents interface before after).filter (fun e => e.interface = name) =
      if interface.any (name ≠ ·) then []
      else match (linkMap before).get? name, (linkMap after).get? name with
        | some prev, some iface => linkEvents prev iface
        | _, _ => [] := by
  unfold monitorInterfaceEvents
  rw [filter_flatMap NetEvent.interface (fun _ _ => interface_of_mem_eventsOf) h, ← get?_linkMap h]
  cases hafter : (linkMap after).get? name with
  | none =>
    cases (linkMap before).get? name <;> exact (ite_self _).symm
  | some iface =>
    have hname : iface.name = name := Table.key_of_get? hafter
    show eventsOf interface (linkMap before) iface = _
    unfold eventsOf
    rw [hname]
    cases (linkMap before).get? name <;> rfl

end Links

/-- Whoever knows the links before and reads the events knows every watched link that is still there
as it is after, and every other as it was; and a link is reported exactly if it is watched, was
there before, is there after, and is not as it was. -/
theorem replay_monitorInterfaceEvents (interface : Option String)
    (before after : List InterfaceInfo) (h : (after.map (·.name)).Nodup) (name : String) :
    (replay (monitorInterfaceEvents interface before after) (views before) name =
      (views before name).map fun old =>
        if interface.any (name ≠ ·) then old else (views after name).getD old) ∧
    ((∃ e ∈ monitorInterfaceEvents interface before after, e.interface = name) ↔
      interface.any (name ≠ ·) = false ∧
        ∃ old new, views before name = some old ∧ views after name = some new ∧ old ≠ new) := by
  have hfilter := filter_monitorInterfaceEvents interface before h name
  have hmem : (∃ e ∈ monitorInterfaceEvents interface before after, e.interface = name) ↔
      (monitorInterfaceEvents interface before after).filter (fun e => e.interface = name) ≠ [] := by
    rw [Ne, List.filter_eq_nil_iff]
    simp
  rw [replay, foldl_follow, hmem, hfilter]
  unfold views
  cases hwatched : interface.any (name ≠ ·) with
  | true => simp
  | false =>
    cases hprev : (linkMap before).get? name with
    | none => simp
    | some prev =>
      cases hiface : (linkMap after).get? name with
      | none => simp
      | some iface =>
        simp [told_linkEvents, linkEvents_eq_nil_iff]

def earlier : List InterfaceInfo := [⟨"eth0", .up, ["192.0.2.7"]⟩, ⟨"lo", .up, []⟩]

def later : List InterfaceInfo := [⟨"eth0", .down, ["192.0.2.9"]⟩, ⟨"wlan0", .up, []⟩]

/-- A link that is new is not reported. -/
theorem replay_monitorInterfaceEvents_eth0 :
    replay (monitorInterfaceEvents none earlier later) (views earlier) "eth0" =
      some ⟨.down, {"192.0.2.9"}⟩ ∧
    ¬∃ e ∈ monitorInterfaceEvents none earlier later, e.interface = "wlan0" := by
  have hnodup : (later.map (·.name)).Nodup := by decide
  have hnew : views earlier "wlan0" = none := rfl
  constructor
  · exact (replay_monitorInterfaceEvents none earlier later hnodup "eth0").1.trans (by decide)
  · intro hreported
    obtain ⟨-, old, -, hold, -⟩ :=
      (replay_monitorInterfaceEvents none earlier later hnodup "wlan0").2.1 hreported
    rw [hnew] at hold
    cases hold

end Quantra.LinkEvents
