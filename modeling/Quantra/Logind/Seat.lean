import Quantra.Logind.Types

/-! `seat.rs`: the seat manager. -/
namespace Quantra.Logind

structure SeatManager where
  seats : Table String Seat Seat.id

namespace SeatManager

/-- `detect`: one seat, with the devices that the system has. -/
def detect (devices : List (String × DeviceKind)) (canTty : Bool) : SeatManager where
  seats := Table.empty.insert
    { id := "seat0"
      devices := devices.map fun d => { path := d.1, kind := d.2 }
      canGraphical := devices.any fun d => d.2 = .drm
      canTty := canTty }

def addedTo (sid : SessionId) (seat : Seat) : Seat :=
  { seat with
    sessions := if seat.sessions.contains sid then seat.sessions else seat.sessions ++ [sid]
    activeSession := seat.activeSession.or (some sid) }

def addSession (sm : SeatManager) (seatId : String) (sid : SessionId) : SeatManager :=
  { sm with seats := sm.seats.modify seatId (addedTo sid) fun _ => rfl }

def removedFrom (sid : SessionId) (seat : Seat) : Seat :=
  let sessions := seat.sessions.filter (· ≠ sid)
  { seat with
    sessions := sessions
    activeSession := if seat.activeSession = some sid then sessions.head? else seat.activeSession }

def removeSession (sm : SeatManager) (seatId : String) (sid : SessionId) : SeatManager :=
  { sm with seats := sm.seats.modify seatId (removedFrom sid) fun _ => rfl }

def notFound (seatId : String) : String := "seat " ++ seatId ++ " not found"

def activate (sm : SeatManager) (seatId : String) (sid : SessionId) :
    Except String Unit × SeatManager :=
  match sm.seats.get? seatId with
  | none => (.error (notFound seatId), sm)
  | some seat =>
    if seat.sessions.contains sid then
      (.ok (),
        { sm with
          seats := sm.seats.modify seatId (fun s => { s with activeSession := some sid })
            fun _ => rfl })
    else (.error ("session " ++ toString sid ++ " not on seat " ++ seatId), sm)

/-- `tty0` is the answer to opening the console, `ioctl` the one to `VT_ACTIVATE`. -/
def switchToVt (vt : ℕ) (tty0 ioctl : Except String Unit) : Except String Unit :=
  if vt = 0 ∨ vt > 63 then .error ("invalid VT number: " ++ toString vt)
  else
    match tty0, ioctl with
    | .error e, _ => .error ("/dev/tty0: " ++ e)
    | .ok _, .error e => .error ("VT_ACTIVATE " ++ toString vt ++ ": " ++ e)
    | .ok _, .ok _ => .ok ()

/-- A change to the first device at a path. -/
def alterDevice (devpath : String) (f : SeatDevice → SeatDevice) :
    List SeatDevice → List SeatDevice
  | [] => []
  | d :: ds => if d.path = devpath then f d :: ds else d :: alterDevice devpath f ds

/-- An open device is not opened again; `opened` is the answer to opening it. -/
def takeDevice (sm : SeatManager) (seatId devpath : String) (opened : Except String ℤ) :
    Except String ℤ × SeatManager :=
  match sm.seats.get? seatId with
  | none => (.error (notFound seatId), sm)
  | some seat =>
    match seat.devices.find? fun d => d.path = devpath with
    | none => (.error ("device " ++ devpath ++ " not on seat " ++ seatId), sm)
    | some dev =>
      match dev.fd, opened with
      | some fd, _ => (.ok fd, sm)
      | none, .error e => (.error ("open " ++ devpath ++ ": " ++ e), sm)
      | none, .ok fd =>
        (.ok fd,
          { sm with
            seats := sm.seats.modify seatId
              (fun s =>
                { s with devices := alterDevice devpath (fun d => { d with fd := some fd }) s.devices })
              fun _ => rfl })

def releaseDevice (sm : SeatManager) (seatId devpath : String) :
    Except String Unit × SeatManager :=
  match sm.seats.get? seatId with
  | none => (.error (notFound seatId), sm)
  | some _ =>
    (.ok (),
      { sm with
        seats := sm.seats.modify seatId
          (fun s => { s with devices := alterDevice devpath (fun d => { d with fd := none }) s.devices })
          fun _ => rfl })

def list (sm : SeatManager) : List String := sm.seats.rows.map (·.id)

section Get
variable {sm : SeatManager} {seatId k : String} {sid : SessionId}

@[simp] theorem get?_addSession : (sm.addSession seatId sid).seats.get? k =
    if k = seatId then (sm.seats.get? k).map (addedTo sid) else sm.seats.get? k :=
  Table.get?_modify (f := addedTo sid) fun _ => rfl

@[simp] theorem get?_removeSession : (sm.removeSession seatId sid).seats.get? k =
    if k = seatId then (sm.seats.get? k).map (removedFrom sid) else sm.seats.get? k :=
  Table.get?_modify (f := removedFrom sid) fun _ => rfl

/-- A refused activation changes nothing. -/
theorem activate_cases (sm : SeatManager) (seatId : String) (sid : SessionId) :
    (∃ seat, sm.seats.get? seatId = some seat ∧ sid ∈ seat.sessions ∧
      (sm.activate seatId sid).1 = .ok () ∧
      ∀ k, (sm.activate seatId sid).2.seats.get? k =
        if k = seatId then some { seat with activeSession := some sid } else sm.seats.get? k) ∨
    ((∀ seat, sm.seats.get? seatId = some seat → sid ∉ seat.sessions) ∧
      (∃ e, (sm.activate seatId sid).1 = .error e) ∧ (sm.activate seatId sid).2 = sm) := by
  unfold activate
  cases hseat : sm.seats.get? seatId with
  | none => exact .inr ⟨fun _ h => by simp at h, ⟨_, rfl⟩, rfl⟩
  | some seat =>
    dsimp only
    split
    · rename_i hmem
      refine .inl ⟨seat, rfl, List.contains_iff_mem.1 hmem, rfl, fun k => ?_⟩
      simp only [Table.get?_modify]
      split
      · rename_i hk
        rw [hk, hseat, Option.map_some]
      · rfl
    · rename_i hmem
      refine .inr ⟨?_, ⟨_, rfl⟩, rfl⟩
      intro seat' hseat' hmem'
      cases hseat'
      exact hmem (List.contains_iff_mem.2 hmem')

/-- Activation leaves all but the active session of a seat. -/
theorem map_get?_activate {β : Type} {g : Seat → β}
    (hg : ∀ seat active, g { seat with activeSession := active } = g seat) :
    ((sm.activate seatId sid).2.seats.get? k).map g = (sm.seats.get? k).map g := by
  unfold activate
  split
  · rfl
  · split
    · dsimp only
      exact Table.map_get?_modify fun seat => hg seat (some sid)
    · rfl

end Get

end SeatManager

end Quantra.Logind
