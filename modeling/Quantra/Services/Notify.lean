import Quantra.Lib.Settings
import Quantra.Lib.Timeline
import Quantra.Lib.Utf8

/-! `notify.rs`: what a service says of itself before it is ready, and how long is waited for it
(`NotifyServer::wait_for_ready`). -/
namespace Quantra.Services

open Bytes Settings Text Timeline

structure NotifyServer where
  mainPid : Option ℕ
  deriving DecidableEq, Repr

/-- `buf = [0u8; 4096]`: a longer datagram is cut off. -/
def notifyBufSize : ℕ := 4096

namespace NotifyServer

/-- The other lines (`ERRNO=`, `WATCHDOG=1`, unknown ones) are logged at most. -/
def handleLine (ns : NotifyServer) (line : String) : NotifyServer × Option Bool :=
  if line = "READY=1" then (ns, some true)
  else if (dropLead "STATUS=" line).isSome then (ns, none)
  else match dropLead "MAINPID=" line with
  | some text =>
    match parseU32 text with
    | some pid => ({ ns with mainPid := some pid }, none)
    | none => (ns, none)
  | none => (ns, none)

/-- The lines of one datagram, up to one that ends the wait. -/
def handleLines (ns : NotifyServer) : List String → NotifyServer × Option Bool
  | [] => (ns, none)
  | line :: ls =>
    match ns.handleLine line with
    | (ns, some ready) => (ns, some ready)
    | (ns, none) => ns.handleLines ls

/-- A datagram that is no text is an empty one. -/
def messageLines (bytes : List UInt8) : List String :=
  lines ((decode (bytes.take notifyBufSize)).getD "")

/-- What `recv` returns. -/
inductive Received
  | datagram (bytes : List UInt8)
  | timedOut
  | failed (e : String)

def recvError (e : String) : Except String Bool := .error ("Notify socket recv error: " ++ e)

/-- The loop; no result if the receiver still waits. -/
def recvLoop (ns : NotifyServer) : List Received → NotifyServer × Option (Except String Bool)
  | [] => (ns, none)
  | .timedOut :: _ => (ns, some (.ok false))
  | .failed e :: _ => (ns, some (recvError e))
  | .datagram bytes :: rest =>
    match ns.handleLines (messageLines bytes) with
    | (ns, some ready) => (ns, some (.ok ready))
    | (ns, none) => ns.recvLoop rest

/-- A timeout of zero is refused by `set_read_timeout`. -/
def waitForReady (ns : NotifyServer) (timeout : ℕ) (received : List Received) :
    NotifyServer × Option (Except String Bool) :=
  if timeout = 0 then (ns, some (.error "set_read_timeout: cannot set a 0 duration timeout"))
  else ns.recvLoop received

/-! What `recv` returns at which instant: it waits for `timeout` from its own start. -/

/-- What ends a `recv` before its timeout: a datagram, or an error (a signal that PID 1 handles is
one). -/
abbrev Arrival := Except String (List UInt8)

def received : Arrival → Received
  | .ok bytes => .datagram bytes
  | .error e => .failed e

/-- What comes in time, each at the instant of its receipt. -/
def inTime (timeout : ℕ) (now : ℕ) : List (Stamped Arrival) → List (Stamped Arrival)
  | [] => []
  | d :: ds =>
    if d.time ≤ now + timeout then
      ⟨max now d.time, d.what⟩ :: inTime timeout (max now d.time) ds
    else []

/-- The wait with its end; after the last datagram it ends by the timeout. -/
def waitUntil (ns : NotifyServer) (timeout now : ℕ) :
    List (Stamped Arrival) → NotifyServer × Except String Bool × ℕ
  | [] => (ns, .ok false, now + timeout)
  | d :: ds =>
    if d.time ≤ now + timeout then
      match d.what with
      | .error e => (ns, recvError e, max now d.time)
      | .ok bytes =>
        match ns.handleLines (messageLines bytes) with
        | (ns, some ready) => (ns, .ok ready, max now d.time)
        | (ns, none) => ns.waitUntil timeout (max now d.time) ds
    else (ns, .ok false, now + timeout)

/-! What the service has said, whatever datagrams it said it in. -/

def pidOf (line : String) : Option ℕ := (dropLead "MAINPID=" line).bind parseU32

/-- The server after lines without `READY=1`. -/
def after (ns : NotifyServer) (ls : List String) : NotifyServer := ⟨(last pidOf ls).or ns.mainPid⟩

/-- The datagrams before the first error. -/
def heard : List (Stamped Arrival) → List (Stamped (List UInt8))
  | [] => []
  | ⟨t, .ok bytes⟩ :: ds => ⟨t, bytes⟩ :: heard ds
  | ⟨_, .error _⟩ :: _ => []

/-- The first error. -/
def failure : List (Stamped Arrival) → Option (Stamped String)
  | [] => none
  | ⟨_, .ok _⟩ :: ds => failure ds
  | ⟨t, .error e⟩ :: _ => some ⟨t, e⟩

def said (ds : List (Stamped (List UInt8))) : List String := ds.flatMap fun d => messageLines d.what

/-- How a wait ends in which these come in time. -/
def ending (ds : List (Stamped Arrival)) : Except String Bool :=
  if "READY=1" ∈ said (heard ds) then .ok true
  else (failure ds).elim (.ok false) fun f => recvError f.what

variable {ns : NotifyServer} {ls : List String} {line : String} {timeout now : ℕ}
  {ds : List (Stamped (List UInt8))}

theorem handleLine_ready : ns.handleLine "READY=1" = (ns, some true) := rfl

theorem handleLine_of_ne (h : line ≠ "READY=1") :
    ns.handleLine line = (⟨(pidOf line).or ns.mainPid⟩, none) := by
  unfold handleLine pidOf
  rw [if_neg h]
  split
  · rename_i hstatus
    obtain ⟨rest, hrest⟩ := Option.isSome_iff_exists.1 hstatus
    have hnone : dropLead "MAINPID=" line = none := by
      cases hpid : dropLead "MAINPID=" line with
      | none => rfl
      | some rest' =>
        have htwo := (toList_of_dropLead hrest).symm.trans (toList_of_dropLead hpid)
        exact absurd (List.cons.inj htwo).1 (by decide)
    rw [hnone]
    rfl
  · cases dropLead "MAINPID=" line with
    | none => rfl
    | some text =>
      rw [Option.bind_some]
      cases hpid : parseU32 text with
      | none => simp only [hpid, Option.none_or]
      | some pid => simp only [hpid, Option.some_or]

theorem after_cons (line : String) (ls : List String) :
    ns.after (line :: ls) = (NotifyServer.mk ((pidOf line).or ns.mainPid)).after ls := by
  unfold after
  rw [last_cons, Option.or_assoc]

theorem after_append (ls ms : List String) : ns.after (ls ++ ms) = (ns.after ls).after ms := by
  unfold after
  rw [last_append, Option.or_assoc]

/-- Lines up to the first `READY=1`. -/
theorem handleLines_eq (ns : NotifyServer) (ls : List String) : ns.handleLines ls =
    (ns.after (ls.takeWhile (· ≠ "READY=1")), if "READY=1" ∈ ls then some true else none) := by
  induction ls generalizing ns with
  | nil => rfl
  | cons line ls ih =>
    unfold handleLines
    by_cases hready : line = "READY=1"
    · rw [hready, handleLine_ready, List.takeWhile_cons_of_neg (by simp),
        if_pos List.mem_cons_self]
      rfl
    · rw [handleLine_of_ne hready, List.takeWhile_cons_of_pos (by simpa using hready), after_cons]
      dsimp only
      rw [ih]
      simp only [List.mem_cons, Ne.symm hready, false_or]

theorem takeWhile_of_not_mem (h : "READY=1" ∉ ls) : ls.takeWhile (· ≠ "READY=1") = ls :=
  List.takeWhile_eq_self_iff.2 fun _ hline => decide_eq_true fun heq => h (heq ▸ hline)

theorem takeWhile_append_of_mem {ms : List String} (h : "READY=1" ∈ ls) :
    (ls ++ ms).takeWhile (· ≠ "READY=1") = ls.takeWhile (· ≠ "READY=1") := by
  induction ls with
  | nil => cases h
  | cons line ls ih =>
    by_cases hready : line = "READY=1"
    · rw [hready, List.cons_append, List.takeWhile_cons_of_neg (by simp),
        List.takeWhile_cons_of_neg (by simp)]
    · have hrest : "READY=1" ∈ ls := by
        rcases List.mem_cons.1 h with heq | hmem
        · exact absurd heq.symm hready
        · exact hmem
      rw [List.cons_append, List.takeWhile_cons_of_pos (by simpa using hready),
        List.takeWhile_cons_of_pos (by simpa using hready), ih hrest]

theorem takeWhile_append_of_not_mem {ms : List String} (h : "READY=1" ∉ ls) :
    (ls ++ ms).takeWhile (· ≠ "READY=1") = ls ++ ms.takeWhile (· ≠ "READY=1") :=
  List.takeWhile_append_of_pos fun _ hline => decide_eq_true fun heq => h (heq ▸ hline)

theorem said_cons (d : Stamped (List UInt8)) (ds : List (Stamped (List UInt8))) :
    said (d :: ds) = messageLines d.what ++ said ds := List.flatMap_cons

/-- The loop reads the lines of the datagrams as one list, up to the first error. -/
theorem recvLoop_arrivals (ns : NotifyServer) (ds : List (Stamped Arrival)) :
    ns.recvLoop (ds.map (fun d => received d.what) ++ [.timedOut]) =
      (ns.after ((said (heard ds)).takeWhile (· ≠ "READY=1")), some (ending ds)) := by
  induction ds generalizing ns with
  | nil => rfl
  | cons d ds ih =>
    obtain ⟨t, e | bytes⟩ := d
    · rfl
    · rw [List.map_cons, List.cons_append, received, recvLoop, handleLines_eq, ending, heard,
        said_cons]
      by_cases hready : "READY=1" ∈ messageLines bytes
      · rw [if_pos hready, if_pos (List.mem_append_left _ hready), takeWhile_append_of_mem hready]
      · rw [if_neg hready, takeWhile_of_not_mem hready]
        dsimp only
        rw [ih]
        simp only [List.mem_append, hready, false_or, takeWhile_append_of_not_mem hready,
          after_append, ending, failure]

/-- Whatever is sent at whatever instants: of the datagrams that come in time, one after the other
and before an error, the lines count, and in the order in which they were said. The service is
ready if one of them says so, and its main process is the last one that was named before that. -/
theorem waitForReady_spec (ns : NotifyServer) (timeout now : ℕ) (ds : List (Stamped Arrival))
    (h : 0 < timeout) :
    ns.waitForReady timeout
        ((inTime timeout now ds).map (fun d => received d.what) ++ [.timedOut]) =
      (ns.after ((said (heard (inTime timeout now ds))).takeWhile (· ≠ "READY=1")),
        some (ending (inTime timeout now ds))) := by
  rw [waitForReady, if_neg (by omega), recvLoop_arrivals]

/-- A text that fits the buffer is read line by line. -/
theorem messageLines_asBytes {s : String} (h : (asBytes s).length ≤ notifyBufSize) :
    messageLines (asBytes s) = lines s := by
  rw [messageLines, List.take_of_length_le h, decode_asBytes, Option.getD_some]

/-- Two datagrams and, if `signal` is set, an interrupted call between them. -/
def forked (signal : Bool) : List (Stamped Arrival) :=
  ⟨1, .ok (asBytes "MAINPID=42\nSTATUS=up\n")⟩ :: (if signal then [⟨2, .error "EINTR"⟩] else []) ++
    [⟨3, .ok (asBytes "READY=1\nMAINPID=7\n")⟩]

/-- The process that is named after `READY=1` is not heard, and nothing is after a signal. -/
theorem waitForReady_spec_forked :
    (⟨none⟩ : NotifyServer).waitForReady 2
      ((inTime 2 0 (forked false)).map (fun d => received d.what) ++ [.timedOut]) =
        (⟨some 42⟩, some (.ok true)) ∧
    (⟨none⟩ : NotifyServer).waitForReady 2
      ((inTime 2 0 (forked true)).map (fun d => received d.what) ++ [.timedOut]) =
        (⟨some 42⟩, some (recvError "EINTR")) := by
  have hfirst : messageLines (asBytes "MAINPID=42\nSTATUS=up\n") = ["MAINPID=42", "STATUS=up"] := by
    rw [messageLines_asBytes (by decide)]
    decide
  have hsecond : messageLines (asBytes "READY=1\nMAINPID=7\n") = ["READY=1", "MAINPID=7"] := by
    rw [messageLines_asBytes (by decide)]
    decide
  have hboth : said (heard (inTime 2 0 (forked false))) =
      ["MAINPID=42", "STATUS=up", "READY=1", "MAINPID=7"] := by
    show messageLines _ ++ (messageLines _ ++ []) = _
    rw [hfirst, hsecond]
    rfl
  have hone : said (heard (inTime 2 0 (forked true))) = ["MAINPID=42", "STATUS=up"] := by
    show messageLines _ ++ [] = _
    rw [hfirst]
    rfl
  constructor
  · rw [waitForReady_spec ⟨none⟩ 2 0 (forked false) (by decide), ending, hboth]
    decide
  · rw [waitForReady_spec ⟨none⟩ 2 0 (forked true) (by decide), ending, hone]
    decide

/-- The instant of the last datagram, or the start. -/
def lastTime (now : ℕ) (ds : List (Stamped (List UInt8))) : ℕ := ((ds.map (·.time)).getLast?).getD now

/-- The first datagram that says that the service is ready. -/
def readyAt (ds : List (Stamped (List UInt8))) : Option ℕ :=
  (ds.find? fun d => "READY=1" ∈ messageLines d.what).map (·.time)

theorem lastTime_cons (now : ℕ) (d : Stamped (List UInt8)) (ds : List (Stamped (List UInt8))) :
    lastTime now (d :: ds) = lastTime d.time ds := by
  unfold lastTime
  rw [List.map_cons, List.getLast?_cons, Option.getD_some]

/-- When a wait ends in which these come in time. -/
def endsAt (timeout now : ℕ) (ds : List (Stamped Arrival)) : ℕ :=
  (readyAt (heard ds)).getD ((failure ds).elim (lastTime now (heard ds) + timeout) (·.time))

/-- The end of the wait: the instant of that datagram, or that of the first error, or a timeout
after the last one that came in time. -/
theorem waitUntil_spec (ns : NotifyServer) (timeout now : ℕ) (ds : List (Stamped Arrival)) :
    ns.waitUntil timeout now ds =
      (ns.after ((said (heard (inTime timeout now ds))).takeWhile (· ≠ "READY=1")),
        ending (inTime timeout now ds), endsAt timeout now (inTime timeout now ds)) := by
  induction ds generalizing ns now with
  | nil => rfl
  | cons d ds ih =>
    unfold waitUntil inTime
    split
    · obtain ⟨t, e | bytes⟩ := d
      · rfl
      · rw [endsAt, ending, heard, said_cons, lastTime_cons, readyAt, List.find?_cons]
        dsimp only
        rw [handleLines_eq]
        by_cases hready : "READY=1" ∈ messageLines bytes
        · rw [if_pos hready, takeWhile_append_of_mem hready, decide_eq_true hready,
            if_pos (List.mem_append_left _ hready)]
          rfl
        · rw [if_neg hready, takeWhile_of_not_mem hready, decide_eq_false hready]
          dsimp only
          rw [ih]
          simp only [List.mem_append, hready, false_or, takeWhile_append_of_not_mem hready,
            after_append, ending, endsAt, failure, readyAt]
    · rfl

/-- A service that gives a sign of life whenever the timeout is about to expire, and is ready after
that. -/
def heartbeats (timeout now : ℕ) : ℕ → List (Stamped Arrival)
  | 0 => [⟨now + timeout, .ok (asBytes "READY=1\n")⟩]
  | n + 1 => ⟨now + timeout, .ok (asBytes "WATCHDOG=1\n")⟩ :: heartbeats timeout (now + timeout) n

theorem waitUntil_heartbeats (ns : NotifyServer) (timeout now n : ℕ) :
    ns.waitUntil timeout now (heartbeats timeout now n) = (ns, .ok true, now + (n + 1) * timeout) := by
  have hmax (t : ℕ) : max t (t + timeout) = t + timeout := Nat.max_eq_right (Nat.le_add_right t timeout)
  induction n generalizing now with
  | zero =>
    have hready : messageLines (asBytes "READY=1\n") = ["READY=1"] := by
      rw [messageLines_asBytes (by decide)]
      decide
    rw [heartbeats, waitUntil, if_pos (Nat.le_refl _), hmax, Nat.zero_add, Nat.one_mul]
    dsimp only
    rw [hready]
    rfl
  | succ n ih =>
    have halive : messageLines (asBytes "WATCHDOG=1\n") = ["WATCHDOG=1"] := by
      rw [messageLines_asBytes (by decide)]
      decide
    have hend : now + timeout + (n + 1) * timeout = now + (n + 1 + 1) * timeout := by
      rw [Nat.succ_mul (n + 1)]
      omega
    rw [heartbeats, waitUntil, if_pos (Nat.le_refl _), hmax, ← hend, ← ih]
    dsimp only
    rw [halive]
    rfl

/-- The instant at which the wait is over: that of the first datagram in time which says that the
service is ready, or of an error before it, and without one a timeout after the last datagram in
time. So the timeout is no bound for the whole wait. -/
theorem waitForReady_end (ns : NotifyServer) (timeout now : ℕ) (h : 0 < timeout) :
    (∀ ds, ns.waitUntil timeout now ds = ((ns.waitForReady timeout
        ((inTime timeout now ds).map (fun d => received d.what) ++ [.timedOut])).1,
          ending (inTime timeout now ds), endsAt timeout now (inTime timeout now ds))) ∧
    ∀ bound, ∃ ds, (ns.waitUntil timeout now ds).2.1 = .ok true ∧
      now + bound < (ns.waitUntil timeout now ds).2.2 := by
  constructor
  · intro ds
    rw [waitForReady_spec ns timeout now ds h]
    exact waitUntil_spec ns timeout now ds
  · intro bound
    refine ⟨heartbeats timeout now bound, ?_⟩
    rw [waitUntil_heartbeats]
    have hle : bound + 1 ≤ (bound + 1) * timeout := Nat.le_mul_of_pos_right _ h
    exact ⟨rfl, by dsimp only; omega⟩

theorem waitForReady_end_late : ∃ ds, ((⟨none⟩ : NotifyServer).waitUntil 1 0 ds).2.1 = .ok true ∧
    0 + 60 < ((⟨none⟩ : NotifyServer).waitUntil 1 0 ds).2.2 :=
  (waitForReady_end ⟨none⟩ 1 0 (by decide)).2 60

end NotifyServer

end Quantra.Services
