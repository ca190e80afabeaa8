import Mathlib.Data.List.Basic

/-! `execute_command` on a batch: what is answered and what has been executed by then. -/
namespace Quantra.Batch

/-- Commands, over those that are not batches. -/
inductive NetCommand (C : Type)
  | batch (commands : List (NetCommand C))
  | other (command : C)

/-- Responses, over those of the commands that are not batches. -/
inductive NetResponse (R : Type)
  | batch (responses : List (NetResponse R))
  | error (message : String)
  | other (response : R)

/-- The network, and the commands that `execute_inner` was given, the latest at the end. -/
structure Daemon (C σ : Type) where
  network : σ
  executed : List (NetCommand C)

variable {C R σ : Type}

/-- `matches!(cmd, NetCommand::Batch { .. })`. -/
def NetCommand.isBatch : NetCommand C → Bool
  | .batch _ => true
  | .other _ => false

/-! The handlers of the single commands are `run`: any response, any change of the network. -/
section Execute
variable (run : C → σ → NetResponse R × σ)

def executeInner (command : NetCommand C) (d : Daemon C σ) : NetResponse R × Daemon C σ :=
  match command with
  | .other c => ((run c d.network).1, ⟨(run c d.network).2, d.executed ++ [command]⟩)
  | .batch _ => (.error "Batch must use outer wrapper", ⟨d.network, d.executed ++ [command]⟩)

/-- The loop of `batch_execute`. -/
def batchLoop (out : List (NetResponse R)) :
    List (NetCommand C) → Daemon C σ → Except String (List (NetResponse R)) × Daemon C σ
  | [], d => (.ok out, d)
  | cmd :: commands, d =>
    if cmd.isBatch then (.error "Nested batch not allowed", d)
    else batchLoop (out ++ [(executeInner run cmd d).1]) commands (executeInner run cmd d).2

def batchExecute (commands : List (NetCommand C)) (d : Daemon C σ) :
    Except String (List (NetResponse R)) × Daemon C σ :=
  batchLoop run [] commands d

def executeCommand (command : NetCommand C) (d : Daemon C σ) : NetResponse R × Daemon C σ :=
  match command with
  | .batch commands =>
    match batchExecute run commands d with
    | (.ok r, d') => (.batch r, d')
    | (.error e, d') => (.error ("Batch failed: " ++ e), d')
  | .other _ => executeInner run command d

/-! What a batch is to be. -/

/-- Each command is answered by `execute_inner`, in the state that the one before it left. -/
inductive Answered : List (NetCommand C) → Daemon C σ → List (NetResponse R) → Daemon C σ → Prop
  | nil (d : Daemon C σ) : Answered [] d [] d
  | cons {command : NetCommand C} {commands : List (NetCommand C)} {d d' : Daemon C σ}
      {responses : List (NetResponse R)}
      (rest : Answered commands (executeInner run command d).2 responses d') :
      Answered (command :: commands) d ((executeInner run command d).1 :: responses) d'

/-- All commands are answered, or an error is and none has been executed. -/
def AllOrNothing (commands : List (NetCommand C)) (d : Daemon C σ) : Prop :=
  (∃ responses, (executeCommand run (.batch commands) d).1 = .batch responses ∧
    Answered run commands d responses (executeCommand run (.batch commands) d).2) ∨
  ∃ message, (executeCommand run (.batch commands) d).1 = .error message ∧
    (executeCommand run (.batch commands) d).2.executed = d.executed

end Execute

section Loop
variable {run : C → σ → NetResponse R × σ} {commands before after : List (NetCommand C)}
  {nested : NetCommand C} {d d' : Daemon C σ} {out responses : List (NetResponse R)}

theorem executeInner_executed (command : NetCommand C) (d : Daemon C σ) :
    (executeInner run command d).2.executed = d.executed ++ [command] := by
  cases command <;> rfl

theorem Answered.executed (h : Answered run commands d responses d') :
    d'.executed = d.executed ++ commands := by
  induction h with
  | nil d => rw [List.append_nil]
  | cons _ ih => rw [ih, executeInner_executed, List.append_assoc, List.singleton_append]

/-- The commands before a nested batch are executed whatever comes after them. -/
theorem batchLoop_append (run : C → σ → NetResponse R × σ)
    (hsingle : ∀ c ∈ before, c.isBatch = false) (out : List (NetResponse R)) (d : Daemon C σ) :
    ∃ responses d', Answered run before d responses d' ∧ ∀ after,
      batchLoop run out (before ++ after) d = batchLoop run (out ++ responses) after d' := by
  induction before generalizing out d with
  | nil => exact ⟨[], d, .nil d, fun after => by rw [List.nil_append, List.append_nil]⟩
  | cons c before ih =>
    have hc : c.isBatch = false := hsingle c List.mem_cons_self
    obtain ⟨responses, d', hrest, hloop⟩ :=
      ih (fun b hb => hsingle b (List.mem_cons_of_mem c hb)) (out ++ [(executeInner run c d).1])
        (executeInner run c d).2
    refine ⟨(executeInner run c d).1 :: responses, d', .cons hrest, fun after => ?_⟩
    rw [List.cons_append, batchLoop, if_neg (by rw [hc]; exact Bool.false_ne_true), hloop,
      List.append_assoc, List.singleton_append]

theorem executeCommand_single (run : C → σ → NetResponse R × σ) (d : Daemon C σ)
    (hsingle : ∀ c ∈ commands, c.isBatch = false) :
    ∃ responses d', executeCommand run (.batch commands) d = (.batch responses, d') ∧
      Answered run commands d responses d' := by
  obtain ⟨responses, d', hanswered, hloop⟩ := batchLoop_append run hsingle [] d
  have hall := hloop []
  rw [List.append_nil, List.nil_append, batchLoop] at hall
  exact ⟨responses, d', by rw [executeCommand, batchExecute, hall], hanswered⟩

/-- What was executed before the nested batch stays, and its responses are lost. -/
theorem executeCommand_nested (run : C → σ → NetResponse R × σ) (d : Daemon C σ)
    (after : List (NetCommand C)) (hsingle : ∀ c ∈ before, c.isBatch = false)
    (hnested : nested.isBatch = true) :
    ∃ responses d', executeCommand run (.batch (before ++ nested :: after)) d =
        (.error "Batch failed: Nested batch not allowed", d') ∧ Answered run before d responses d' := by
  obtain ⟨responses, d', hanswered, hloop⟩ := batchLoop_append run hsingle [] d
  have hstop := hloop (nested :: after)
  rw [batchLoop, if_pos hnested] at hstop
  exact ⟨responses, d', by rw [executeCommand, batchExecute, hstop]; rfl, hanswered⟩

end Loop

/-- A batch is all or nothing unless a nested one comes after another command. -/
theorem allOrNothing_iff (run : C → σ → NetResponse R × σ) (commands : List (NetCommand C))
    (d : Daemon C σ) : AllOrNothing run commands d ↔
      (∀ c ∈ commands, c.isBatch = false) ∨ ∃ c, commands.head? = some c ∧ c.isBatch = true := by
  cases hfind : commands.find? NetCommand.isBatch with
  | none =>
    have hsingle : ∀ c ∈ commands, c.isBatch = false := fun c hc =>
      Bool.eq_false_iff.2 (List.find?_eq_none.1 hfind c hc)
    obtain ⟨responses, d', hcommand, hanswered⟩ := executeCommand_single run d hsingle
    refine ⟨fun _ => .inl hsingle, fun _ => .inl ⟨responses, ?_⟩⟩
    rw [hcommand]
    exact ⟨rfl, hanswered⟩
  | some nested =>
    obtain ⟨hnested, before, after, rfl, hbefore⟩ := List.find?_eq_some_iff_append.1 hfind
    have hsingle : ∀ c ∈ before, c.isBatch = false := fun c hc => by
      simpa only [Bool.not_eq_true'] using hbefore c hc
    obtain ⟨responses, d', hcommand, hanswered⟩ :=
      executeCommand_nested run d after hsingle hnested
    have hexecuted := hanswered.executed
    rw [AllOrNothing, hcommand]
    constructor
    · rintro (⟨responses, hbatch, -⟩ | ⟨message, -, hnone⟩)
      · cases hbatch
      · -- nothing executed means that nothing comes before the nested batch
        have hempty : before = [] := List.append_right_eq_self.1 (hexecuted.symm.trans hnone)
        subst hempty
        exact .inr ⟨nested, rfl, hnested⟩
    · rintro (hall | ⟨c, hhead, hc⟩)
      · have hmem := hall nested (List.mem_append_right before List.mem_cons_self)
        rw [hnested] at hmem
        cases hmem
      · cases before with
        | nil =>
          rw [List.append_nil] at hexecuted
          exact .inr ⟨_, rfl, hexecuted⟩
        | cons b before =>
          cases hhead
          rw [hsingle c List.mem_cons_self] at hc
          cases hc

/-! Two of the handlers, over the links of the kernel and whether they are up. -/

inductive LinkCommand
  | linkUp (name : String)
  | linkDown (name : String)

def setLinkState (links : List (String × Bool)) (name : String) (up : Bool) :
    Except String (List (String × Bool)) :=
  if links.any (·.1 = name) then .ok (links.map fun l => if l.1 = name then (name, up) else l)
  else .error ("Interface '" ++ name ++ "' not found")

def runLink (command : LinkCommand) (links : List (String × Bool)) :
    NetResponse String × List (String × Bool) :=
  match command with
  | .linkUp n =>
    match setLinkState links n true with
    | .ok links' => (.other ("✓ Interface '" ++ n ++ "' is now UP"), links')
    | .error e => (.error ("Cannot bring '" ++ n ++ "' up: " ++ e), links)
  | .linkDown n =>
    match setLinkState links n false with
    | .ok links' => (.other ("✓ Interface '" ++ n ++ "' is now DOWN"), links')
    | .error e => (.error ("Cannot bring '" ++ n ++ "' down: " ++ e), links)

/-- An error is answered, and the link is down. -/
theorem linkDown_then_nested :
    ¬ AllOrNothing runLink [.other (.linkDown "eth0"), .batch []] ⟨[("eth0", true)], []⟩ := by
  rintro (⟨responses, hbatch, -⟩ | ⟨message, -, hnone⟩)
  · cases hbatch
  · cases hnone

end Quantra.Batch
