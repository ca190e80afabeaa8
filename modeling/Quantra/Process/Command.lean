import Quantra.Lib.Text

/-! Command lines as `process.rs` splits them. -/
namespace Quantra.Process

inductive Mode
  | normal
  | singleQuoted
  | doubleQuoted
  | escaped
  | doubleEscaped
  deriving DecidableEq, Repr

structure Splitter where
  mode : Mode := .normal
  current : List Char := []
  argv : List String := []

/-- `argv.push(take(&mut current))` unless nothing has been collected. -/
def Splitter.flush (s : Splitter) : Splitter :=
  if s.current = [] then s
  else { s with current := [], argv := s.argv ++ [String.ofList s.current] }

def Splitter.push (s : Splitter) (c : Char) : Splitter := { s with current := s.current ++ [c] }

/-- The loop body of `split_command_line`. -/
def Splitter.step (s : Splitter) (c : Char) : Splitter :=
  match s.mode with
  | .normal =>
    if c = ' ' ∨ c = '\t' ∨ c = '\n' then s.flush
    else if c = '\\' then { s with mode := .escaped }
    else if c = '\'' then { s with mode := .singleQuoted }
    else if c = '"' then { s with mode := .doubleQuoted }
    else s.push c
  | .singleQuoted => if c = '\'' then { s with mode := .normal } else s.push c
  | .doubleQuoted =>
    if c = '"' then { s with mode := .normal }
    else if c = '\\' then { s with mode := .doubleEscaped }
    else s.push c
  | .escaped => { s.push c with mode := .normal }
  | .doubleEscaped => { s.push c with mode := .doubleQuoted }

def splitCommandLine (command : String) : Except String (List String) :=
  let s := command.toList.foldl Splitter.step {}
  match s.mode with
  | .singleQuoted => .error "Unterminated single quote in command"
  | .doubleQuoted | .doubleEscaped => .error "Unterminated double quote in command"
  | .escaped => .error "Trailing escape in command"
  | .normal =>
    if s.flush.argv.isEmpty then .error "Command line is empty" else .ok s.flush.argv

/-- With explicit arguments the command is taken literally, white space included. -/
def resolveCommandArgv (command : String) (args : List String) :
    Except String (String × List String) :=
  if args.isEmpty then do
    match ← splitCommandLine command with
    | [] => .error "Empty command spec"
    | cmd :: rest => .ok (cmd, rest)
  else .ok (command, args)

example : (splitCommandLine "/bin/echo \"hello world\" 'x y' plain\\ value").toOption =
    some ["/bin/echo", "hello world", "x y", "plain value"] := by decide

end Quantra.Process
