import BuildWatch.Files.Edit
import BuildWatch.Files.Access
import BuildWatch.Script.Format

/-!
# The state of a running script

A script is run on the input that it was given so far, and what it does with that
input is a fixed value. It halts where it needs more input, where it sleeps, or where
it ends. When more input arrives it is run again on all of it, and does more of the
same: what it had put out before is the start of what it puts out then. So a worker
is a function from its input to its output.

A sleep of a second or more never ends here, and a shorter one takes no time.
-/

namespace BuildWatch.Script

/-- How a program ended. -/
inductive Ending where
  | exited (status : Nat)
  | killed (signal : Nat)
  deriving DecidableEq, Repr

/-- Why a script does not go on. The last two only leave a loop. -/
inductive Halt where
  | waiting
  | asleep
  | ended (ending : Ending)
  | leave
  | again
  deriving DecidableEq, Repr

/-- Where a stream leads. -/
inductive Sink where
  | output
  | errors
  | captured
  | file (path : Path)
  | nowhere
  | closed
  deriving DecidableEq, Repr

/-- The state of a running script. A program that was left running in the background
holds the streams open. The files that were written come with their content. -/
structure Shell where
  files : Files.Disk
  input : List UInt8
  inputOpen : Bool
  first : Sink := .output
  second : Sink := .errors
  output : List UInt8 := []
  errors : List UInt8 := []
  captured : List UInt8 := []
  bindings : List (String × String) := []
  name : String := "sh"
  arguments : List String := []
  status : Nat := 0
  interrupts : Nat := 0
  held : Bool := false
  written : List (Path × Bytes) := []

namespace Shell

/-- The content of a file, empty when it cannot be read. -/
def contentOf (shell : Shell) (path : Path) : Bytes :=
  ((shell.files.readBytes path).toOption.getD .empty).toList

/-- Give a file its content, and keep that it was written. -/
def writeFile (shell : Shell) (path : Path) (content : Bytes) : Shell :=
  match shell.files.writeFile path ⟨content.toArray⟩ with
  | .error _ => shell
  | .ok files =>
    { shell with
      files := files
      written := shell.written ++ [(shell.files.currentPath.join path, content)] }

end Shell

/-- A step of a running script, which may halt and keeps what was done before. -/
abbrev Run := ExceptT Halt (StateM Shell)

namespace Run

/-- The number of the script's own process. -/
def ownNumber : String := "4242"

/-- The number of the process that started the script. -/
def parentNumber : String := "4241"

/-- Put bytes out where a stream leads. -/
def putTo (sink : Sink) (bytes : List UInt8) : Run Unit :=
  modify fun shell =>
    match sink with
    | .output => { shell with output := shell.output ++ bytes }
    | .errors => { shell with errors := shell.errors ++ bytes }
    | .captured => { shell with captured := shell.captured ++ bytes }
    | .file path => shell.writeFile path (shell.contentOf path ++ bytes)
    | _ => shell

/-- Put bytes out on the first stream. -/
def put (bytes : List UInt8) : Run Unit := do putTo (← get).first bytes

/-- Put a message out on the second stream. -/
def complain (text : String) : Run Unit := do putTo (← get).second (bytesOf (text ++ "\n"))

/-- Set the status of the command that ended. -/
def setStatus (status : Nat) : Run Unit := modify fun shell => { shell with status := status }

/-- Give a variable a value. -/
def bindVariable (name value : String) : Run Unit :=
  modify fun shell =>
    { shell with bindings := (name, value) :: shell.bindings.filter (·.1 ≠ name) }

/-- The value of a variable or parameter. -/
def valueOf (name : String) : Run String := do
  let shell ← get
  return match name with
    | "$" => ownNumber
    | "PPID" => parentNumber
    | "?" => toString shell.status
    | "#" => toString shell.arguments.length
    | "0" => shell.name
    | "@" => " ".intercalate shell.arguments
    | "*" => " ".intercalate shell.arguments
    | _ =>
      match Text.numeral? 1000 name.toList with
      | some number => (shell.arguments[number - 1]?).getD ""
      | none => (shell.bindings.lookup name).getD ""

/-- Run something in an inner shell. A script that ends meanwhile ends only there, and
what it did to variables and streams is forgotten. -/
def isolated (action : Run Unit) : Run Unit := do
  let before ← get
  try action
  catch
    | .ended (.exited status) => setStatus status
    | .ended (.killed signal) => setStatus (128 + signal)
    | other => throw other
  modify fun shell =>
    { shell with
      first := before.first
      second := before.second
      bindings := before.bindings
      arguments := before.arguments
      name := before.name }

/-- Run something in an inner shell whose output on the first stream is captured. -/
def capture (action : Run Unit) : Run (List UInt8) := do
  let before ← get
  set { before with first := .captured, captured := [] }
  try isolated action
  catch halt =>
    modify fun shell => { shell with first := before.first }
    throw halt
  let after ← get
  set { after with first := before.first, captured := before.captured }
  return after.captured

/-- Run something on an input of its own. -/
def withInput (input : List UInt8) (action : Run Unit) : Run Unit := do
  let before ← get
  set { before with input := input, inputOpen := false }
  action
  modify fun shell => { shell with input := before.input, inputOpen := before.inputOpen }

/-- Take a line of the input, without its end. Nothing is left when there is none. -/
def takeLine : Run (Option (List UInt8)) := do
  let shell ← get
  let line := shell.input.takeWhile (· ≠ 10)
  match shell.input.dropWhile (· ≠ 10) with
  | _ :: rest =>
    set { shell with input := rest }
    return some line
  | [] =>
    if shell.inputOpen then throw .waiting
    else
      set { shell with input := [] }
      return if line.isEmpty then none else some line

/-- Take all of the input. What is there already is handed on before more is waited for. -/
def takeAll (use : List UInt8 → Run Unit) : Run Unit := do
  let shell ← get
  set { shell with input := [] }
  use shell.input
  if shell.inputOpen then throw .waiting

end Run

end BuildWatch.Script
