import BuildWatch.Message.Fault
import BuildWatch.Path.Order
import BuildWatch.Script.Runner
import BuildWatch.Worker.Program

/-!
# The worker's process

A running worker is a function from the bytes that were written to it to what it
has done with them. Its lines are read from what it put out. A worker must never
write to its second stream, close a stream or end: each of these is a failure, and
so is a line that is no text. A line that is there is read before a failure is
noticed.
-/

namespace BuildWatch

/-- What a worker has done with the input that it was given so far. The files that it wrote
come in order, with their content. -/
structure WorkerOutput where
  output : List UInt8
  errors : List UInt8
  outputOpen : Bool
  errorsOpen : Bool
  interrupts : Nat
  ending : Option Script.Ending
  written : List (Path × Bytes) := []

/-- A running worker: what it does, what was written to it, and how much of its two
streams was read. -/
structure WorkerProcess where
  behaviour : List UInt8 → WorkerOutput
  input : List UInt8 := []
  readOutput : Nat := 0
  readErrors : Nat := 0

namespace Script.Ending

/-- The name of a signal. -/
def signalName : Nat → String
  | 1 => "SIGHUP"
  | 2 => "SIGINT"
  | 3 => "SIGQUIT"
  | 6 => "SIGABRT"
  | 9 => "SIGKILL"
  | 10 => "SIGUSR1"
  | 11 => "SIGSEGV"
  | 12 => "SIGUSR2"
  | 13 => "SIGPIPE"
  | 14 => "SIGALRM"
  | 15 => "SIGTERM"
  | _ => "unknown"

/-- The wording of an ending. -/
def message : Script.Ending → String
  | .exited status => "exit status: " ++ toString status
  | .killed signal => "signal: " ++ toString signal ++ " (" ++ signalName signal ++ ")"

end Script.Ending

namespace WorkerProcess

/-- More calls than a script of reasonable size makes on an input. -/
def callBound (input : List UInt8) : Nat := 100000 + 100 * input.length

/-- What a program does with its input. The streams of a program that ended are open
only as long as something it left running holds them. -/
def perform (disk : Files.Disk) (program : String) (arguments : List String)
    (input : List UInt8) : WorkerOutput :=
  let start : Script.Shell := { files := disk, input := input, inputOpen := true }
  let run := Script.Run.runNamed (callBound input) program arguments
  let (result, shell) := run.run.run start
  let ending := match result with
    | .ok () => some (.exited shell.status)
    | .error (.ended ending) => some ending
    | .error _ => none
  let leads := fun (sink : Script.Sink) => shell.first = sink || shell.second = sink
  { output := shell.output
    errors := shell.errors
    outputOpen := if ending.isSome then shell.held else leads .output
    errorsOpen := if ending.isSome then shell.held else leads .errors
    interrupts := shell.interrupts
    ending := ending
    written := shell.written }

/-- Start a program in a folder. -/
def start (disk : Files.Disk) (folder : Path) (program : String) (arguments : List String) :
    Except WorkerFault WorkerProcess :=
  match startFault? disk folder program with
  | some cause => .error (.spawn program cause)
  | none =>
    let inside := (disk.enter folder).toOption.getD disk
    .ok { behaviour := perform inside program arguments }

/-- Start the program that the first word of a command names, with the other words. -/
def ofCommand (disk : Files.Disk) (folder : Path) : List String → Except WorkerFault WorkerProcess
  | [] => .error (.process "no worker command configured")
  | program :: arguments => start disk folder program arguments

/-- Write a line to a worker. -/
def write (process : WorkerProcess) (line : String) : WorkerProcess :=
  { process with input := process.input ++ (line ++ "\n").toUTF8.toList }

/-- What a worker has done so far. -/
def sofar (process : WorkerProcess) : WorkerOutput := process.behaviour process.input

/-- The next line of a stream and how many bytes it takes up. The bytes behind the
last line end are a line only once the stream is closed. -/
def lineOf (isOpen : Bool) (bytes : List UInt8) : Option (List UInt8 × Nat) :=
  let line := bytes.takeWhile (· ≠ 10)
  if line.length < bytes.length then
    some (if line.getLast? = some 13 then line.dropLast else line, line.length + 1)
  else if isOpen || line.isEmpty then none
  else some (line, line.length)

/-- The text of a line, or the fault that it is none. -/
def decoded (line : List UInt8) : Except WorkerFault String :=
  match String.fromUTF8? ⟨line.toArray⟩ with
  | some text => .ok text
  | none => .error .notText

/-- The failure of a line on the second stream. -/
def complaint (line : List UInt8) : WorkerFault :=
  match decoded line with
  | .ok text => .process ("worker stderr: " ++ text)
  | .error fault => fault

/-- The next line or failure of a worker, if there is one without further input. -/
def next (process : WorkerProcess) : Option (Except WorkerFault String) × WorkerProcess :=
  let done := process.sofar
  match lineOf done.outputOpen (done.output.drop process.readOutput) with
  | some (line, length) =>
    (some (decoded line), { process with readOutput := process.readOutput + length })
  | none =>
    match lineOf done.errorsOpen (done.errors.drop process.readErrors) with
    | some (line, length) =>
      (some (.error (complaint line)), { process with readErrors := process.readErrors + length })
    | none =>
      if !done.outputOpen then (some (.error (.process "worker closed stdout")), process)
      else if !done.errorsOpen then (some (.error (.process "worker closed stderr")), process)
      else
        match done.ending with
        | some ending =>
          (some (.error (.process ("worker exited (" ++ ending.message ++ ")"))), process)
        | none => (none, process)

end WorkerProcess
end BuildWatch
