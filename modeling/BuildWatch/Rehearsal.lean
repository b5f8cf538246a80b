import BuildWatch.Arguments.Reader
import BuildWatch.Files.Edit
import BuildWatch.Session
import BuildWatch.Sources
import BuildWatch.System
import BuildWatch.Watch.Notice
import BuildWatch.Worker.Process

/-!
# Rehearsals

A rehearsal runs the whole program on given files, with a worker that is a shell
script, while some things happen to it one after another. Of the many orders in
which the parts could go on it takes one: after everything that happens, all of
them go on until none has anything left to do, and time passes only then. Where the
program's output does not hang on that order, a rehearsal prints what any run
prints. While a project is watched, the files that the worker wrote come to the
disk when all parts wait; a one-shot session does not see them.
-/

namespace BuildWatch

/-- A change of the files. -/
inductive FileChange where
  | place (path : Path) (entry : Files.Entry)
  | remove (path : Path)
  | rename (path target : Path)

namespace FileChange

/-- Carry out a change. One that fails changes nothing. -/
def apply (disk : Files.Disk) : FileChange → Files.Disk
  | .place path entry => disk.place path entry
  | .remove path => (disk.remove path).toOption.getD disk
  | .rename path target => (disk.rename path target).toOption.getD disk

/-- The paths that a change touches. -/
def paths : FileChange → List Path
  | .place path _ => [path]
  | .remove path => [path]
  | .rename path target => [path, target]

end FileChange

/-- What happens to a running program. -/
inductive Incident where
  | typed (text : String)
  | inputClosed
  | interrupted
  | changed (change : FileChange)

/-- How a program ended: its exit code, what it printed, and its report. -/
structure ProgramResult where
  code : Nat
  notes : List Terminal.Note
  report : String

namespace Rehearsal

/-- More steps than the parts take between two incidents. -/
def stepBound : Nat := 100000

/-- A running worker, how many of its interruptions were handled, and how many of the files
that it wrote are on the disk. -/
structure Stage where
  process : WorkerProcess
  interrupts : Nat := 0
  written : Nat := 0

/-- Write lines to the worker. -/
def Stage.write (stage : Stage) (lines : List String) : Stage :=
  { stage with process := lines.foldl WorkerProcess.write stage.process }

/-- Start the worker of a project. -/
def startWorker (disk : Files.Disk) (project : Project) : Except WorkerFault Stage :=
  (WorkerProcess.ofCommand disk project.root project.settings.worker.command).map
    fun process => { process := process }

/-! ### One-shot sessions -/

/-- One step of some part of a session, if any has something to do. -/
def sessionStep (disk : Files.Disk) (session : Session) (stage : Stage) :
    Option (Session.Turn × Stage) :=
  let running := match session.station.phase with
    | .running => true
    | _ => false
  if running && !session.station.orders.isEmpty then some (session.relay disk, stage)
  else if !session.station.messages.isEmpty then some (session.proceed disk, stage)
  else if running then
    if stage.interrupts < stage.process.sofar.interrupts then
      some (session.interrupt, { stage with interrupts := stage.interrupts + 1 })
    else
      match stage.process.next with
      | (some (.ok line), process) => some (session.hear disk line, { stage with process := process })
      | (some (.error fault), process) => some (session.fail fault, { stage with process := process })
      | (none, _) => none
  else
    match session.station.phase with
    | .failing _ => some (session.close, stage)
    | _ => some (session.proceed disk, stage)

/-- Whether a session has ended, and how. -/
def sessionResult (session : Session) : Option (Except Failure Unit) :=
  match session.stage with
  | .ended result => some result
  | _ => none

/-- Let the parts of a session go on until it ends or waits for an incident. -/
def runSession (disk : Files.Disk) : Nat → Session → Stage → Noted (Session × Stage)
  | 0, session, stage => .quiet (session, stage)
  | left + 1, session, stage =>
    match sessionResult session, sessionStep disk session stage with
    | none, some (turn, stage) =>
      (Noted.tellAll turn.notes).andThen fun _ =>
        runSession disk left turn.after (stage.write turn.written)
    | _, _ => .quiet (session, stage)

/-- Let incidents happen to a session; only an interruption matters to it. -/
def playSession (disk : Files.Disk) : List Incident → Session → Stage → Noted Session
  | [], session, stage =>
    (runSession disk stepBound session stage).andThen fun (session, _) => .quiet session
  | incident :: rest, session, stage =>
    (runSession disk stepBound session stage).andThen fun (session, stage) =>
      match incident, sessionResult session with
      | .interrupted, none =>
        let turn := session.interrupt
        (Noted.tellAll turn.notes).andThen fun _ => playSession disk rest turn.after stage
      | _, _ => playSession disk rest session stage

/-- The exit code and report of a result. -/
def conclude (notes : List Terminal.Note) : Except Failure Unit → ProgramResult
  | .ok () => ⟨0, notes, ""⟩
  | .error failure => ⟨1, notes, failure.report⟩

/-- Run a one-shot session of a project. -/
def oneShot (disk : Files.Disk) (goal : Goal) (project : Project) (incidents : List Incident) :
    Noted (Except Failure Unit) :=
  match startWorker disk project with
  | .error fault => .quiet (.error (.notStarted fault))
  | .ok stage =>
    (project.sources disk).andThen fun files =>
      let turn := (Session.start goal project).walked disk files
      (Noted.tellAll turn.notes).andThen fun _ =>
        (playSession disk incidents turn.after stage).andThen fun session =>
          .quiet ((sessionResult session).getD (.error .interrupted))

/-! ### Watching -/

/-- A watched project with its worker, the files and the time. Of the typed text the
part of the last line is kept until the line ends. -/
structure Watching where
  system : System
  stage : Stage
  disk : Files.Disk
  now : Nat := 0
  openLine : String := ""
  /-- Whether the settings file was there at the start, so that it is watched. -/
  watchesSettings : Bool

/-- One step of some part of the system, if any has something to do. -/
def systemStep (watching : Watching) : Option (System.Turn × Stage) :=
  let system := watching.system
  let stage := watching.stage
  let running := match system.station.phase with
    | .running => true
    | _ => false
  if !system.station.messages.isEmpty then some (system.present, stage)
  else if system.ended.isSome then none
  else if system.watcher.raised ≠ 0 then some (system.handleRaised, stage)
  else if system.watcher.walk.isSome then some (system.endWalk watching.disk, stage)
  else if running && !system.station.orders.isEmpty then some (system.relay watching.disk, stage)
  else if running then
    if stage.interrupts < stage.process.sofar.interrupts then
      some (system.interrupt, { stage with interrupts := stage.interrupts + 1 })
    else
      match stage.process.next with
      | (some (.ok line), process) =>
        some (system.hear watching.disk line, { stage with process := process })
      | (some (.error fault), process) => some (system.fail fault, { stage with process := process })
      | (none, _) => none
  else some (system.close, stage)

/-- Go on after a step of the system. -/
def Watching.follow (watching : Watching) (turn : System.Turn) (stage : Stage) : Noted Watching :=
  ⟨{ watching with system := turn.after, stage := stage.write turn.written }, turn.notes⟩

/-- Let the parts of the system go on until all wait. -/
def runSystem : Nat → Watching → Noted Watching
  | 0, watching => .quiet watching
  | left + 1, watching =>
    match systemStep watching with
    | none => .quiet watching
    | some (turn, stage) => (watching.follow turn stage).andThen (runSystem left)

/-- Let the parts go on, and time pass at most so often, until no change waits. -/
def settle : Nat → Watching → Noted Watching
  | 0, watching => runSystem stepBound watching
  | left + 1, watching =>
    (runSystem stepBound watching).andThen fun watching =>
      let watcher := watching.system.watcher
      if watching.system.ended.isSome then .quiet watching
      else if watcher.debouncer.last.isSome || watcher.subscriptions.hasMissing then
        let now := watching.now + watcher.wait watching.now
        let watching := { watching with now := now }
        (watching.follow (watching.system.tick watching.disk now) watching.stage).andThen (settle left)
      else .quiet watching

/-- Tell the watcher of events. -/
def observeAll (watching : Watching) : List WatchEvent → Noted Watching
  | [] => .quiet watching
  | event :: rest =>
    (watching.follow (watching.system.observe watching.disk watching.now event)
      watching.stage).andThen (observeAll · rest)

/-- Take typed lines in order. -/
def typeAll (watching : Watching) : List String → Noted Watching
  | [] => .quiet watching
  | line :: rest =>
    (watching.follow (watching.system.typed watching.disk line) watching.stage).andThen
      fun watching => (runSystem stepBound watching).andThen (typeAll · rest)

/-- The lines of a text that have ended, and the rest of it. -/
def endedLines (text : String) : List String × String :=
  let parts := text.splitOn "\n"
  (parts.dropLast, parts.getLast?.getD "")

/-- How often time passes after an incident: a change is waited out, and a root that
is missing is looked for once more. -/
def pauses : Nat := 3

/-- Change the files, and let the change of some paths be noticed. -/
def touch (watching : Watching) (disk : Files.Disk) (paths : List Path) : Noted Watching :=
  let watching := { watching with disk := disk }
  let events := (watching.system.watcher.notices paths).filter fun event =>
    event != .settingsChanged || watching.watchesSettings
  (observeAll watching events).andThen (settle pauses)

/-- Let the parts go on until all wait, and bring the files that the worker wrote meanwhile
to the disk, at most so often. -/
def goOn : Nat → Watching → Noted Watching
  | 0, watching => runSystem stepBound watching
  | left + 1, watching =>
    (runSystem stepBound watching).andThen fun watching =>
      let stage := watching.stage
      let written := stage.process.sofar.written.drop stage.written
      if written.isEmpty || watching.system.ended.isSome then .quiet watching
      else
        let disk := written.foldl (fun disk (path, content) =>
          (disk.writeFile path ⟨content.toArray⟩).toOption.getD disk) watching.disk
        let stage := { stage with written := stage.written + written.length }
        (touch { watching with stage := stage } disk (written.map Prod.fst)).andThen (goOn left)

/-- How often files that the worker wrote are looked for before an incident. -/
def rounds : Nat := 8

/-- Let an incident happen. -/
def happen (watching : Watching) : Incident → Noted Watching
  | .interrupted => watching.follow watching.system.interrupt watching.stage
  | .typed text =>
    let (lines, rest) := endedLines (watching.openLine ++ text)
    typeAll { watching with openLine := rest } lines
  | .inputClosed =>
    let last := watching.openLine
    let watching := { watching with openLine := "" }
    if last.isEmpty then .quiet watching else typeAll watching [last]
  | .changed change => touch watching (change.apply watching.disk) change.paths

/-- Let incidents happen until the system ends. -/
def play : List Incident → Watching → Noted Watching
  | [], watching => goOn rounds watching
  | incident :: rest, watching =>
    (goOn rounds watching).andThen fun watching =>
      if watching.system.ended.isSome then .quiet watching
      else (happen watching incident).andThen (play rest)

/-- Watch a project. -/
def watch (disk : Files.Disk) (project : Project) (incidents : List Incident) :
    Noted (Except Failure Unit) :=
  match startWorker disk project with
  | .error fault => .quiet (.error (.notStarted fault))
  | .ok stage =>
    let turn := System.start disk project
    (Noted.tellAll turn.notes).andThen fun _ =>
      (play incidents
        { system := turn.after
          stage := stage
          disk := disk
          watchesSettings := disk.has project.settingsPath }).andThen fun watching =>
        ⟨watching.system.ended.getD (.ok ()), [.detail "actor" "stopped"]⟩

/-! ### The whole program -/

/-- The result when there are no arguments to work with. Help and the version are
what was asked for, and anything else is a misuse. -/
def refuse (cause : ArgumentsError) : ProgramResult :=
  if cause = .help ∨ cause = .version then ⟨0, [.plain cause.message], ""⟩
  else ⟨2, [], "error: " ++ cause.message ++ "\n"⟩

/-- Do what the arguments say. -/
def perform (disk : Files.Disk) (arguments : Arguments) (incidents : List Incident) :
    Noted (Except Failure Unit) :=
  (Project.load disk arguments).andThen fun loaded =>
    match loaded with
    | .error fault => .quiet (.error (.settings fault))
    | .ok project =>
      match arguments.job with
      | .watch => watch disk project incidents
      | .check => oneShot disk .check project incidents
      | .hover location => oneShot disk (.hover location) project incidents

/-- Run the program with the words after its name. -/
def run (disk : Files.Disk) (words : List String) (incidents : List Incident) : ProgramResult :=
  match Arguments.read words with
  | .error cause => refuse cause
  | .ok arguments =>
    let performed := perform disk arguments incidents
    conclude performed.notes performed.value

end Rehearsal
end BuildWatch
