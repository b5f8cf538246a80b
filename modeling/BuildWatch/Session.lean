import BuildWatch.Failure
import BuildWatch.Path.Order
import BuildWatch.Project
import BuildWatch.Worker.Station

/-!
# One-shot sessions

A session compiles the project once. To check, it shows every diagnostic and fails
when one of them is an error. To ask about a place, it asks only after the compile
result has come, since a question that waits would drop that result, and shows the
answer to its own question.

The session waits for one thing at a time: the walk, the compile result, the
answer. Meanwhile the station goes on by itself, so its steps may come in between
in any order. What the station delivered is taken before its end is noticed.
-/

namespace BuildWatch

/-- What a session is for. -/
inductive Goal where
  | check
  | hover (location : Location)
  deriving DecidableEq, Repr

/-- What a session waits for. -/
inductive Stage where
  | walking
  | compiling
  | asking (display : Display)
  | ended (result : Except Failure Unit)

/-- A session of a project. -/
structure Session where
  goal : Goal
  project : Project
  station : Station
  stage : Stage := .walking

namespace Session

/-- What one step does: the state after it, what is told to the user, and the lines
that are written to the worker. -/
structure Turn where
  after : Session
  notes : List Terminal.Note := []
  written : List String := []

/-- A session whose worker was just started. -/
def start (goal : Goal) (project : Project) : Session :=
  { goal := goal
    project := project
    station := Station.idle project.settings.worker.flags }

/-- Go on after a step of the station. -/
def follow (session : Session) (turn : Station.Turn) : Turn :=
  ⟨{ session with station := turn.after }, turn.notes, turn.written⟩

/-- End a session, and stop its worker. -/
def finish (session : Session) (result : Except Failure Unit) : Session :=
  { session with station := session.station.stop, stage := .ended result }

/-- Leave an order at the station and wait for what comes of it. -/
def send (session : Session) (order : Order) (stage : Stage) : Session :=
  if session.station.isOpen then
    { session with station := session.station.accept order, stage := stage }
  else session.finish (.error .workerStopped)

/-- What is told before the files are compiled. -/
def announcement (disk : Files.Disk) (session : Session) (files : List Path) : List Terminal.Note :=
  match session.goal with
  | .check => [.log "check" ("compiling " ++ Text.count files.length "file")]
  | .hover location =>
    let root := session.project.root
    let source := disk.sourceOf root location.path
    if source.memberOf files then []
    else [.log "hover" ((Path.relativeTo root source).text ++ " is not part of the project")]

/-- Take the files that the walk found. -/
def walked (disk : Files.Disk) (session : Session) (files : List Path) : Turn :=
  match session.stage with
  | .walking =>
    { after := session.send (.compile files) .compiling
      notes := announcement disk session files }
  | _ => { after := session }

/-- Let the station take an order. -/
def relay (disk : Files.Disk) (session : Session) : Turn :=
  session.follow (session.station.relay disk)

/-- Let the station hear a line of the worker. -/
def hear (disk : Files.Disk) (session : Session) (text : String) : Turn :=
  session.follow (session.station.hear disk text)

/-- The worker fails. -/
def fail (session : Session) (fault : WorkerFault) : Turn := session.follow (session.station.fail fault)

/-- Close the station once the worker is gone. -/
def close (session : Session) : Turn := session.follow session.station.close

/-- Show the compile result of a check. -/
def showCheck (session : Session) (log : CompileLog) : Turn :=
  let lines := (log.lines session.project.root).map Terminal.Note.plain
  if log.errorCount ≠ 0 then
    { after := session.finish (.error (.checkFailed log.summary)), notes := lines }
  else
    { after := session.finish (.ok ())
      notes := lines ++ [.log "check" log.summary] }

/-- Take the compile result. -/
def compiled (disk : Files.Disk) (session : Session) (log : CompileLog) : Turn :=
  match session.goal with
  | .check => showCheck session log
  | .hover location =>
    { after := session.send (.about disk session.project.root location) (.asking {})
      notes := [.detail "hover" ("compiled: " ++ log.summary)] }

/-- Take a message while an answer is waited for. -/
def answered (session : Session) (display : Display) : Display.Message → Turn
  | .asked id => { after := { session with stage := .asking { latest := some id } } }
  | .tooltip result =>
    if display.accepts result.id then
      { after := session.finish (.ok ()), notes := [.plain (result.shown session.project.root)] }
    else { after := session, notes := [.detail "hover" "ignored a stale answer"] }
  | .compiled _ => { after := session, notes := [.detail "hover" "ignored a compile result"] }

/-- End a session whose station has closed. -/
def notice (session : Session) : Turn :=
  match session.station.phase with
  | .closed none => { after := session.finish (.error .interrupted) }
  | .closed (some fault) => { after := session.finish (.error (.workerFailed fault)) }
  | _ => { after := session }

/-- Take the oldest message of the station, or notice that none will come. -/
def proceed (disk : Files.Disk) (session : Session) : Turn :=
  match session.stage, session.station.messages with
  | .compiling, message :: rest =>
    let session := { session with station := { session.station with messages := rest } }
    match message with
    | .compiled result => compiled disk session result.log
    | _ => { after := session, notes := [.detail "worker" "ignored a message"] }
  | .asking display, message :: rest =>
    answered { session with station := { session.station with messages := rest } } display message
  | .compiling, [] => notice session
  | .asking _, [] => notice session
  | _, _ => { after := session }

/-- Interrupt a session. The station stops, and a walk is given up. -/
def interrupt (session : Session) : Turn :=
  let stopped := { session with station := session.station.stop }
  { after :=
      match session.stage with
      | .walking => stopped.finish (.error .interrupted)
      | _ => stopped
    notes := [.log "watch" "shutting down..."] }

end Session
end BuildWatch
