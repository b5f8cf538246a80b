import BuildWatch.Failure
import BuildWatch.Input
import BuildWatch.Watch.Watcher
import BuildWatch.Worker.Station

/-!
# Watching

While a project is watched, the watcher, the station of the worker, the display and
the keyboard each go on by themselves, and pass each other orders, messages and
requests to rebuild. They stop together: on an interruption, which is no failure,
or when the worker fails.
-/

namespace BuildWatch

/-- The parts that go on while a project is watched. Typed lines are read while
there are any and their receiver is there. -/
structure System where
  watcher : Watcher
  station : Station
  display : Display := {}
  root : Path
  reads : Bool := true
  ended : Option (Except Failure Unit) := none

namespace System

/-- What one step does: the state after it, what is told to the user, and the lines
that are written to the worker. -/
structure Turn where
  after : System
  notes : List Terminal.Note := []
  written : List String := []

/-- A system whose worker was just started. -/
def start (disk : Files.Disk) (project : Project) : Turn :=
  let watcher := Watcher.start disk project (some (Current.start disk project))
  { after :=
      { watcher := watcher.value
        station := Station.idle project.settings.worker.flags
        root := project.root }
    notes := watcher.notes ++
      [.log "watch" ("watching " ++ project.describedRoots), .detail "actor" "start"] }

/-- Go on after a step of the watcher. -/
def withWatcher (system : System) (watcher : Noted Watcher) : Turn :=
  { after := { system with watcher := watcher.value }, notes := watcher.notes }

/-- Go on after a step of the station. -/
def withStation (system : System) (turn : Station.Turn) : Turn :=
  ⟨{ system with station := turn.after }, turn.notes, turn.written⟩

/-- Tell the watcher of a change. -/
def observe (disk : Files.Disk) (now : Nat) (system : System) (event : WatchEvent) : Turn :=
  system.withWatcher (system.watcher.handle disk now event)

/-- Let the watcher handle an event that it raised itself. -/
def handleRaised (system : System) : Turn :=
  if system.watcher.raised = 0 then { after := system }
  else system.withWatcher system.watcher.handleRaised

/-- Let the watcher do what is due. -/
def tick (disk : Files.Disk) (now : Nat) (system : System) : Turn :=
  system.withWatcher (system.watcher.tick disk now)

/-- Let the active walk end. Its files go to the station. -/
def endWalk (disk : Files.Disk) (system : System) : Turn :=
  let ended := system.watcher.finish disk
  match ended.value with
  | none => { after := system, notes := ended.notes }
  | some (watcher, order) =>
    if system.station.isOpen then
      { after := { system with watcher := watcher, station := system.station.accept order }
        notes := ended.notes }
    else
      { after := { system with watcher := watcher }
        notes := ended.notes ++ [.detail "watch" "worker actor gone, stopping"] }

/-- Take a typed line. -/
def typed (disk : Files.Disk) (system : System) (line : String) : Turn :=
  if !system.reads then { after := system }
  else
    let reaction := Reaction.ofLine disk system.root line
    let system := { system with reads := reaction.goesOn system.station.isOpen true }
    match reaction with
    | .order order =>
      if system.station.isOpen then
        { after := { system with station := system.station.accept order } }
      else { after := system }
    | .rebuild => system.withWatcher system.watcher.rebuild
    | _ => { after := system, notes := reaction.notes }

/-- Let the station take an order. -/
def relay (disk : Files.Disk) (system : System) : Turn :=
  system.withStation (system.station.relay disk)

/-- Let the station hear a line of the worker. -/
def hear (disk : Files.Disk) (system : System) (text : String) : Turn :=
  system.withStation (system.station.hear disk text)

/-- The worker fails. -/
def fail (system : System) (fault : WorkerFault) : Turn := system.withStation (system.station.fail fault)

/-- Show the oldest message of the station. -/
def present (system : System) : Turn :=
  match system.station.messages with
  | [] => { after := system }
  | message :: rest =>
    let shown := system.display.take system.root message
    { after :=
        { system with display := shown.value, station := { system.station with messages := rest } }
      notes := shown.notes }

/-- Close the station once the worker is gone, and end with its fault. -/
def close (system : System) : Turn :=
  let turn := system.withStation system.station.close
  match turn.after.station.phase with
  | .closed (some fault) =>
    { turn with
      after := { turn.after with ended := turn.after.ended.or (some (.error (.workerFailed fault))) } }
  | _ => turn

/-- Interrupt everything, which ends well. -/
def interrupt (system : System) : Turn :=
  let watcher := system.watcher.cancel
  { after :=
      { system with
        watcher := watcher.value
        station := system.station.stop
        ended := system.ended.or (some (.ok ())) }
    notes := .log "watch" "shutting down..." :: watcher.notes }

end System
end BuildWatch
