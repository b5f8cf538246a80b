import BuildWatch.Worker.Link

/-!
# The worker's station

Around the link lie the orders that it has not taken yet and the messages that
nobody has taken from it. A station fails with the first fault of the worker. It
then still accepts orders, which nobody carries out, until the worker is gone and
the station closes. A station that is stopped closes without a fault.
-/

namespace BuildWatch

/-- How far a station is. -/
inductive StationPhase where
  | running
  | failing (fault : WorkerFault)
  | closed (fault : Option WorkerFault)
  deriving Repr

/-- The link with what lies around it. -/
structure Station where
  link : Link
  phase : StationPhase := .running
  orders : List Order := []
  messages : List Display.Message := []

namespace Station

/-- What one step does: the state after it, what is told to the user, and the lines
that are written to the worker. -/
structure Turn where
  after : Station
  notes : List Terminal.Note := []
  written : List String := []

/-- A station that has not been used yet. -/
def idle (flags : CompileFlags) : Station := { link := Link.idle flags }

/-- Whether orders are accepted. -/
def isOpen (station : Station) : Bool :=
  match station.phase with
  | .closed _ => false
  | _ => true

/-- Leave an order. -/
def accept (station : Station) (order : Order) : Station :=
  { station with orders := station.orders ++ [order] }

/-- Go on after a step of the link: what it wrote goes to the worker, and its fault
is that of the station. -/
def follow (station : Station) (turn : Link.Turn) : Turn :=
  match turn.result with
  | .ok () =>
    { after :=
        { station with
          link := turn.after.emptied
          messages := station.messages ++ turn.messages }
      notes := turn.notes
      written := turn.after.outbox }
  | .error fault =>
    { after :=
        { station with
          link := turn.after
          messages := station.messages ++ turn.messages
          phase := .failing fault }
      notes := turn.notes }

/-- Let the link take the order that was left first. -/
def relay (disk : Files.Disk) (station : Station) : Turn :=
  match station.phase, station.orders with
  | .running, order :: rest => follow { station with orders := rest } (station.link.order disk order)
  | _, _ => { after := station }

/-- Let the link take a line of the worker. -/
def hear (disk : Files.Disk) (station : Station) (text : String) : Turn :=
  match station.phase with
  | .running => follow station (station.link.line disk text)
  | _ => { after := station }

/-- The worker fails. -/
def fail (station : Station) (fault : WorkerFault) : Turn :=
  match station.phase with
  | .running => { after := { station with phase := .failing fault } }
  | _ => { after := station }

/-- Close a station that fails, now that the worker is gone. -/
def close (station : Station) : Turn :=
  match station.phase with
  | .failing fault =>
    { after := { station with phase := .closed (some fault) }
      notes := [.detail "worker" ("stopped: " ++ fault.message)] }
  | _ => { after := station }

/-- Stop a station that runs. -/
def stop (station : Station) : Station :=
  match station.phase with
  | .running => { station with phase := .closed none }
  | _ => station

end Station
end BuildWatch
