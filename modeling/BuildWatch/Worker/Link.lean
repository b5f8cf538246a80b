import BuildWatch.Dispatcher
import BuildWatch.Display
import BuildWatch.Text.Blank
import BuildWatch.Worker.Order

/-!
# The link to the worker

The link turns orders into requests, requests into lines for the worker, and the
worker's lines into messages for the display. The files of a compile request are
read when the request goes out, so one that was replaced while it waited never
touches them. Blank lines of the worker are skipped.
-/

namespace BuildWatch

/-- The dispatcher and the lines that wait to be written to the worker. -/
structure Link where
  dispatcher : Dispatcher
  outbox : List String := []
  deriving Repr

namespace Link

/-- A link that has not been used yet. -/
def idle (flags : CompileFlags) : Link := { dispatcher := { flags := flags } }

/-- What one step does: the state after it, what is told to the user and to the
display, and whether the link goes on. -/
structure Turn where
  after : Link
  notes : List Terminal.Note := []
  messages : List Display.Message := []
  result : Except WorkerFault Unit

/-- The message about an answer. -/
def messageOf : Response → Display.Message
  | .compile result => .compiled result
  | .tooltip result => .tooltip result

/-- The lines of the requests that go out in a list of events, together with what
is told to the user in between. -/
def written (disk : Files.Disk) : List Dispatcher.Event → Noted (List String)
  | [] => .quiet []
  | .sent request :: rest =>
    (request.written disk).andThen fun line =>
      (written disk rest).andThen fun later => .quiet (line :: later)
  | .told note :: rest => (Noted.tell note).andThen fun _ => written disk rest
  | .delivered _ :: rest => written disk rest

/-- Carry out what happens in a step of the dispatcher. -/
def carry {α : Type} (disk : Files.Disk) (link : Link) (turn : Dispatcher.Turn α) : Turn :=
  let lines := written disk turn.events
  { after := ⟨turn.after, link.outbox ++ lines.value⟩
    notes := lines.notes
    messages := (Dispatcher.deliveredIn turn.events).map messageOf
    result := turn.result.map fun _ => () }

/-- Take an order. -/
def order (disk : Files.Disk) (link : Link) : Order → Turn
  | .compile files =>
    let asked := link.dispatcher.compile .always files
    let turn := carry disk link asked
    match asked.result with
    | .error _ => turn
    | .ok id =>
      { turn with
        notes := turn.notes ++ [.detail "worker" ("compile #" ++ toString id ++ " requested (" ++
          toString files.length ++ " files)")] }
  | .tooltip source line column =>
    let asked := link.dispatcher.tooltip .always source line column
    let turn := carry disk link asked
    match asked.result with
    | .error _ => turn
    | .ok id => { turn with messages := turn.messages ++ [.asked id] }

/-- Take a line of the worker. -/
def line (disk : Files.Disk) (link : Link) (text : String) : Turn :=
  if Text.isAllBlank text then { after := link, result := .ok () }
  else carry disk link (link.dispatcher.respondLine .always text)

/-- The link after its lines were written to the worker. -/
def emptied (link : Link) : Link := { link with outbox := [] }

end Link
end BuildWatch
