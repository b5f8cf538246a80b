import BuildWatch.Message.Reader
import BuildWatch.Terminal.Note

/-!
# One request at a time

The worker answers one request at a time, and the dispatcher keeps at most one in
flight. A request made meanwhile waits in the slot of its kind, in the place of
the one that waited there: only the latest set of files is worth compiling, and
only the latest place worth asking about.

When the answer arrives and a request waits, the answer is about a state that has
passed. It is dropped, and the waiting request goes out, a compile request before
a tooltip request. Only an answer behind which nothing waits is delivered.

The dispatcher says what happens as a list of events. Requests go out over a
line that may refuse them; a refused request is lost, and the dispatcher's state
stays as it was when the request was offered.
-/

namespace BuildWatch

/-- The request whose answer is awaited. -/
structure InFlight where
  id : RequestId
  kind : RequestKind
  deriving DecidableEq, Repr

/-- Whether the line to the worker takes a request, and if not, why. -/
abbrev RequestLine := Request → Except WorkerFault Unit

/-- A line that takes every request. -/
def RequestLine.always : RequestLine := fun _ => .ok ()

/-- The requests in flight and waiting. Numbers are given out in order from one. -/
structure Dispatcher where
  flags : CompileFlags
  lastId : RequestId := 0
  inFlight : Option InFlight := none
  waitingCompile : Option CompileRequest := none
  waitingTooltip : Option TooltipRequest := none
  latestTooltip : Option RequestId := none
  deriving DecidableEq, Repr

namespace Dispatcher

/-- One thing that happens: a request goes out, an answer is delivered, or
something is told to the user. -/
inductive Event where
  | sent (request : Request)
  | delivered (response : Response)
  | told (note : Terminal.Note)
  deriving DecidableEq, Repr

/-- What becomes of an answer. -/
inductive Verdict where
  | delivered (kind : RequestKind)
  | superseded (discarded sent : RequestId)
  deriving DecidableEq, Repr

/-- What one step does: the state after it, what happens in order, and its result. -/
structure Turn (α : Type) where
  after : Dispatcher
  events : List Event
  result : Except WorkerFault α

/-- A request as it is named to the user. -/
def named (kind : RequestKind) (id : RequestId) : String := kind.label ++ " #" ++ toString id

/-- Tell the user something in verbose mode. -/
def tell (text : String) : Event := .told (.detail "worker" text)

/-- Let a request go out. -/
def send (line : RequestLine) (state : Dispatcher) (request : Request) : Turn Unit :=
  match line request with
  | .error fault => ⟨state, [], .error fault⟩
  | .ok () =>
    ⟨{ state with inFlight := some ⟨request.id, request.kind⟩ },
      [.sent request, tell ("sent " ++ named request.kind request.id)], .ok ()⟩

/-- What is told about a request that has to wait, and about the one it replaces. -/
def queuedText (kind : RequestKind) (id : RequestId) (stale : Option RequestId) : String :=
  "queued " ++ named kind id ++
    match stale with
    | some stale => " (replaces #" ++ toString stale ++ ")"
    | none => ""

/-- Let a request wait in the slot of its kind. -/
def enqueue (state : Dispatcher) : Request → Turn Unit
  | .compile request =>
    ⟨{ state with waitingCompile := some request },
      [tell (queuedText .compile request.id (state.waitingCompile.map CompileRequest.id))], .ok ()⟩
  | .tooltip request =>
    ⟨{ state with waitingTooltip := some request },
      [tell (queuedText .tooltip request.id (state.waitingTooltip.map TooltipRequest.id))], .ok ()⟩

/-- Let a request go out, or wait while another one is in flight. -/
def submit (line : RequestLine) (state : Dispatcher) (request : Request) : Turn Unit :=
  if state.inFlight.isNone then send line state request else enqueue state request

/-- A step whose result is the number of the request it was made for. -/
def Turn.numbered (id : RequestId) (turn : Turn Unit) : Turn RequestId :=
  { turn with result := turn.result.map fun _ => id }

/-- Ask for files to be compiled. -/
def compile (line : RequestLine) (state : Dispatcher) (inputs : List Path) : Turn RequestId :=
  let id := state.lastId + 1
  (submit line { state with lastId := id } (.compile ⟨id, inputs, state.flags⟩)).numbered id

/-- Ask about a place. -/
def tooltip (line : RequestLine) (state : Dispatcher) (source : String) (row column : UInt32) :
    Turn RequestId :=
  let id := state.lastId + 1
  (submit line { state with lastId := id, latestTooltip := some id }
    (.tooltip ⟨id, source, row, column⟩)).numbered id

/-- The waiting request that goes out next, and the state without it. -/
def takeWaiting (state : Dispatcher) : Option (Request × Dispatcher) :=
  match state.waitingCompile, state.waitingTooltip with
  | some request, _ => some (.compile request, { state with waitingCompile := none })
  | none, some request => some (.tooltip request, { state with waitingTooltip := none })
  | none, none => none

/-- Whether a response answers the request in flight. -/
def awaits (state : Dispatcher) (response : Response) : Bool :=
  state.inFlight == some ⟨response.id, response.kind⟩

/-- Take a response. -/
def respond (line : RequestLine) (state : Dispatcher) (response : Response) : Turn Verdict :=
  if !state.awaits response then ⟨state, [], .error (.unsolicited response.id)⟩
  else
    match state.takeWaiting with
    | some (request, rest) =>
      let turn := send line rest request
      let dropped := tell ("discard " ++ named response.kind response.id ++ ", sending queued " ++
        named request.kind request.id)
      { after := turn.after
        events := dropped :: turn.events
        result := turn.result.map fun _ => .superseded response.id request.id }
    | none =>
      ⟨{ state with inFlight := none }, [.delivered response], .ok (.delivered response.kind)⟩

/-- Take a line that the worker wrote. -/
def respondLine (line : RequestLine) (state : Dispatcher) (text : String) : Turn Verdict :=
  match Response.read text with
  | .error fault => ⟨state, [], .error fault⟩
  | .ok response => respond line state response

/-- Whether a request is in flight. -/
def isBusy (state : Dispatcher) : Bool := state.inFlight.isSome

/-- Whether a number is that of the tooltip request made last. -/
def isCurrent (state : Dispatcher) (id : RequestId) : Bool := state.latestTooltip == some id

/-- The requests that go out in a list of events. -/
def sentIn (events : List Event) : List Request :=
  events.filterMap fun
    | .sent request => some request
    | _ => none

/-- The answers that are delivered in a list of events. -/
def deliveredIn (events : List Event) : List Response :=
  events.filterMap fun
    | .delivered response => some response
    | _ => none

/-- What is told to the user in a list of events. -/
def toldIn (events : List Event) : List Terminal.Note :=
  events.filterMap fun
    | .told note => some note
    | _ => none

end Dispatcher
end BuildWatch
