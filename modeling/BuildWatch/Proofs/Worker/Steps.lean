import BuildWatch.Proofs.Dispatcher.History
import BuildWatch.Proofs.Message.Response
import BuildWatch.Worker.Station

/-!
# One step of the station

A station takes an order or a line by making one call of its dispatcher, and then
writes the lines of all requests that went out in it. A blank line makes no call.
Orders are never refused, nor is a line that carries the awaited answer, so each of
these steps leaves the station running and its outbox empty.
-/

namespace BuildWatch

namespace Dispatcher

/-- What a call leaves in flight, when a request was held in flight or none was: the
same, or one request that goes out while nothing is held. -/
def Sends (held : Option InFlight) (turn : Turn Reply) : Prop :=
  (sentIn turn.events = [] ∧ turn.after.inFlight = held) ∨
    ∃ request, held = none ∧ sentIn turn.events = [request] ∧
      turn.after.inFlight = some ⟨request.id, request.kind⟩

/-- A step sends at most one request, and only while nothing is in flight or after an
answer was accepted. -/
theorem step_sends (before after : Dispatcher) (seen : List Moment) (step : Step before seen after) :
    let held := if Moment.acceptedIn seen = [] then before.inFlight else none
    (Moment.sentIn seen = [] ∧ after.inFlight = held) ∨
      ∃ request, held = none ∧ Moment.sentIn seen = [request] ∧
        after.inFlight = some ⟨request.id, request.kind⟩ := by
  cases step with
  | sent request idle numbered => exact Or.inr ⟨request, idle, rfl, rfl⟩
  | queued request busy numbered => exact Or.inl ⟨rfl, by rw [inFlight_put]; rfl⟩
  | rejected => exact Or.inl ⟨rfl, rfl⟩
  | superseded response request awaited first => exact Or.inr ⟨request, rfl, rfl, rfl⟩
  | delivered response awaited empty => exact Or.inl ⟨rfl, rfl⟩

/-- A call sends at most one request, and only while nothing is in flight or after
its result shows that an answer was accepted. -/
theorem perform_sends (state : Dispatcher) (call : Call) :
    Sends (if Moment.acceptedIn (call.shown state.flags (state.perform call).result) = []
      then state.inFlight else none) (state.perform call) := by
  have sends := step_sends _ _ _ (call_step state.flags state rfl call)
  rw [Moment.sentIn_append, shown_sent, Moment.sentIn_events, List.nil_append,
    Moment.acceptedIn_append, Moment.acceptedIn_events, List.append_nil] at sends
  exact sends

/-- The call that an order makes. -/
def callOf : Order → Call
  | .compile files => .compile files
  | .tooltip source line column => .tooltip source line column

/-- An order is not refused, and sends only while nothing is in flight. -/
theorem order_sends (state : Dispatcher) (order : Order) :
    (∃ id, (state.perform (callOf order)).result = .ok (.numbered id)) ∧
      Sends state.inFlight (state.perform (callOf order)) := by
  have sends := perform_sends state (callOf order)
  cases order with
  | compile files =>
    simp only [callOf, perform, compile_eq] at sends ⊢
    exact ⟨⟨_, rfl⟩, sends⟩
  | tooltip source line column =>
    simp only [callOf, perform, tooltip_eq] at sends ⊢
    exact ⟨⟨_, rfl⟩, sends⟩

/-- The awaited answer is not refused, and makes room for one request. -/
theorem answer_sends (state : Dispatcher) (response : Response)
    (awaited : state.inFlight = some ⟨response.id, response.kind⟩) :
    (∃ verdict, (state.perform (.respond response)).result = .ok (.judged verdict)) ∧
      Sends none (state.perform (.respond response)) := by
  have sends := perform_sends state (.respond response)
  cases first : state.next with
  | none =>
    simp only [perform, respond_delivered state response awaited first] at sends ⊢
    exact ⟨⟨_, rfl⟩, sends⟩
  | some request =>
    simp only [perform, respond_superseded state response request awaited first] at sends ⊢
    exact ⟨⟨_, rfl⟩, sends⟩

end Dispatcher

namespace Link

/-- The lines of requests that are written at a moment. -/
def linesOf (disk : Files.Disk) (requests : List Request) : List String :=
  requests.map fun request => (request.written disk).value

/-- The lines of a list of events are those of the requests that go out in it. -/
theorem written_value (disk : Files.Disk) (events : List Dispatcher.Event) :
    (written disk events).value = linesOf disk (Dispatcher.sentIn events) := by
  induction events with
  | nil => rfl
  | cons event rest inductionHypothesis =>
    cases event with
    | told note | delivered response => exact inductionHypothesis
    | sent request => exact congrArg ((request.written disk).value :: ·) inductionHypothesis

/-- An order is not refused: the link makes its call, and holds the lines of what
goes out. -/
theorem order_taken (disk : Files.Disk) (link : Link) (order : Order) :
    let asked := link.dispatcher.perform (Dispatcher.callOf order)
    (link.order disk order).result = .ok () ∧
      (link.order disk order).after =
        ⟨asked.after, link.outbox ++ linesOf disk (Dispatcher.sentIn asked.events)⟩ := by
  cases order with
  | compile files =>
    simp [Link.order, Dispatcher.callOf, Dispatcher.perform, Dispatcher.compile_eq, carry,
      written_value, Except.map]
  | tooltip source line column =>
    simp [Link.order, Dispatcher.callOf, Dispatcher.perform, Dispatcher.tooltip_eq, carry,
      written_value, Except.map]

/-- A line that carries the awaited answer is not refused: the link makes the call
with this answer, and holds the line of what goes out. -/
theorem answer_taken (disk : Files.Disk) (link : Link) (text : String) (response : Response)
    (carries : Response.Carries text response)
    (awaited : link.dispatcher.inFlight = some ⟨response.id, response.kind⟩) :
    let heard := link.dispatcher.perform (.respond response)
    (link.line disk text).result = .ok () ∧
      (link.line disk text).after =
        ⟨heard.after, link.outbox ++ linesOf disk (Dispatcher.sentIn heard.events)⟩ := by
  have spoken := Response.carried_notBlank text response carries
  have understood := Response.read_carried text response carries
  obtain ⟨⟨verdict, accepted⟩, -⟩ := Dispatcher.answer_sends link.dispatcher response awaited
  have judged : (link.dispatcher.respond .always response).result = .ok verdict := by
    cases result : (link.dispatcher.respond .always response).result with
    | error fault => simp [Dispatcher.perform, result, Except.map] at accepted
    | ok other => simpa [Dispatcher.perform, result, Except.map] using accepted
  simp [Link.line, spoken, Dispatcher.respondLine, understood, Dispatcher.perform, carry,
    written_value, judged, Except.map]

end Link

namespace Station

/-- A step of the station performs a step of the dispatcher when the station goes on
from the dispatcher's state after it, with an empty outbox, and the lines of all
requests that went out were written. -/
structure Turn.Performs (disk : Files.Disk) (asked : Dispatcher.Turn Dispatcher.Reply)
    (turn : Turn) : Prop where
  running : turn.after.phase = .running
  link : turn.after.link = ⟨asked.after, []⟩
  written : turn.written = Link.linesOf disk (Dispatcher.sentIn asked.events)

/-- The station follows a step of the link that was not refused, and writes all lines
that the link holds. -/
theorem follow_performs (disk : Files.Disk) (station : Station) (turn : Link.Turn)
    (asked : Dispatcher.Turn Dispatcher.Reply) (running : station.phase = .running)
    (taken : turn.result = .ok ())
    (after : turn.after = ⟨asked.after, Link.linesOf disk (Dispatcher.sentIn asked.events)⟩) :
    (station.follow turn).Performs disk asked := by
  simp only [follow, taken]
  exact ⟨running, by rw [after, Link.emptied], by rw [after]⟩

/-- A running station performs the call of the order that was left first. -/
theorem relay_performs (disk : Files.Disk) (station : Station) (order : Order) (rest : List Order)
    (running : station.phase = .running) (flushed : station.link.outbox = [])
    (left : station.orders = order :: rest) :
    (station.relay disk).Performs disk
      (station.link.dispatcher.perform (Dispatcher.callOf order)) := by
  obtain ⟨taken, after⟩ := Link.order_taken disk station.link order
  rw [flushed, List.nil_append] at after
  simp only [relay, running, left]
  exact follow_performs disk _ _ _ rfl taken after

/-- A running station performs the call of the awaited answer. -/
theorem hear_performs (disk : Files.Disk) (station : Station) (text : String) (response : Response)
    (running : station.phase = .running) (flushed : station.link.outbox = [])
    (carries : Response.Carries text response)
    (awaited : station.link.dispatcher.inFlight = some ⟨response.id, response.kind⟩) :
    (station.hear disk text).Performs disk
      (station.link.dispatcher.perform (.respond response)) := by
  obtain ⟨taken, after⟩ := Link.answer_taken disk station.link text response carries awaited
  rw [flushed, List.nil_append] at after
  simp only [hear, running]
  exact follow_performs disk _ _ _ running taken after

/-- A blank line changes nothing at a station whose outbox is empty. -/
theorem hear_blank (disk : Files.Disk) (station : Station) (text : String)
    (running : station.phase = .running) (flushed : station.link.outbox = [])
    (empty : Text.isAllBlank text = true) :
    station.hear disk text = { after := station } := by
  obtain ⟨⟨dispatcher, outbox⟩, phase, orders, messages⟩ := station
  subst flushed running
  simp [hear, Link.line, empty, follow, Link.emptied]

end Station
end BuildWatch
