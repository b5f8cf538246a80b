import BuildWatch.Proofs.Dispatcher.Refusal
import BuildWatch.Proofs.Worker.Circuit
import BuildWatch.Session

/-!
# The station of a session, step by step

A session leaves two orders at its station at most, and the second only when the first was carried
out. So the station never lets a request wait: an order goes out at once, and the awaited answer is
delivered. Any other line that is not blank makes it fail.

Nothing that the station tells the user is a line of output of its own.
-/

namespace BuildWatch

namespace Terminal

/-- The lines of output of their own in a list of notes. -/
def plainsIn (notes : List Note) : List String :=
  notes.filterMap fun
    | .plain text => some text
    | _ => none

theorem plainsIn_append (notes more : List Note) :
    plainsIn (notes ++ more) = plainsIn notes ++ plainsIn more := List.filterMap_append

end Terminal

open Terminal (plainsIn plainsIn_append)

/-- A request is written without a line of output. -/
theorem Request.written_plainsIn (disk : Files.Disk) (request : Request) :
    plainsIn (request.written disk).notes = [] := by
  have inputs (paths : List Path) : plainsIn (readInputs disk paths).notes = [] := by
    induction paths with
    | nil => rfl
    | cons path rest inductionHypothesis =>
      rw [readInputs]
      split
      · simp [Noted.andThen, Noted.quiet, inductionHypothesis]
      · simpa [Noted.andThen, Noted.detail, Noted.tell, plainsIn] using inductionHypothesis
  cases request with
  | compile request =>
    simpa [written, toJson, Noted.andThen, Noted.quiet] using inputs request.inputs
  | tooltip request => rfl

/-- A line that is a response is not blank. -/
theorem Response.read_spoken (text : String) (response : Response)
    (read : Response.read text = .ok response) : Text.isAllBlank text = false := by
  rw [Bool.eq_false_iff]
  intro blank
  simp [Response.read, Json.read?_blank text blank] at read

/-- No answer is dropped while no request waits. -/
theorem Dispatcher.respondLine_alone (state : Dispatcher) (text : String) (alone : state.next = none)
    (discarded sent : RequestId) :
    (state.respondLine .always text).result ≠ .ok (.superseded discarded sent) := by
  by_cases expected : state.Expects text
  · obtain ⟨response, read, awaited⟩ := expected
    rw [respondLine, read]
    simp only
    rw [respond_delivered state response awaited alone]
    simp
  · obtain ⟨fault, -, refused⟩ := respondLine_refused .always state text expected
    rw [refused]
    simp

namespace Station

variable (disk : Files.Disk) (flags : CompileFlags) (station : Station)
  (running : station.phase = .running)

include running

/-- A running station that was not used yet takes an order to compile. -/
theorem relay_compile (files : List Path) (fresh : station.link = ⟨{ flags := flags }, []⟩)
    (left : station.orders = [.compile files]) :
    (station.relay disk).after =
        { station with
          link := ⟨{ flags := flags, lastId := 1, inFlight := some ⟨1, .compile⟩ }, []⟩
          orders := [] } ∧
      (station.relay disk).written = [(Request.written disk (.compile ⟨1, files, flags⟩)).value] ∧
      plainsIn (station.relay disk).notes = [] := by
  obtain ⟨link, phase, orders, messages⟩ := station
  subst running fresh left
  have silent := Request.written_plainsIn disk (.compile ⟨1, files, flags⟩)
  refine ⟨?_, rfl, ?_⟩
  · simp [relay, follow, Link.order, Link.carry, Dispatcher.compile, Dispatcher.submit, Dispatcher.send,
      RequestLine.always, Dispatcher.Turn.numbered, Except.map, Link.emptied, Dispatcher.deliveredIn,
      Dispatcher.tell, Request.id, Request.kind]
  · simpa [relay, follow, Link.order, Link.carry, Dispatcher.compile, Dispatcher.submit, Dispatcher.send,
      RequestLine.always, Dispatcher.Turn.numbered, Except.map, Link.written, Noted.andThen, Noted.quiet,
      Noted.tell, Dispatcher.tell, plainsIn] using silent

/-- A running station asks a question after the first answer was delivered, and announces it. -/
theorem relay_tooltip (source : String) (line column : UInt32)
    (settled : station.link = ⟨{ flags := flags, lastId := 1 }, []⟩)
    (left : station.orders = [.tooltip source line column]) :
    (station.relay disk).after =
        { station with
          link :=
            ⟨{ flags := flags, lastId := 2, inFlight := some ⟨2, .tooltip⟩, latestTooltip := some 2 }, []⟩
          orders := []
          messages := station.messages ++ [.asked 2] } ∧
      (station.relay disk).written =
        [(Request.written disk (.tooltip ⟨2, source, line, column⟩)).value] ∧
      plainsIn (station.relay disk).notes = [] := by
  obtain ⟨link, phase, orders, messages⟩ := station
  subst running settled left
  exact ⟨rfl, rfl, rfl⟩

/-- A running station delivers the awaited answer when nothing waits behind it. -/
theorem hear_due (text : String) (response : Response) (flushed : station.link.outbox = [])
    (read : Response.read text = .ok response)
    (awaited : station.link.dispatcher.inFlight = some ⟨response.id, response.kind⟩)
    (first : station.link.dispatcher.next = none) :
    station.hear disk text =
      { after :=
          { station with
            link := ⟨station.link.dispatcher.settle, []⟩
            messages := station.messages ++ [Link.messageOf response] } } := by
  obtain ⟨⟨dispatcher, outbox⟩, phase, orders, messages⟩ := station
  subst running flushed
  have spoken := Response.read_spoken text response read
  have delivered := Dispatcher.respond_delivered dispatcher response awaited first
  simp [hear, Link.line, spoken, Dispatcher.respondLine, read, delivered, Link.carry, Link.written,
    follow, Link.emptied, Dispatcher.deliveredIn, Noted.quiet, Except.map]

/-- A running station fails on a line that is not blank and does not say the awaited answer, and
that is all. -/
theorem hear_stray (text : String) (flushed : station.link.outbox = [])
    (spoken : Text.isAllBlank text = false)
    (other : ¬ station.link.dispatcher.Expects text) :
    ∃ fault, station.hear disk text = { after := { station with phase := .failing fault } } := by
  obtain ⟨⟨dispatcher, outbox⟩, phase, orders, messages⟩ := station
  subst running flushed
  obtain ⟨fault, -, refused⟩ := Dispatcher.respondLine_refused .always dispatcher text other
  refine ⟨fault, ?_⟩
  simp [hear, Link.line, spoken, refused, Link.carry, Link.written, follow, Dispatcher.deliveredIn,
    Noted.quiet, Except.map]

end Station
end BuildWatch
