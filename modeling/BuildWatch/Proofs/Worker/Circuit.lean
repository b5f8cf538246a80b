import BuildWatch.Proofs.Message.Request
import BuildWatch.Proofs.Worker.Steps
import Mathlib.Data.List.Forall2

/-!
# The station and a correct worker

A circuit is a station with a worker behind it. Anyone may leave orders at any time,
and the files may change between any two steps. Of the worker it is only known that
it is correct: it answers every line that it receives once, whenever it likes, by a
line that carries a response of the kind and number asked for, and in between it may
write blank lines.

Nothing in the station knows what the worker has in hand. It knows which request it
holds in flight, and it wrote that request's line from the files of one moment. The
invariant ties the two together: as long as a request is in flight, there is exactly
one line on its way, either the line of this request or the answer to it, and while
none is in flight there is no line at all but blank ones.
-/

namespace BuildWatch

/-- One thing that passes the station: an order it takes, a line it hears, or a line
it writes, with the files of that moment. -/
inductive Passage where
  | took (order : Order)
  | heard (text : String)
  | wrote (disk : Files.Disk) (line : String)

namespace Passage

/-- The call of the dispatcher that a passage makes. A line that is no response makes
none. -/
def call? : Passage → Option Dispatcher.Call
  | .took order => some (Dispatcher.callOf order)
  | .heard text => (Response.read text).toOption.map .respond
  | .wrote _ _ => none

/-- The calls that were made of the dispatcher. -/
def callsIn (passed : List Passage) : List Dispatcher.Call := passed.filterMap call?

/-- What was written, with the files of the moment. -/
def writtenIn (passed : List Passage) : List (Files.Disk × String) :=
  passed.filterMap fun
    | .wrote disk line => some (disk, line)
    | _ => none

/-- The lines that were written. -/
def linesIn (passed : List Passage) : List String := (writtenIn passed).map Prod.snd

/-- The lines that were heard, apart from blank ones. -/
def answersIn (passed : List Passage) : List String :=
  passed.filterMap fun
    | .heard text => if Text.isAllBlank text then none else some text
    | _ => none

theorem callsIn_append (passed more : List Passage) :
    callsIn (passed ++ more) = callsIn passed ++ callsIn more := List.filterMap_append

theorem writtenIn_append (passed more : List Passage) :
    writtenIn (passed ++ more) = writtenIn passed ++ writtenIn more := List.filterMap_append

theorem linesIn_append (passed more : List Passage) :
    linesIn (passed ++ more) = linesIn passed ++ linesIn more := by
  simp only [linesIn, writtenIn_append, List.map_append]

theorem answersIn_append (passed more : List Passage) :
    answersIn (passed ++ more) = answersIn passed ++ answersIn more := List.filterMap_append

section Wrote

variable (disk : Files.Disk) (lines : List String)

theorem callsIn_wrote : callsIn (lines.map (.wrote disk)) = [] := by
  simp [callsIn, call?]

theorem writtenIn_wrote : writtenIn (lines.map (.wrote disk)) = lines.map fun line => (disk, line) := by
  simp [writtenIn]

theorem linesIn_wrote : linesIn (lines.map (.wrote disk)) = lines := by
  simp [linesIn, writtenIn_wrote, Function.comp_def]

theorem answersIn_wrote : answersIn (lines.map (.wrote disk)) = [] := by
  simp [answersIn]

end Wrote

/-- A passage that makes a call writes nothing itself. -/
theorem writtenIn_call (passage : Passage) (call : Dispatcher.Call)
    (makes : passage.call? = some call) : writtenIn [passage] = [] := by
  cases passage with
  | took order | heard text => rfl
  | wrote disk line => exact absurd makes (Option.some_ne_none call).symm

end Passage

/-- A line answers another when it carries a response of the kind and number that the
other asks for. -/
def Answers (line text : String) : Prop :=
  ∃ response, Response.Carries text response ∧ Request.Asks line response.kind response.id

/-- Every line that asks for something can be answered. -/
theorem Answers.possible (line : String) (kind : RequestKind) (id : RequestId)
    (asks : Request.Asks line kind id) : ∃ text, Answers line text := by
  cases kind with
  | compile =>
    exact ⟨_, .compile ⟨id, {}⟩, Response.carries_written _, asks⟩
  | tooltip =>
    exact ⟨_, .tooltip ⟨id, none, none⟩, Response.carries_written _, asks⟩

/-- A station and what is on its way between it and its worker: the lines that the
worker has received and not answered, and the lines of the worker that the station has
not heard. What passed the station is recorded, oldest first. -/
structure Circuit where
  station : Station
  received : List String := []
  replies : List String := []
  passed : List Passage := []

namespace Circuit

/-- Go on after a step of the station: what it wrote is received by the worker. -/
def follow (circuit : Circuit) (disk : Files.Disk) (passage : Passage) (turn : Station.Turn) :
    Circuit :=
  { circuit with
    station := turn.after
    received := circuit.received ++ turn.written
    passed := circuit.passed ++ [passage] ++ turn.written.map (.wrote disk) }

/-- One step of a circuit with a correct worker. -/
inductive Step : Circuit → Circuit → Prop where
  | leave (circuit : Circuit) (order : Order) :
      Step circuit { circuit with station := circuit.station.accept order }
  | relay (circuit : Circuit) (disk : Files.Disk) (order : Order) (rest : List Order)
      (left : circuit.station.orders = order :: rest) :
      Step circuit (circuit.follow disk (.took order) (circuit.station.relay disk))
  | answer (circuit : Circuit) (before after : List String) (line text : String)
      (unanswered : circuit.received = before ++ line :: after) (answers : Answers line text) :
      Step circuit
        { circuit with received := before ++ after, replies := circuit.replies ++ [text] }
  | blank (circuit : Circuit) (text : String) (empty : Text.isAllBlank text = true) :
      Step circuit { circuit with replies := circuit.replies ++ [text] }
  | hear (circuit : Circuit) (disk : Files.Disk) (text : String) (rest : List String)
      (oldest : circuit.replies = text :: rest) :
      Step circuit
        ({ circuit with replies := rest }.follow disk (.heard text) (circuit.station.hear disk text))
  | present (circuit : Circuit) (message : Display.Message) (rest : List Display.Message)
      (oldest : circuit.station.messages = message :: rest) :
      Step circuit { circuit with station := { circuit.station with messages := rest } }

/-- The circuits that a station which has not been used yet may come to. -/
inductive Reaches (flags : CompileFlags) : Circuit → Prop where
  | start : Reaches flags { station := Station.idle flags }
  | step (before after : Circuit) (reaches : Reaches flags before) (step : Step before after) :
      Reaches flags after

/-- A line was written for a request when it is the request's line with the files of
that moment. -/
def Encodes (request : Request) (written : Files.Disk × String) : Prop :=
  written.2 = (request.written written.1).value

/-- Whenever a line was written, all lines written before it had been answered, one
after the other. -/
def TakesTurns (passed : List Passage) : Prop :=
  ∀ before disk line after, passed = before ++ .wrote disk line :: after →
    List.Forall₂ Answers (Passage.linesIn before) (Passage.answersIn before)

/-- What is recorded agrees with the dispatcher: it is in the state that the calls lead
to, the lines written are those of its requests, and they take turns with the answers. -/
structure Recorded (flags : CompileFlags) (dispatcher : Dispatcher) (passed : List Passage) :
    Prop where
  follows : (Dispatcher.run flags (Passage.callsIn passed)).state = dispatcher
  encoded : List.Forall₂ Encodes
    (Dispatcher.Moment.sentIn (Dispatcher.run flags (Passage.callsIn passed)).moments)
    (Passage.writtenIn passed)
  turns : TakesTurns passed

/-- Where the exchange with the worker stands: what is in flight, the lines that the
worker has not answered, its lines that were not heard, and all lines written and
answers heard so far. -/
inductive Pipe : Option InFlight → List String → List String → List String → List String → Prop where
  | settled (lines answers : List String) (matched : List.Forall₂ Answers lines answers) :
      Pipe none [] [] lines answers
  | asked (id : RequestId) (kind : RequestKind) (line : String) (lines answers : List String)
      (matched : List.Forall₂ Answers lines answers) (asks : Request.Asks line kind id) :
      Pipe (some ⟨id, kind⟩) [line] [] (lines ++ [line]) answers
  | answered (id : RequestId) (kind : RequestKind) (line text : String)
      (lines answers : List String) (matched : List.Forall₂ Answers lines answers)
      (asks : Request.Asks line kind id) (answer : Answers line text) :
      Pipe (some ⟨id, kind⟩) [] [text] (lines ++ [line]) answers

namespace Pipe

/-- The line that is unanswered may be answered. -/
theorem reply (flight : Option InFlight) (before after replies lines answers : List String)
    (line text : String) (pipe : Pipe flight (before ++ line :: after) replies lines answers)
    (answer : Answers line text) :
    Pipe flight (before ++ after) (replies ++ [text]) lines answers := by
  generalize received : before ++ line :: after = unanswered at pipe
  cases pipe with
  | settled lines answers matched => simp at received
  | asked id kind other lines answers matched asks =>
    obtain ⟨rfl, rfl, rfl⟩ : before = [] ∧ line = other ∧ after = [] := by
      cases before with
      | nil => simpa using received
      | cons first rest => simp at received
    exact Pipe.answered id kind line text lines answers matched asks answer
  | answered id kind other text lines answers matched asks answer => simp at received

/-- The first reply carries the response that is awaited, and behind it nothing is on
its way. -/
theorem hears (flight : Option InFlight) (received replies lines answers : List String)
    (text : String) (pipe : Pipe flight received (text :: replies) lines answers) :
    ∃ response, Response.Carries text response ∧ flight = some ⟨response.id, response.kind⟩ ∧
      Pipe none received replies lines (answers ++ [text]) := by
  cases pipe with
  | answered id kind line text lines answers matched asks answer =>
    obtain ⟨response, carries, wanted⟩ := answer
    obtain ⟨rfl, rfl⟩ := Request.asks_unique line kind response.kind id response.id asks wanted
    refine ⟨response, carries, rfl, Pipe.settled _ _ ?_⟩
    exact List.rel_append matched (List.Forall₂.cons ⟨response, carries, wanted⟩ List.Forall₂.nil)

/-- While nothing is in flight, every line was answered in order. -/
theorem matched (received replies lines answers : List String)
    (pipe : Pipe none received replies lines answers) : List.Forall₂ Answers lines answers := by
  cases pipe with
  | settled lines answers matched => exact matched

/-- What the worker has in hand can be answered. -/
theorem answerable (flight : Option InFlight) (received replies lines answers : List String)
    (pipe : Pipe flight received replies lines answers) :
    ∀ line ∈ received, ∃ text, Answers line text := by
  cases pipe with
  | settled lines answers matched => simp
  | asked id kind line lines answers matched asks =>
    simpa using Answers.possible line kind id asks
  | answered id kind line text lines answers matched asks answer => simp

/-- The request that a call sends, if it sends one, is the only one on its way. -/
theorem sends (disk : Files.Disk) (held : Option InFlight)
    (received replies lines answers : List String) (turn : Dispatcher.Turn Dispatcher.Reply)
    (pipe : Pipe held received replies lines answers) (sent : Dispatcher.Sends held turn) :
    Pipe turn.after.inFlight
      (received ++ Link.linesOf disk (Dispatcher.sentIn turn.events)) replies
      (lines ++ Link.linesOf disk (Dispatcher.sentIn turn.events)) answers := by
  rcases sent with ⟨nothing, kept⟩ | ⟨request, rfl, one, flight⟩
  · rw [nothing, kept]
    simpa [Link.linesOf] using pipe
  · rw [one, flight]
    cases pipe with
    | settled lines answers matched =>
      exact Pipe.asked _ _ _ lines answers matched (Request.written_asks disk request)

end Pipe

/-- Turns are kept by one more passage, as long as a line is only written when all
lines were answered. -/
theorem TakesTurns.snoc (passed : List Passage) (passage : Passage) (turns : TakesTurns passed)
    (matched : ∀ disk line, passage = .wrote disk line →
      List.Forall₂ Answers (Passage.linesIn passed) (Passage.answersIn passed)) :
    TakesTurns (passed ++ [passage]) := by
  intro before disk line after split
  rcases Dispatcher.split_append _ _ _ _ _ split with ⟨rest, within⟩ | ⟨middle, rfl, new⟩
  · exact turns before disk line rest within
  · cases middle with
    | nil =>
      rw [List.append_nil]
      exact matched disk line (List.cons.inj new).1
    | cons first rest => simp at new

/-- A call that a passage makes is recorded with it and with the lines of what the call
sends, provided that all lines were answered if it sends one. -/
theorem Recorded.performs (flags : CompileFlags) (dispatcher : Dispatcher) (passed : List Passage)
    (disk : Files.Disk) (passage : Passage) (call : Dispatcher.Call) (held : Option InFlight)
    (recorded : Recorded flags dispatcher passed) (makes : passage.call? = some call)
    (sent : Dispatcher.Sends held (dispatcher.perform call))
    (matched : held = none → List.Forall₂ Answers (Passage.linesIn (passed ++ [passage]))
      (Passage.answersIn (passed ++ [passage]))) :
    Recorded flags (dispatcher.perform call).after
      (passed ++ [passage] ++
        (Link.linesOf disk (Dispatcher.sentIn (dispatcher.perform call).events)).map
          (.wrote disk)) := by
  obtain ⟨rfl, encoded, turns⟩ := recorded
  set dispatcher := (Dispatcher.run flags (Passage.callsIn passed)).state
  set requests := Dispatcher.sentIn (dispatcher.perform call).events with requests_eq
  have calls : Passage.callsIn (passed ++ [passage] ++ (Link.linesOf disk requests).map (.wrote disk)) =
      Passage.callsIn passed ++ [call] := by
    rw [Passage.callsIn_append, Passage.callsIn_append, Passage.callsIn_wrote, List.append_nil]
    simp [Passage.callsIn, makes]
  refine ⟨?_, ?_, ?_⟩
  · rw [calls, Dispatcher.run_snoc]
    rfl
  · have onward : Dispatcher.Moment.sentIn
        (Dispatcher.run flags (Passage.callsIn passed ++ [call])).moments =
        Dispatcher.Moment.sentIn (Dispatcher.run flags (Passage.callsIn passed)).moments ++
          requests := by
      rw [Dispatcher.run_snoc, Dispatcher.sentIn_step]
    have new : List.Forall₂ Encodes requests
        ((Link.linesOf disk requests).map fun line => (disk, line)) := by
      simp [Link.linesOf, List.forall₂_same, Encodes]
    rw [calls, onward, Passage.writtenIn_append, Passage.writtenIn_append,
      Passage.writtenIn_call passage call makes, List.append_nil, Passage.writtenIn_wrote]
    exact List.rel_append encoded new
  · have called : TakesTurns (passed ++ [passage]) :=
      turns.snoc passed passage fun wroteDisk line same => by simp [same, Passage.call?] at makes
    rcases sent with ⟨nothing, -⟩ | ⟨request, free, one, -⟩
    · simpa [requests_eq, nothing, Link.linesOf] using called
    · simpa [requests_eq, one, Link.linesOf] using
        called.snoc _ (.wrote disk (request.written disk).value) fun _ _ _ => matched free

/-- A blank line is recorded, and makes no call. -/
theorem Recorded.blank (flags : CompileFlags) (dispatcher : Dispatcher) (passed : List Passage)
    (text : String) (recorded : Recorded flags dispatcher passed)
    (empty : Text.isAllBlank text = true) :
    Recorded flags dispatcher (passed ++ [.heard text]) := by
  obtain ⟨follows, encoded, turns⟩ := recorded
  have unread : (Response.read text).toOption = none := by
    rw [Response.read, Json.read?_blank text empty]
    rfl
  have calls : Passage.callsIn (passed ++ [.heard text]) = Passage.callsIn passed := by
    simp [Passage.callsIn, Passage.call?, unread]
  have written : Passage.writtenIn (passed ++ [.heard text]) = Passage.writtenIn passed := by
    simp [Passage.writtenIn]
  refine ⟨?_, ?_, ?_⟩
  · rw [calls]
    exact follows
  · rw [calls, written]
    exact encoded
  · exact turns.snoc passed _ fun _ _ same => Passage.noConfusion same

/-- The lines that are not blank. -/
def spoken (lines : List String) : List String := lines.filter fun text => !Text.isAllBlank text

/-- What holds of a circuit with a correct worker after any number of steps. -/
structure Sound (flags : CompileFlags) (circuit : Circuit) : Prop where
  running : circuit.station.phase = .running
  flushed : circuit.station.link.outbox = []
  recorded : Recorded flags circuit.station.link.dispatcher circuit.passed
  pipe : Pipe circuit.station.link.dispatcher.inFlight circuit.received (spoken circuit.replies)
    (Passage.linesIn circuit.passed) (Passage.answersIn circuit.passed)

/-- A circuit stays sound by a call that a passage makes. -/
theorem Sound.performs (flags : CompileFlags) (circuit : Circuit) (disk : Files.Disk)
    (passage : Passage) (call : Dispatcher.Call) (held : Option InFlight) (turn : Station.Turn)
    (recorded : Recorded flags circuit.station.link.dispatcher circuit.passed)
    (makes : passage.call? = some call)
    (sent : Dispatcher.Sends held (circuit.station.link.dispatcher.perform call))
    (pipe : Pipe held circuit.received (spoken circuit.replies)
      (Passage.linesIn (circuit.passed ++ [passage]))
      (Passage.answersIn (circuit.passed ++ [passage])))
    (performs : turn.Performs disk (circuit.station.link.dispatcher.perform call)) :
    Sound flags (circuit.follow disk passage turn) := by
  obtain ⟨running, link, written⟩ := performs
  have piped := Pipe.sends disk held _ _ _ _ _ pipe sent
  have onward := recorded.performs flags _ _ disk passage call held makes sent fun free =>
    Pipe.matched _ _ _ _ (free ▸ pipe)
  refine ⟨running, by rw [follow, link], ?_, ?_⟩
  · simpa only [follow, link, written] using onward
  · simpa only [follow, link, written, Passage.linesIn_append _ (List.map _ _),
      Passage.answersIn_append _ (List.map _ _), Passage.linesIn_wrote, Passage.answersIn_wrote,
      List.append_nil] using piped

/-- Every step keeps a circuit sound. -/
theorem step_sound (flags : CompileFlags) (before after : Circuit) (sound : Sound flags before)
    (step : Step before after) : Sound flags after := by
  obtain ⟨running, flushed, recorded, pipe⟩ := sound
  cases step with
  | leave order => exact ⟨running, flushed, recorded, pipe⟩
  | present message rest oldest => exact ⟨running, flushed, recorded, pipe⟩
  | relay disk order rest left =>
    obtain ⟨-, sent⟩ := Dispatcher.order_sends before.station.link.dispatcher order
    have performs := Station.relay_performs disk before.station order rest running flushed left
    refine Sound.performs flags before disk (.took order) _ _ _ recorded rfl sent ?_ performs
    simpa [Passage.linesIn, Passage.writtenIn, Passage.answersIn] using pipe
  | answer first last line text unanswered answers =>
    obtain ⟨response, carries, -⟩ := id answers
    have heard : spoken (before.replies ++ [text]) = spoken before.replies ++ [text] := by
      simp [spoken, Response.carried_notBlank text response carries]
    refine ⟨running, flushed, recorded, ?_⟩
    rw [unanswered] at pipe
    rw [heard]
    exact Pipe.reply _ _ _ _ _ _ line text pipe answers
  | blank text empty =>
    have unheard : spoken (before.replies ++ [text]) = spoken before.replies := by
      simp [spoken, empty]
    refine ⟨running, flushed, recorded, ?_⟩
    rw [unheard]
    exact pipe
  | hear disk text rest oldest =>
    rw [oldest] at pipe
    by_cases empty : Text.isAllBlank text = true
    · have still := Station.hear_blank disk before.station text running flushed empty
      have unheard : spoken (text :: rest) = spoken rest := by simp [spoken, empty]
      rw [unheard] at pipe
      refine ⟨?_, ?_, ?_, ?_⟩
      · simpa only [follow, still] using running
      · simpa only [follow, still] using flushed
      · simpa [follow, still] using recorded.blank flags _ _ text empty
      · simpa [follow, still, Passage.linesIn, Passage.writtenIn, Passage.answersIn, empty] using pipe
    · have heard : spoken (text :: rest) = text :: spoken rest := by simp [spoken, empty]
      rw [heard] at pipe
      obtain ⟨response, carries, awaited, answered⟩ := Pipe.hears _ _ _ _ _ text pipe
      obtain ⟨-, sent⟩ := Dispatcher.answer_sends before.station.link.dispatcher response awaited
      have performs := Station.hear_performs disk before.station text response running flushed
        carries awaited
      have makes : (Passage.heard text).call? = some (.respond response) := by
        rw [Passage.call?, Response.read_carried text response carries]
        rfl
      refine Sound.performs flags { before with replies := rest } disk (.heard text) _ _ _ recorded
        makes sent ?_ performs
      simpa [Passage.linesIn, Passage.writtenIn, Passage.answersIn, empty] using answered

/-- Every circuit that a new station with a correct worker comes to is sound. -/
theorem reaches_sound (flags : CompileFlags) (circuit : Circuit) (reaches : Reaches flags circuit) :
    Sound flags circuit := by
  induction reaches with
  | start =>
    refine ⟨rfl, rfl, ⟨rfl, List.Forall₂.nil, ?_⟩, Pipe.settled [] [] List.Forall₂.nil⟩
    intro before disk line after split
    simp at split
  | step before after _ step inductionHypothesis =>
    exact step_sound flags before after inductionHypothesis step

/-- A correct worker is never rejected. Whatever orders come, whatever the files hold,
and however orders and the worker's lines interleave: the station runs on, its outbox
is empty between steps, and its dispatcher is where the orders taken and the answers
heard lead to. The lines written are those of the requests that the dispatcher sent, in
the order sent, each a single line with the files of its moment, and the worker can
answer each. And when a line was written, every line written before it had been
answered, in order.

Proof: every step keeps `Sound`. A line that is heard and is not blank is the one
reply in the pipe, so it carries the awaited response; and the pipe holds at most one
line because a request only goes out when the dispatcher holds none in flight. -/
theorem correct_worker_accepted (flags : CompileFlags) (circuit : Circuit)
    (reaches : Reaches flags circuit) :
    circuit.station.phase = .running ∧
      circuit.station.link.outbox = [] ∧
      circuit.station.link.dispatcher =
        (Dispatcher.run flags (Passage.callsIn circuit.passed)).state ∧
      List.Forall₂
        (fun request written =>
          written.2 = (request.written written.1).value ∧ '\n' ∉ written.2.toList)
        (Dispatcher.Moment.sentIn (Dispatcher.run flags (Passage.callsIn circuit.passed)).moments)
        (Passage.writtenIn circuit.passed) ∧
      (∀ line ∈ circuit.received, ∃ text, Answers line text) ∧
      ∀ before disk line after, circuit.passed = before ++ .wrote disk line :: after →
        List.Forall₂ Answers (Passage.linesIn before) (Passage.answersIn before) := by
  obtain ⟨running, flushed, ⟨follows, encoded, turns⟩, pipe⟩ := reaches_sound flags circuit reaches
  refine ⟨running, flushed, follows.symm, ?_, Pipe.answerable _ _ _ _ _ pipe, turns⟩
  refine encoded.imp ?_
  intro request written encodes
  refine ⟨encodes, ?_⟩
  rw [encodes]
  exact Request.written_inLine written.1 request

/-- A question that is left, relayed, answered and heard does not stop the station. -/
theorem answered_question_accepted :
    ∃ circuit : Circuit, Reaches ⟨"js", false⟩ circuit ∧
      .heard (Response.written (.tooltip ⟨1, none, some "int"⟩)) ∈ circuit.passed ∧
      circuit.station.phase = .running ∧ circuit.station.link.outbox = [] := by
  have fresh : Reaches ⟨"js", false⟩ _ := Reaches.start
  have left := Reaches.step _ _ fresh (Step.leave _ (.tooltip "a.sk" 0 0))
  have relayed := Reaches.step _ _ left (Step.relay _ Files.Disk.bare _ [] rfl)
  have answers := Request.written_asks Files.Disk.bare (.tooltip ⟨1, "a.sk", 0, 0⟩)
  have answered := Reaches.step _ _ relayed (Step.answer _ [] [] _ _ rfl
    ⟨.tooltip ⟨1, none, some "int"⟩, Response.carries_written _, answers⟩)
  have heard := Reaches.step _ _ answered (Step.hear _ Files.Disk.bare _ [] rfl)
  obtain ⟨running, flushed, -⟩ := correct_worker_accepted _ _ heard
  refine ⟨_, heard, ?_, running, flushed⟩
  simp [follow]

end Circuit
end BuildWatch
