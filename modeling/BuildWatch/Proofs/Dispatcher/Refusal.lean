import BuildWatch.Proofs.Dispatcher.History
import BuildWatch.Proofs.Message.Classification

/-!
# Only the awaited answer counts

Of all the lines that a worker may write, a dispatcher heeds one: a line that says the answer
to the request in flight. Every other line is refused with a fault that says what is wrong
with it, and it is refused before anything else is looked at. No waiting request is taken out
of its slot for it, nothing goes out, nothing is delivered. So a refused line leaves no trace
in what comes after it.

The line to the worker may take some requests and refuse others. It is asked only when the
awaited answer came and a request waits; the lines of the worker that are refused are the
same whatever it takes.
-/

namespace BuildWatch

/-- A line that cannot be read is malformed, or a response of an unknown kind. -/
theorem Response.read_fault (line : String) (fault : WorkerFault) (unread : read line = .error fault) :
    (∃ cause, fault = .malformed line cause) ∨ ∃ kind, fault = .unknownKind kind := by
  rw [read] at unread
  cases text : Json.read? line with
  | none =>
    rw [text] at unread
    exact Or.inl ⟨.notJson, (Except.error.inj unread).symm⟩
  | some value =>
    have taken := ofJson_taken line value ((Json.read?_iff line value).mp text).keyed
    rw [text] at unread
    simp only [unread] at taken
    cases taken with
    | untyped => exact Or.inl ⟨.noType, rfl⟩
    | unknown kind => exact Or.inr ⟨kind, rfl⟩
    | misfit kind cause => exact Or.inl ⟨cause, rfl⟩

namespace Dispatcher

/-- A line says the answer to the request in flight. -/
def Expects (state : Dispatcher) (text : String) : Prop :=
  ∃ response, Response.read text = .ok response ∧
    state.inFlight = some ⟨response.id, response.kind⟩

/-- What is wrong with a line that is not heeded. -/
inductive Refusal (text : String) : WorkerFault → Prop
  | malformed (cause : SchemaFault) (unread : Response.read text = .error (.malformed text cause)) :
      Refusal text (.malformed text cause)
  | unknownKind (kind : String) (unread : Response.read text = .error (.unknownKind kind)) :
      Refusal text (.unknownKind kind)
  | unsolicited (response : Response) (read : Response.read text = .ok response) :
      Refusal text (.unsolicited response.id)

/-- A line that does not say the awaited answer is refused, and that is all. -/
theorem respondLine_refused (line : RequestLine) (state : Dispatcher) (text : String)
    (other : ¬ state.Expects text) :
    ∃ fault, Refusal text fault ∧ state.respondLine line text = ⟨state, [], .error fault⟩ := by
  cases read : Response.read text with
  | error fault =>
    have refused : state.respondLine line text = ⟨state, [], .error fault⟩ := by
      simp only [respondLine, read]
    refine ⟨fault, ?_, refused⟩
    rcases Response.read_fault text fault read with ⟨cause, rfl⟩ | ⟨kind, rfl⟩
    · exact Refusal.malformed cause read
    · exact Refusal.unknownKind kind read
  | ok response =>
    have unasked : state.inFlight ≠ some ⟨response.id, response.kind⟩ :=
      fun awaited => other ⟨response, read, awaited⟩
    refine ⟨.unsolicited response.id, Refusal.unsolicited response read, ?_⟩
    simp only [respondLine, read]
    exact respond_unsolicited line state response unasked

/-- A line that says the awaited answer is heeded. It ends in a fault only when a request waits
that cannot go out, and then in the fault of the line to the worker. -/
theorem respondLine_heeded (line : RequestLine) (state : Dispatcher) (text : String)
    (expected : state.Expects text) (fault : WorkerFault) :
    (state.respondLine line text).result = .error fault ↔
      ∃ request, state.next = some request ∧ line request = .error fault := by
  obtain ⟨response, read, awaited⟩ := expected
  have answers : state.awaits response = true := by simp only [awaits, awaited, beq_self_eq_true]
  simp only [respondLine, read, respond, answers, Bool.not_true, Bool.false_eq_true, if_false,
    takeWaiting_eq]
  cases first : state.next with
  | none => simp
  | some request => cases taken : line request <;> simp [send, taken, Except.map]

/-- Something that is done with a dispatcher: it is asked for something, or it is given a line
that the worker wrote. -/
inductive Deed where
  | compile (inputs : List Path)
  | tooltip (source : String) (row column : UInt32)
  | hear (text : String)
  deriving DecidableEq, Repr

/-- The state after a deed, and what happens. -/
def act (line : RequestLine) (state : Dispatcher) : Deed → Dispatcher × List Event
  | .compile inputs => ((state.compile line inputs).after, (state.compile line inputs).events)
  | .tooltip source row column =>
    ((state.tooltip line source row column).after, (state.tooltip line source row column).events)
  | .hear text => ((state.respondLine line text).after, (state.respondLine line text).events)

/-- The state after some deeds, one after another, and all that happens. -/
def converse (line : RequestLine) (state : Dispatcher) : List Deed → Dispatcher × List Event
  | [] => (state, [])
  | deed :: rest =>
    let later := converse line (state.act line deed).1 rest
    (later.1, (state.act line deed).2 ++ later.2)

/-- Whether a deed is none of the lines that are refused. -/
def heeds (state : Dispatcher) : Deed → Bool
  | .hear text =>
    match Response.read text with
    | .ok response => state.awaits response
    | .error _ => false
  | _ => true

/-- The deeds without the lines that are refused when their turn comes. -/
def heeded (line : RequestLine) (state : Dispatcher) : List Deed → List Deed
  | [] => []
  | deed :: rest =>
    if state.heeds deed then deed :: heeded line (state.act line deed).1 rest
    else heeded line (state.act line deed).1 rest

/-- A deed that is not heeded is a line that does not say the awaited answer. -/
theorem not_heeds (state : Dispatcher) (deed : Deed) (ignored : state.heeds deed = false) :
    ∃ text, deed = .hear text ∧ ¬ state.Expects text := by
  cases deed with
  | compile | tooltip => simp [heeds] at ignored
  | hear text =>
    refine ⟨text, rfl, ?_⟩
    rintro ⟨response, read, awaited⟩
    simp [heeds, read, awaits, awaited] at ignored

/-- Lines that are refused leave no trace: without them the same happens, and the dispatcher
comes to the same state. -/
theorem converse_heeded (line : RequestLine) (state : Dispatcher) (deeds : List Deed) :
    converse line state (heeded line state deeds) = converse line state deeds := by
  induction deeds generalizing state with
  | nil => rfl
  | cons deed rest inductionHypothesis =>
    rw [heeded]
    split_ifs with counts
    · rw [converse, converse, inductionHypothesis]
    · obtain ⟨text, rfl, other⟩ := not_heeds state deed (by simpa using counts)
      obtain ⟨fault, -, refused⟩ := respondLine_refused line state text other
      have still : state.act line (.hear text) = (state, []) := by simp only [act, refused]
      rw [converse, still, inductionHypothesis, List.nil_append]

/-- **Only the awaited answer counts.** Take a new dispatcher after any deeds, over any line to
the worker, and any text that the worker may write.

A text that does not say the answer to the request in flight is refused; without a request in
flight that is every text. The fault is that the text is malformed or of an unknown kind when
it cannot be read, and otherwise that it is unsolicited under the number it names. The whole
state is then as before, and nothing has happened. A text that says the answer ends in a fault
only when a request waits that the line to the worker does not take, and it is the fault of the
line. And all the deeds come to the same as those of them that were heeded: after a refused
text everything goes on as if it had never been written.

Proof: what is wrong with the text is found before a slot is touched, so the step of a refused
text is no step; leaving such steps out of a run changes nothing, by induction on the run. -/
theorem only_awaited_answer_counts (line : RequestLine) (flags : CompileFlags) (deeds : List Deed)
    (text : String) :
    let state := (converse line { flags := flags } deeds).1
    (¬ state.Expects text →
      ∃ fault, Refusal text fault ∧ state.respondLine line text = ⟨state, [], .error fault⟩) ∧
    (state.Expects text → ∀ fault, (state.respondLine line text).result = .error fault ↔
      ∃ request, state.next = some request ∧ line request = .error fault) ∧
    (state.inFlight = none → ¬ state.Expects text) ∧
    converse line { flags := flags } (heeded line { flags := flags } deeds) =
      converse line { flags := flags } deeds := by
  intro state
  refine ⟨respondLine_refused line state text, respondLine_heeded line state text, ?_,
    converse_heeded line _ deeds⟩
  rintro idle ⟨response, -, awaited⟩
  simp [idle] at awaited

/-- A tooltip for the request with the number one. -/
def tooltipLine : String := "\x7b\"type\":\"tooltip-query\",\"id\":1\x7d"

/-- A compile result for the request with the number one. -/
def compileLine : String := "\x7b\"type\":\"compile\",\"id\":1,\"log\":[]\x7d"

/-- The answer to a compile request still counts after a tooltip was written under its number. -/
theorem answer_counts_after_refused_line :
    let state := (converse .always { flags := ⟨"js", true⟩ } [.compile [], .hear tooltipLine]).1
    state.Expects compileLine ∧
      ¬ ∃ fault, (state.respondLine .always compileLine).result = .error fault := by
  have expected : (converse .always { flags := ⟨"js", true⟩ }
      [.compile [], .hear tooltipLine]).1.Expects compileLine := ⟨.compile ⟨1, {}⟩, rfl, rfl⟩
  obtain ⟨-, heeds, -⟩ := only_awaited_answer_counts .always ⟨"js", true⟩
    [.compile [], .hear tooltipLine] compileLine
  refine ⟨expected, ?_⟩
  rintro ⟨fault, fails⟩
  obtain ⟨request, -, refused⟩ := (heeds expected fault).mp fails
  exact absurd refused (by simp [RequestLine.always])

/-- A line that takes questions about places and nothing else. -/
def tooltipsOnly : RequestLine
  | .tooltip _ => .ok ()
  | .compile _ => .error (.process "worker input closed")

/-- The awaited answer ends in a fault when the request that waits cannot go out. -/
theorem awaited_answer_fails_on_closed_line :
    let state := (converse tooltipsOnly { flags := ⟨"js", true⟩ } [.tooltip "a" 0 0, .compile []]).1
    state.Expects tooltipLine ∧
      (state.respondLine tooltipsOnly tooltipLine).result =
        .error (.process "worker input closed") :=
  ⟨⟨.tooltip ⟨1, none, none⟩, rfl, rfl⟩, rfl⟩

end Dispatcher
end BuildWatch
