import BuildWatch.Dispatcher
import Mathlib.Data.List.Induction

/-!
# Histories of a dispatcher

A run is a list of calls on a new dispatcher whose line takes every request. What
is seen of it from outside is a list of moments: a request is issued under the
number that the call returns, a request goes out, a response is accepted, an
answer is delivered. A response is accepted before the request that it makes room
for goes out.

Every call does one of five things, and `call_step` says which. What holds of
every run is then proved by `run_invariant` from these five cases alone, without
opening the functions of the dispatcher again.
-/

namespace BuildWatch.Dispatcher

/-- One call of a dispatcher. -/
inductive Call where
  | compile (inputs : List Path)
  | tooltip (source : String) (row column : UInt32)
  | respond (response : Response)
  deriving DecidableEq, Repr

/-- What a call comes to: the number of the request it made, or what became of a response. -/
inductive Reply where
  | numbered (id : RequestId)
  | judged (verdict : Verdict)
  deriving DecidableEq, Repr

/-- Do what a call says, over a line that takes every request. -/
def perform (state : Dispatcher) : Call → Turn Reply
  | .compile inputs =>
    let turn := state.compile .always inputs
    ⟨turn.after, turn.events, turn.result.map .numbered⟩
  | .tooltip source row column =>
    let turn := state.tooltip .always source row column
    ⟨turn.after, turn.events, turn.result.map .numbered⟩
  | .respond response =>
    let turn := state.respond .always response
    ⟨turn.after, turn.events, turn.result.map .judged⟩

/-- One thing that is seen of a dispatcher. -/
inductive Moment where
  | issued (request : Request)
  | sent (request : Request)
  | accepted (response : Response)
  | delivered (response : Response)
  deriving DecidableEq, Repr

/-- What a call shows by its result: the request it made, with the number it
returned, or a response that was accepted. A call that fails shows nothing. -/
def Call.shown (flags : CompileFlags) : Call → Except WorkerFault Reply → List Moment
  | .compile inputs, .ok (.numbered id) => [.issued (.compile ⟨id, inputs, flags⟩)]
  | .tooltip source row column, .ok (.numbered id) => [.issued (.tooltip ⟨id, source, row, column⟩)]
  | .respond response, .ok (.judged _) => [.accepted response]
  | _, _ => []

namespace Moment

/-- What an event shows. -/
def ofEvent? : Event → Option Moment
  | .sent request => some (.sent request)
  | .delivered response => some (.delivered response)
  | .told _ => none

/-- The requests issued in a list of moments. -/
def issuedIn (moments : List Moment) : List Request :=
  moments.filterMap fun
    | .issued request => some request
    | _ => none

/-- The requests that went out in a list of moments. -/
def sentIn (moments : List Moment) : List Request :=
  moments.filterMap fun
    | .sent request => some request
    | _ => none

/-- The responses accepted in a list of moments. -/
def acceptedIn (moments : List Moment) : List Response :=
  moments.filterMap fun
    | .accepted response => some response
    | _ => none

/-- The answers delivered in a list of moments. -/
def deliveredIn (moments : List Moment) : List Response :=
  moments.filterMap fun
    | .delivered response => some response
    | _ => none

/-- The requests of a kind that were issued. -/
def issuedOf (kind : RequestKind) (moments : List Moment) : List Request :=
  (issuedIn moments).filter fun request => request.kind = kind

/-- The requests of a kind that went out. -/
def sentOf (kind : RequestKind) (moments : List Moment) : List Request :=
  (sentIn moments).filter fun request => request.kind = kind

/-- The answers of a kind that were delivered. -/
def deliveredOf (kind : RequestKind) (moments : List Moment) : List Response :=
  (deliveredIn moments).filter fun response => response.kind = kind

theorem issuedIn_append (moments more : List Moment) :
    issuedIn (moments ++ more) = issuedIn moments ++ issuedIn more := List.filterMap_append

theorem sentIn_append (moments more : List Moment) :
    sentIn (moments ++ more) = sentIn moments ++ sentIn more := List.filterMap_append

theorem acceptedIn_append (moments more : List Moment) :
    acceptedIn (moments ++ more) = acceptedIn moments ++ acceptedIn more := List.filterMap_append

theorem issuedOf_append (kind : RequestKind) (moments more : List Moment) :
    issuedOf kind (moments ++ more) = issuedOf kind moments ++ issuedOf kind more := by
  simp only [issuedOf, issuedIn_append, List.filter_append]

theorem sentOf_append (kind : RequestKind) (moments more : List Moment) :
    sentOf kind (moments ++ more) = sentOf kind moments ++ sentOf kind more := by
  simp only [sentOf, sentIn_append, List.filter_append]

theorem deliveredOf_append (kind : RequestKind) (moments more : List Moment) :
    deliveredOf kind (moments ++ more) = deliveredOf kind moments ++ deliveredOf kind more := by
  simp only [deliveredOf, deliveredIn, List.filterMap_append, List.filter_append]

/-- Events show requests that go out and answers that are delivered, and nothing else. -/
theorem events_show (events : List Event) (moment : Moment)
    (shown : moment ∈ events.filterMap ofEvent?) :
    (∃ request, moment = .sent request) ∨ ∃ response, moment = .delivered response := by
  obtain ⟨event, -, shows⟩ := List.mem_filterMap.mp shown
  cases event with
  | sent request => exact Or.inl ⟨request, (Option.some.inj shows).symm⟩
  | delivered response => exact Or.inr ⟨response, (Option.some.inj shows).symm⟩
  | told note => exact absurd shows (Option.some_ne_none moment).symm

/-- No event of the dispatcher issues a request; only calls do. -/
theorem issuedIn_events (events : List Event) : issuedIn (events.filterMap ofEvent?) = [] := by
  rw [issuedIn, List.filterMap_eq_nil_iff]
  intro moment shown
  rcases events_show events moment shown with ⟨request, rfl⟩ | ⟨response, rfl⟩ <;> rfl

/-- No event of the dispatcher accepts a response; only calls do. -/
theorem acceptedIn_events (events : List Event) : acceptedIn (events.filterMap ofEvent?) = [] := by
  rw [acceptedIn, List.filterMap_eq_nil_iff]
  intro moment shown
  rcases events_show events moment shown with ⟨request, rfl⟩ | ⟨response, rfl⟩ <;> rfl

/-- The requests that go out in a list of events are those that its moments show. -/
theorem sentIn_events (events : List Event) :
    sentIn (events.filterMap ofEvent?) = Dispatcher.sentIn events := by
  induction events with
  | nil => rfl
  | cons event rest inductionHypothesis =>
    cases event with
    | told note | delivered response => exact inductionHypothesis
    | sent request => exact congrArg (request :: ·) inductionHypothesis

end Moment

/-- An item of a joined list is one of the first part or one of the second. -/
theorem split_append {α : Type} (moments seen before after : List α) (moment : α)
    (split : moments ++ seen = before ++ moment :: after) :
    (∃ rest, moments = before ++ moment :: rest) ∨
      ∃ middle, before = moments ++ middle ∧ seen = middle ++ moment :: after := by
  rcases List.append_eq_append_iff.mp split with ⟨middle, later, same⟩ | ⟨rest, earlier, same⟩
  · exact Or.inr ⟨middle, later, same⟩
  · cases rest with
    | nil => exact Or.inr ⟨[], by simpa using earlier.symm, by simpa using same.symm⟩
    | cons first rest =>
      obtain ⟨rfl, -⟩ := List.cons.inj same
      exact Or.inl ⟨rest, earlier⟩

/-- A dispatcher with all that was seen of it, oldest first. -/
structure History where
  state : Dispatcher
  moments : List Moment := []

/-- Go on by one call. -/
def History.step (flags : CompileFlags) (history : History) (call : Call) : History :=
  let turn := history.state.perform call
  ⟨turn.after, history.moments ++ call.shown flags turn.result ++
    turn.events.filterMap Moment.ofEvent?⟩

/-- The result of a call shows no request that goes out. -/
theorem shown_sent (flags : CompileFlags) (call : Call) (result : Except WorkerFault Reply) :
    Moment.sentIn (call.shown flags result) = [] := by
  fun_cases Call.shown flags call result <;> rfl

/-- By one call, the requests that went out grow by those that the call sends. -/
theorem sentIn_step (flags : CompileFlags) (history : History) (call : Call) :
    Moment.sentIn (history.step flags call).moments =
      Moment.sentIn history.moments ++ sentIn (history.state.perform call).events := by
  rw [History.step, Moment.sentIn_append, Moment.sentIn_append, shown_sent, Moment.sentIn_events,
    List.append_nil]

/-- The history of calls on a new dispatcher. -/
def run (flags : CompileFlags) (calls : List Call) : History :=
  calls.foldl (History.step flags) ⟨{ flags := flags }, []⟩

/-- The request that waits in the slot of a kind. -/
def slot (state : Dispatcher) : RequestKind → Option Request
  | .compile => state.waitingCompile.map .compile
  | .tooltip => state.waitingTooltip.map .tooltip

/-- The waiting request that goes out first. -/
def next (state : Dispatcher) : Option Request := (state.slot .compile).or (state.slot .tooltip)

/-- A request was numbered. -/
def issue (state : Dispatcher) (request : Request) : Dispatcher :=
  { state with
    lastId := request.id
    latestTooltip := if request.kind = .tooltip then some request.id else state.latestTooltip }

/-- A request went out. -/
def await (state : Dispatcher) (request : Request) : Dispatcher :=
  { state with inFlight := some ⟨request.id, request.kind⟩ }

/-- Nothing is in flight any more. -/
def settle (state : Dispatcher) : Dispatcher := { state with inFlight := none }

/-- A request took the slot of its kind. -/
def put (state : Dispatcher) : Request → Dispatcher
  | .compile request => { state with waitingCompile := some request }
  | .tooltip request => { state with waitingTooltip := some request }

/-- The slot of a kind was emptied. -/
def clear (state : Dispatcher) : RequestKind → Dispatcher
  | .compile => { state with waitingCompile := none }
  | .tooltip => { state with waitingTooltip := none }

section Views

variable (state : Dispatcher) (request : Request) (kind other : RequestKind)

@[simp]
theorem slot_issue : (state.issue request).slot kind = state.slot kind := by
  cases kind <;> rfl

@[simp]
theorem slot_await : (state.await request).slot kind = state.slot kind := by
  cases kind <;> rfl

@[simp]
theorem slot_settle : state.settle.slot kind = state.slot kind := by
  cases kind <;> rfl

/-- Only the slot of the request's own kind is written. -/
@[simp]
theorem slot_put :
    (state.put request).slot kind = if request.kind = kind then some request else state.slot kind := by
  cases request <;> cases kind <;> rfl

/-- Only the named slot is emptied. -/
@[simp]
theorem slot_clear :
    (state.clear kind).slot other = if kind = other then none else state.slot other := by
  cases kind <;> cases other <;> rfl

/-- A request waits in the slot of its own kind and in no other. -/
theorem kind_of_slot (waits : state.slot kind = some request) : request.kind = kind := by
  cases kind with
  | compile =>
    obtain ⟨held, -, rfl⟩ := Option.map_eq_some_iff.mp waits
    rfl
  | tooltip =>
    obtain ⟨held, -, rfl⟩ := Option.map_eq_some_iff.mp waits
    rfl

@[simp]
theorem inFlight_issue : (state.issue request).inFlight = state.inFlight := rfl

@[simp]
theorem inFlight_await :
    (state.await request).inFlight = some ⟨request.id, request.kind⟩ := rfl

@[simp]
theorem inFlight_put : (state.put request).inFlight = state.inFlight := by
  cases request <;> rfl

@[simp]
theorem lastId_issue : (state.issue request).lastId = request.id := rfl

@[simp]
theorem lastId_await : (state.await request).lastId = state.lastId := rfl

@[simp]
theorem lastId_settle : state.settle.lastId = state.lastId := rfl

@[simp]
theorem lastId_put : (state.put request).lastId = state.lastId := by
  cases request <;> rfl

@[simp]
theorem lastId_clear : (state.clear kind).lastId = state.lastId := by
  cases kind <;> rfl

@[simp]
theorem latestTooltip_issue :
    (state.issue request).latestTooltip =
      if request.kind = .tooltip then some request.id else state.latestTooltip := rfl

@[simp]
theorem latestTooltip_await : (state.await request).latestTooltip = state.latestTooltip := rfl

@[simp]
theorem latestTooltip_settle : state.settle.latestTooltip = state.latestTooltip := rfl

@[simp]
theorem latestTooltip_put : (state.put request).latestTooltip = state.latestTooltip := by
  cases request <;> rfl

@[simp]
theorem latestTooltip_clear : (state.clear kind).latestTooltip = state.latestTooltip := by
  cases kind <;> rfl

end Views

/-- Nothing is sent next exactly when both slots are empty. -/
theorem next_none_iff (state : Dispatcher) : state.next = none ↔ ∀ kind, state.slot kind = none := by
  constructor
  · intro empty kind
    obtain ⟨noCompile, noTooltip⟩ := Option.or_eq_none_iff.mp empty
    cases kind with
    | compile => exact noCompile
    | tooltip => exact noTooltip
  · intro empty
    exact Option.or_eq_none_iff.mpr ⟨empty .compile, empty .tooltip⟩

/-- What is sent next waits in the slot of its kind. -/
theorem slot_of_next (state : Dispatcher) (request : Request) (first : state.next = some request) :
    state.slot request.kind = some request := by
  rcases Option.or_eq_some_iff.mp first with waits | ⟨-, waits⟩
  · exact kind_of_slot state request .compile waits ▸ waits
  · exact kind_of_slot state request .tooltip waits ▸ waits

/-- Taking out a waiting request gives the one that goes first, and clears its slot only. -/
theorem takeWaiting_eq (state : Dispatcher) :
    state.takeWaiting = state.next.map fun request => (request, state.clear request.kind) := by
  obtain ⟨flags, lastId, inFlight, waitingCompile, waitingTooltip, latestTooltip⟩ := state
  cases waitingCompile <;> cases waitingTooltip <;> rfl

/-- What a call does, as it is seen from outside. The request it sends, if any, and
the state after it are those of the moments. -/
inductive Step : Dispatcher → List Moment → Dispatcher → Prop where
  | sent (state : Dispatcher) (request : Request) (idle : state.inFlight = none)
      (numbered : request.id = state.lastId + 1) :
      Step state [.issued request, .sent request] ((state.issue request).await request)
  | queued (state : Dispatcher) (request : Request) (busy : state.inFlight ≠ none)
      (numbered : request.id = state.lastId + 1) :
      Step state [.issued request] ((state.issue request).put request)
  | rejected (state : Dispatcher) : Step state [] state
  | superseded (state : Dispatcher) (response : Response) (request : Request)
      (awaited : state.inFlight = some ⟨response.id, response.kind⟩)
      (first : state.next = some request) :
      Step state [.accepted response, .sent request] ((state.clear request.kind).await request)
  | delivered (state : Dispatcher) (response : Response)
      (awaited : state.inFlight = some ⟨response.id, response.kind⟩)
      (empty : state.next = none) :
      Step state [.accepted response, .delivered response] state.settle

/-- A new request goes out when nothing is in flight, and takes its slot otherwise.
No line of a run refuses it, so submitting it never fails. -/
theorem submit_step (state : Dispatcher) (request : Request)
    (numbered : request.id = state.lastId + 1) :
    let turn := submit .always (state.issue request) request
    turn.result = .ok () ∧
      Step state (.issued request :: turn.events.filterMap Moment.ofEvent?) turn.after := by
  cases flight : state.inFlight with
  | none =>
    have sends : submit .always (state.issue request) request =
        send .always (state.issue request) request := by
      simp only [submit, inFlight_issue, flight, Option.isNone_none, if_true]
    rw [sends]
    exact ⟨rfl, Step.sent state request flight numbered⟩
  | some awaited =>
    have waits : submit .always (state.issue request) request =
        enqueue (state.issue request) request := by
      simp only [submit, inFlight_issue, flight, Option.isNone_some, Bool.false_eq_true, if_false]
    have busy : state.inFlight ≠ none := by simp only [flight, ne_eq, reduceCtorEq, not_false_eq_true]
    rw [waits]
    cases request <;> exact ⟨rfl, Step.queued state _ busy numbered⟩

/-- The request that asking for files makes. -/
def compileRequest (state : Dispatcher) (inputs : List Path) : Request :=
  .compile ⟨state.lastId + 1, inputs, state.flags⟩

/-- The request that asking about a place makes. -/
def tooltipRequest (state : Dispatcher) (source : String) (row column : UInt32) : Request :=
  .tooltip ⟨state.lastId + 1, source, row, column⟩

/-- Asking for files submits a new request and returns its number. -/
theorem compile_eq (state : Dispatcher) (inputs : List Path) :
    let request := state.compileRequest inputs
    let turn := submit .always (state.issue request) request
    state.compile .always inputs = ⟨turn.after, turn.events, .ok request.id⟩ := by
  obtain ⟨taken, -⟩ := submit_step state (state.compileRequest inputs) rfl
  change (submit .always (state.issue (state.compileRequest inputs))
    (state.compileRequest inputs)).numbered (state.lastId + 1) = _
  simp only [Turn.numbered, taken]
  rfl

/-- Asking about a place submits a new request and returns its number. -/
theorem tooltip_eq (state : Dispatcher) (source : String) (row column : UInt32) :
    let request := state.tooltipRequest source row column
    let turn := submit .always (state.issue request) request
    state.tooltip .always source row column = ⟨turn.after, turn.events, .ok request.id⟩ := by
  obtain ⟨taken, -⟩ := submit_step state (state.tooltipRequest source row column) rfl
  change (submit .always (state.issue (state.tooltipRequest source row column))
    (state.tooltipRequest source row column)).numbered (state.lastId + 1) = _
  simp only [Turn.numbered, taken]
  rfl

/-- A response that does not answer the request in flight is refused, and changes nothing. -/
theorem respond_unsolicited (line : RequestLine) (state : Dispatcher) (response : Response)
    (other : state.inFlight ≠ some ⟨response.id, response.kind⟩) :
    state.respond line response = ⟨state, [], .error (.unsolicited response.id)⟩ := by
  simp only [respond, awaits, other, Bool.not_eq_true', beq_eq_false_iff_ne, ne_eq,
    not_false_eq_true, if_true]

/-- An answer behind which nothing waits is delivered. -/
theorem respond_delivered (state : Dispatcher) (response : Response)
    (awaited : state.inFlight = some ⟨response.id, response.kind⟩) (empty : state.next = none) :
    state.respond .always response =
      ⟨state.settle, [.delivered response], .ok (.delivered response.kind)⟩ := by
  have answers : state.awaits response = true := by simp only [awaits, awaited, beq_self_eq_true]
  simp only [respond, answers, Bool.not_true, Bool.false_eq_true, if_false, takeWaiting_eq, empty,
    Option.map_none]
  rfl

/-- An answer behind which a request waits is dropped, and the request goes out. -/
theorem respond_superseded (state : Dispatcher) (response : Response) (request : Request)
    (awaited : state.inFlight = some ⟨response.id, response.kind⟩)
    (first : state.next = some request) :
    state.respond .always response =
      ⟨(state.clear request.kind).await request,
        [tell ("discard " ++ named response.kind response.id ++ ", sending queued " ++
            named request.kind request.id),
          .sent request, tell ("sent " ++ named request.kind request.id)],
        .ok (.superseded response.id request.id)⟩ := by
  have answers : state.awaits response = true := by simp only [awaits, awaited, beq_self_eq_true]
  simp only [respond, answers, Bool.not_true, Bool.false_eq_true, if_false, takeWaiting_eq, first,
    Option.map_some]
  rfl

/-- Every call takes one of the five steps. -/
theorem call_step (flags : CompileFlags) (state : Dispatcher) (configured : state.flags = flags)
    (call : Call) :
    let turn := state.perform call
    Step state (call.shown flags turn.result ++ turn.events.filterMap Moment.ofEvent?) turn.after := by
  cases call with
  | compile inputs =>
    subst configured
    simp only [perform, compile_eq]
    exact (submit_step state (state.compileRequest inputs) rfl).2
  | tooltip source row column =>
    simp only [perform, tooltip_eq]
    exact (submit_step state (state.tooltipRequest source row column) rfl).2
  | respond response =>
    by_cases awaited : state.inFlight = some ⟨response.id, response.kind⟩
    · cases first : state.next with
      | none =>
        simp only [perform, respond_delivered state response awaited first]
        exact Step.delivered state response awaited first
      | some request =>
        simp only [perform, respond_superseded state response request awaited first]
        exact Step.superseded state response request awaited first
    · simp only [perform, respond_unsolicited .always state response awaited]
      exact Step.rejected state

/-- No step changes what compile requests say besides their files. -/
theorem step_flags (before after : Dispatcher) (seen : List Moment)
    (step : Step before seen after) : after.flags = before.flags := by
  cases step with
  | sent | rejected | delivered => rfl
  | queued request => cases request <;> rfl
  | superseded response request => cases request <;> rfl

theorem run_snoc (flags : CompileFlags) (calls : List Call) (call : Call) :
    run flags (calls ++ [call]) = (run flags calls).step flags call := by
  simp only [run, List.foldl_append, List.foldl_cons, List.foldl_nil]

/-- A dispatcher keeps the flags that it was made with. -/
theorem run_flags (flags : CompileFlags) (calls : List Call) :
    (run flags calls).state.flags = flags := by
  induction calls using List.reverseRecOn with
  | nil => rfl
  | append_singleton calls call inductionHypothesis =>
    rw [run_snoc]
    exact (step_flags _ _ _ (call_step flags _ inductionHypothesis call)).trans inductionHypothesis

/-- What holds of a new dispatcher, and is kept by each of the five steps from where a
run has come to, holds of every run. -/
theorem run_invariant (flags : CompileFlags) (holds : Dispatcher → List Moment → Prop)
    (start : holds { flags := flags } [])
    (keep : ∀ calls seen after, holds (run flags calls).state (run flags calls).moments →
      Step (run flags calls).state seen after → holds after ((run flags calls).moments ++ seen))
    (calls : List Call) : holds (run flags calls).state (run flags calls).moments := by
  induction calls using List.reverseRecOn with
  | nil => exact start
  | append_singleton calls call inductionHypothesis =>
    rw [run_snoc]
    have step := call_step flags _ (run_flags flags calls) call
    simpa only [History.step, List.append_assoc] using keep calls _ _ inductionHypothesis step

end BuildWatch.Dispatcher
