import BuildWatch.Proofs.Dispatcher.Delivery

/-!
# How the waiting requests go out

While nobody asks for anything new, each answer to the request in flight makes room for one request
that waits, and the answer behind the last of them is delivered. So the number of waiting requests
is what is left to do: every answer but the last lowers it by one, and none can raise it. A compile
request goes out before a tooltip request, and neither is passed over.

What the answers say makes no difference, nor how the dispatcher came to where it is.
-/

namespace BuildWatch.Dispatcher

/-- The requests that wait, in the order in which they go out. -/
def waiting (state : Dispatcher) : List Request :=
  (state.slot .compile).toList ++ (state.slot .tooltip).toList

/-- Nothing is sent next exactly when nothing waits. -/
theorem waiting_nil_iff (state : Dispatcher) : state.waiting = [] ↔ state.next = none := by
  rw [waiting, List.append_eq_nil_iff, Option.toList_eq_nil_iff, Option.toList_eq_nil_iff]
  exact Option.or_eq_none_iff.symm

/-- Of the waiting requests the first is sent next, and the others wait on. -/
theorem waiting_cons (state : Dispatcher) (request : Request) (rest : List Request)
    (waits : state.waiting = request :: rest) :
    state.next = some request ∧ ((state.clear request.kind).await request).waiting = rest := by
  simp only [waiting, next, slot_await, slot_clear] at waits ⊢
  cases compile : state.slot .compile with
  | some first =>
    have kind := kind_of_slot state first .compile compile
    obtain ⟨rfl, rfl⟩ : first = request ∧ (state.slot .tooltip).toList = rest := by
      simpa [compile] using waits
    simp [kind]
  | none =>
    cases tooltip : state.slot .tooltip with
    | some first =>
      have kind := kind_of_slot state first .tooltip tooltip
      obtain ⟨rfl, rfl⟩ : first = request ∧ [] = rest := by simpa [compile, tooltip] using waits
      simp [kind]
    | none => simp [compile, tooltip] at waits

/-- Each response answers the request that is in flight when it comes. -/
def AnswersEach (state : Dispatcher) : List Response → Prop
  | [] => True
  | response :: rest =>
    state.inFlight = some ⟨response.id, response.kind⟩ ∧
      AnswersEach (state.respond .always response).after rest

/-- What comes of responses that follow a history, when nothing new is asked for. -/
structure Drains (before after : History) (responses : List Response) : Prop where
  /-- There is one answer for the request in flight, and one for each request that waited. -/
  bounded : responses.length ≤ before.state.waiting.length + 1
  /-- Nothing is in flight once all of these have come, and not before. -/
  idle : after.state.inFlight = none ↔ responses.length = before.state.waiting.length + 1
  /-- Each answer is accepted. -/
  accepted : Moment.acceptedIn after.moments = Moment.acceptedIn before.moments ++ responses
  /-- With each answer the next of the waiting requests goes out, and nothing else does. -/
  sent : Moment.sentIn after.moments =
    Moment.sentIn before.moments ++ before.state.waiting.take responses.length
  /-- The requests behind those wait on. -/
  waits : after.state.waiting = before.state.waiting.drop responses.length
  /-- Only the answer behind all the waiting requests is delivered. -/
  delivered : Moment.deliveredIn after.moments =
    Moment.deliveredIn before.moments ++ responses.drop before.state.waiting.length

variable (flags : CompileFlags) (history : History)

/-- An answer behind which a request waits is accepted, and the request goes out. -/
theorem step_superseded (response : Response) (request : Request) (rest : List Request)
    (awaited : history.state.inFlight = some ⟨response.id, response.kind⟩)
    (waits : history.state.waiting = request :: rest) :
    history.step flags (.respond response) =
      ⟨(history.state.clear request.kind).await request,
        history.moments ++ [.accepted response, .sent request]⟩ := by
  obtain ⟨first, -⟩ := waiting_cons history.state request rest waits
  simp only [History.step, perform, respond_superseded history.state response request awaited first,
    Except.map, Call.shown, List.append_assoc]
  rfl

/-- An answer behind which nothing waits is accepted and delivered. -/
theorem step_settled (response : Response)
    (awaited : history.state.inFlight = some ⟨response.id, response.kind⟩)
    (nothing : history.state.waiting = []) :
    history.step flags (.respond response) =
      ⟨history.state.settle, history.moments ++ [.accepted response, .delivered response]⟩ := by
  have empty := (waiting_nil_iff history.state).mp nothing
  simp only [History.step, perform, respond_delivered history.state response awaited empty,
    Except.map, Call.shown, List.append_assoc]
  rfl

/-- Answers drain the waiting requests from any history on. -/
theorem drains_onward (responses : List Response) (busy : history.state.inFlight ≠ none)
    (answers : AnswersEach history.state responses) :
    Drains history ((responses.map .respond).foldl (History.step flags) history) responses := by
  induction responses generalizing history with
  | nil =>
    constructor <;> simp [busy]
  | cons response rest inductionHypothesis =>
    obtain ⟨awaited, later⟩ := answers
    have onward : (respond .always history.state response).after =
        (history.step flags (.respond response)).state := rfl
    rw [onward] at later
    rw [List.map_cons, List.foldl_cons]
    cases waits : history.state.waiting with
    | nil =>
      rw [step_settled flags history response awaited waits] at later ⊢
      -- Nothing is in flight any more that another response could answer.
      obtain rfl : rest = [] := by
        cases rest with
        | nil => rfl
        | cons other others => exact absurd later.1 (by simp [settle])
      have settled : history.state.settle.waiting = [] := by
        simpa only [waiting, slot_settle] using waits
      constructor
      case idle => simp [waits, settle]
      case waits => simp [waits, settled]
      all_goals simp [waits, Moment.acceptedIn, Moment.sentIn, Moment.deliveredIn]
    | cons request others =>
      obtain ⟨-, left⟩ := waiting_cons history.state request others waits
      rw [step_superseded flags history response request others awaited waits] at later ⊢
      obtain ⟨bounded, idle, accepted, sent, waits', delivered⟩ :=
        inductionHypothesis _ (by simp) later
      simp only [left] at bounded idle sent waits' delivered
      constructor
      case bounded => simpa [waits] using bounded
      case idle => simpa [waits] using idle
      case waits => simpa [waits] using waits'
      case accepted => simpa [Moment.acceptedIn] using accepted
      case sent => simpa [waits, Moment.sentIn] using sent
      case delivered => simpa [waits, Moment.deliveredIn] using delivered

/-- While a request is in flight, any response under its number and of its kind goes on with
responses that answer each request. -/
theorem answersEach_snoc (responses : List Response) (flight : InFlight) (response : Response)
    (answers : AnswersEach history.state responses)
    (busy : ((responses.map .respond).foldl (History.step flags) history).state.inFlight = some flight)
    (id : response.id = flight.id) (kind : response.kind = flight.kind) :
    AnswersEach history.state (responses ++ [response]) := by
  induction responses generalizing history with
  | nil =>
    refine ⟨?_, trivial⟩
    rw [id, kind]
    exact busy
  | cons first rest inductionHypothesis =>
    obtain ⟨awaited, later⟩ := answers
    exact ⟨awaited, inductionHypothesis (history.step flags (.respond first)) later busy⟩

/-- **The waiting requests drain completely and in order.** Take any run after which a request is in
flight, and any responses, each of which answers the request that is in flight when it comes.

There are at most as many of them as requests were in flight and waited, and nothing is in flight
exactly when all of these have come; until then any answer to the request in flight can come next.
All answers are accepted. The waiting compile request goes out first and the waiting tooltip
request behind it, one with each answer, and nothing else goes out. Only the last of all the
answers is delivered. In the end the request of each kind that was issued last has gone out.

Proof: by induction on the responses, the waiting requests being those that are left; and in a run
the request issued last waits or is the one that went out last. -/
theorem waiting_requests_drain (flags : CompileFlags) (calls : List Call) (responses : List Response)
    (busy : (run flags calls).state.inFlight ≠ none)
    (answers : AnswersEach (run flags calls).state responses) :
    let before := run flags calls
    let after := run flags (calls ++ responses.map .respond)
    Drains before after responses ∧
      (∀ flight, after.state.inFlight = some flight → ∀ response : Response,
        response.id = flight.id → response.kind = flight.kind →
          AnswersEach before.state (responses ++ [response])) ∧
      (after.state.inFlight = none → ∀ kind, (Moment.issuedOf kind after.moments).getLast? =
        (Moment.sentOf kind after.moments).getLast?) := by
  intro before after
  have onward : after = (responses.map .respond).foldl (History.step flags) before :=
    List.foldl_append
  refine ⟨?_, ?_, ?_⟩
  · rw [onward]
    exact drains_onward flags before responses busy answers
  · intro flight going response id kind
    rw [onward] at going
    exact answersEach_snoc flags before responses flight response answers going id kind
  · intro idle kind
    have settled := (run_inTurn flags (calls ++ responses.map .respond)).idle idle
    have empty := (next_none_iff _).mp settled kind
    rw [(run_kept flags _ kind).latest, empty, Option.none_or]

/-- A compile request is in flight, and one of each kind waits: three answers drain them, and only
the tooltip is delivered. -/
theorem question_drains_last :
    let calls : List Call := [.compile [⟨"a"⟩], .tooltip "a" 3 4, .compile [⟨"b"⟩]]
    let responses : List Response := [.compile ⟨1, {}⟩, .compile ⟨3, {}⟩, .tooltip ⟨2, none, none⟩]
    let after := run ⟨"js", true⟩ (calls ++ responses.map .respond)
    (run ⟨"js", true⟩ calls).state.inFlight ≠ none ∧
      AnswersEach (run ⟨"js", true⟩ calls).state responses ∧
      Moment.sentIn after.moments = [.compile ⟨1, [⟨"a"⟩], ⟨"js", true⟩⟩,
        .compile ⟨3, [⟨"b"⟩], ⟨"js", true⟩⟩, .tooltip ⟨2, "a", 3, 4⟩] ∧
      Moment.deliveredIn after.moments = [.tooltip ⟨2, none, none⟩] ∧ after.state.inFlight = none := by
  intro calls responses after
  have busy : (run ⟨"js", true⟩ calls).state.inFlight ≠ none := by decide
  have answers : AnswersEach (run ⟨"js", true⟩ calls).state responses := ⟨rfl, rfl, rfl, trivial⟩
  obtain ⟨drains, -, -⟩ := waiting_requests_drain ⟨"js", true⟩ calls responses busy answers
  exact ⟨busy, answers, drains.sent, drains.delivered, drains.idle.mpr rfl⟩

end BuildWatch.Dispatcher
