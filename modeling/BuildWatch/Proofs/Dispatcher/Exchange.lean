import BuildWatch.Proofs.Dispatcher.History

/-!
# Requests and responses take turns

The exchange with the worker is a protocol of its own, stated on moments alone: a
request may only go out when the one before it has been answered, and a response
is only accepted when it answers the request that went out last. Every history of
a dispatcher follows it, and what the dispatcher holds as in flight is the request
that the protocol holds as unanswered. That nothing waits while nothing is in
flight is needed with it: otherwise a new request could overtake a waiting one.
-/

namespace BuildWatch.Dispatcher

/-- Go on by one moment from the request that has no answer yet. No result means
that the moment is out of turn. -/
def Exchange.step : Option Request → Moment → Option (Option Request)
  | none, .sent request => some (some request)
  | some _, .sent _ => none
  | none, .accepted _ => none
  | some request, .accepted response =>
    if response.id = request.id ∧ response.kind = request.kind then some none else none
  | unanswered, _ => some unanswered

/-- The request without an answer after a list of moments, if none is out of turn. -/
def exchange (unanswered : Option Request) (moments : List Moment) : Option (Option Request) :=
  moments.foldlM Exchange.step unanswered

/-- Moments in turn stay in turn after more of them. -/
theorem exchange_append (start : Option Request) (moments more : List Moment) :
    exchange start (moments ++ more) =
      (exchange start moments).bind fun unanswered => exchange unanswered more := by
  simp only [exchange, List.foldlM_append]
  rfl

theorem exchange_cons (start : Option Request) (moment : Moment) (more : List Moment) :
    exchange start (moment :: more) =
      (Exchange.step start moment).bind fun unanswered => exchange unanswered more := rfl

/-- In turn, as many requests went out as responses were accepted, but for the one
without an answer. Each moment moves one of the two counts and the unanswered
request together. -/
theorem exchange_counts (start finish : Option Request) (moments : List Moment)
    (inTurn : exchange start moments = some finish) :
    start.toList.length + (Moment.sentIn moments).length =
      (Moment.acceptedIn moments).length + finish.toList.length := by
  induction moments generalizing start with
  | nil =>
    obtain rfl : start = finish := Option.some.inj inTurn
    simp only [Moment.sentIn, Moment.acceptedIn, List.filterMap_nil, List.length_nil]
    omega
  | cons moment rest inductionHypothesis =>
    rw [exchange_cons] at inTurn
    obtain ⟨middle, stepped, tail⟩ := Option.bind_eq_some_iff.mp inTurn
    have counted := inductionHypothesis middle tail
    cases moment with
    | issued request | delivered response =>
      have same : start = middle := by cases start <;> exact Option.some.inj stepped
      subst same
      exact counted
    | sent request =>
      cases start with
      | none =>
        obtain rfl : some request = middle := Option.some.inj stepped
        simp only [Moment.sentIn, Moment.acceptedIn, List.filterMap_cons, List.length_cons,
          Option.toList_some, Option.toList_none, List.length_nil] at counted ⊢
        omega
      | some unanswered => simp only [Exchange.step, reduceCtorEq] at stepped
    | accepted response =>
      cases start with
      | none => simp only [Exchange.step, reduceCtorEq] at stepped
      | some unanswered =>
        simp only [Exchange.step, Option.ite_none_right_eq_some] at stepped
        obtain rfl : none = middle := Option.some.inj stepped.2
        simp only [Moment.sentIn, Moment.acceptedIn, List.filterMap_cons, List.length_cons,
          Option.toList_some, Option.toList_none, List.length_nil] at counted ⊢
        omega

/-- In turn, the request without an answer is the one that went out last. -/
theorem exchange_last (start : Option Request) (request : Request) (moments : List Moment)
    (inTurn : exchange start moments = some (some request)) :
    (start.toList ++ Moment.sentIn moments).getLast? = some request := by
  induction moments using List.reverseRecOn with
  | nil =>
    obtain rfl : start = some request := Option.some.inj inTurn
    rfl
  | append_singleton moments moment inductionHypothesis =>
    rw [exchange_append] at inTurn
    obtain ⟨middle, earlier, stepped⟩ := Option.bind_eq_some_iff.mp inTurn
    rw [exchange_cons] at stepped
    obtain ⟨finish, stepped, same⟩ := Option.bind_eq_some_iff.mp stepped
    obtain rfl : finish = some request := Option.some.inj same
    cases moment with
    | issued other | delivered response =>
      have kept : middle = some request := by cases middle <;> exact Option.some.inj stepped
      subst kept
      simpa only [Moment.sentIn, List.filterMap_append, List.filterMap_cons, List.filterMap_nil,
        List.append_nil] using inductionHypothesis earlier
    | sent other =>
      cases middle with
      | none =>
        obtain rfl : other = request := Option.some.inj (Option.some.inj stepped)
        simp only [Moment.sentIn, List.filterMap_append, List.filterMap_cons, List.filterMap_nil,
          ← List.append_assoc, List.getLast?_append, List.getLast?_singleton, Option.some_or]
      | some unanswered => simp only [Exchange.step, reduceCtorEq] at stepped
    | accepted response =>
      cases middle with
      | none => simp only [Exchange.step, reduceCtorEq] at stepped
      | some unanswered =>
        simp only [Exchange.step, Option.ite_none_right_eq_some, Option.some.injEq, reduceCtorEq,
          and_false] at stepped

/-- In turn, a request only goes out when all that went out before it were answered. -/
theorem exchange_sent (request : Request) (before after : List Moment) (finish : Option Request)
    (inTurn : exchange none (before ++ .sent request :: after) = some finish) :
    (Moment.sentIn before).length = (Moment.acceptedIn before).length := by
  rw [exchange_append] at inTurn
  obtain ⟨middle, earlier, later⟩ := Option.bind_eq_some_iff.mp inTurn
  cases middle with
  | none => simpa using exchange_counts none none before earlier
  | some unanswered =>
    simp only [exchange_cons, Exchange.step, Option.bind_none, reduceCtorEq] at later

/-- The dispatcher's view of the exchange is that of the protocol, and nothing
waits while nothing is in flight. -/
structure InTurn (state : Dispatcher) (moments : List Moment) : Prop where
  agrees : ∃ unanswered, exchange none moments = some unanswered ∧
    state.inFlight = unanswered.map fun request => ⟨request.id, request.kind⟩
  idle : state.inFlight = none → state.next = none

/-- Each step keeps the turns. -/
theorem step_inTurn (before after : Dispatcher) (moments seen : List Moment)
    (holds : InTurn before moments) (step : Step before seen after) :
    InTurn after (moments ++ seen) := by
  obtain ⟨⟨unanswered, inTurn, flight⟩, idle⟩ := holds
  have onward (finish : Option Request) (stepped : exchange unanswered seen = some finish) :
      exchange none (moments ++ seen) = some finish := by
    rw [exchange_append, inTurn, Option.bind_some, stepped]
  cases step with
  | sent request quiet numbered =>
    have settled : unanswered = none := Option.map_eq_none_iff.mp (flight.symm.trans quiet)
    subst settled
    exact ⟨⟨some request, onward _ rfl, rfl⟩, by simp⟩
  | queued request busy numbered =>
    refine ⟨⟨unanswered, onward _ (by cases unanswered <;> rfl), ?_⟩, ?_⟩
    · simpa only [inFlight_put, inFlight_issue] using flight
    · intro quiet
      simp only [inFlight_put, inFlight_issue] at quiet
      exact absurd quiet busy
  | rejected => exact ⟨⟨unanswered, onward _ rfl, flight⟩, idle⟩
  | superseded response request awaited first =>
    cases unanswered with
    | none => simp [awaited] at flight
    | some earlier =>
      have answers : response.id = earlier.id ∧ response.kind = earlier.kind := by
        simpa [awaited] using flight
      exact ⟨⟨some request, onward _ (by simp [exchange_cons, Exchange.step, answers]; rfl), rfl⟩,
        by simp⟩
  | delivered response awaited empty =>
    cases unanswered with
    | none => simp [awaited] at flight
    | some earlier =>
      have answers : response.id = earlier.id ∧ response.kind = earlier.kind := by
        simpa [awaited] using flight
      refine ⟨⟨none, onward _ (by simp [exchange_cons, Exchange.step, answers]; rfl), rfl⟩, ?_⟩
      intro _
      rw [next_none_iff] at empty ⊢
      simpa only [slot_settle] using empty

/-- Every run keeps the turns. -/
theorem run_inTurn (flags : CompileFlags) (calls : List Call) :
    InTurn (run flags calls).state (run flags calls).moments :=
  run_invariant flags InTurn ⟨⟨none, rfl, rfl⟩, fun _ => rfl⟩
    (fun _ seen after => step_inTurn _ after _ seen) calls

/-- At most one request is in flight, over every run: one more request went out
than responses were accepted while the dispatcher is busy, and as many while it is
not; what it holds as in flight is the request that went out last; when nothing is
in flight nothing waits; and whenever a request went out, all that went out before
it had been answered. -/
theorem one_request_in_flight (flags : CompileFlags) (calls : List Call) :
    (Moment.sentIn (run flags calls).moments).length =
        (Moment.acceptedIn (run flags calls).moments).length +
          (if (run flags calls).state.isBusy then 1 else 0) ∧
      (∀ flight, (run flags calls).state.inFlight = some flight →
        ∃ request, (Moment.sentIn (run flags calls).moments).getLast? = some request ∧
          flight = ⟨request.id, request.kind⟩) ∧
      ((run flags calls).state.inFlight = none →
        (run flags calls).state.waitingCompile = none ∧
          (run flags calls).state.waitingTooltip = none) ∧
      ∀ before request after, (run flags calls).moments = before ++ .sent request :: after →
        (Moment.sentIn before).length = (Moment.acceptedIn before).length := by
  obtain ⟨⟨unanswered, inTurn, flight⟩, idle⟩ := run_inTurn flags calls
  have counted := exchange_counts none unanswered _ inTurn
  refine ⟨?_, ?_, ?_, ?_⟩
  · cases unanswered <;> simpa [isBusy, flight] using counted
  · intro awaited busy
    obtain ⟨request, held, rfl⟩ := Option.map_eq_some_iff.mp (flight.symm.trans busy)
    subst held
    exact ⟨request, exchange_last none request _ inTurn, rfl⟩
  · intro quiet
    have empty := (next_none_iff _).mp (idle quiet)
    exact ⟨Option.map_eq_none_iff.mp (empty .compile), Option.map_eq_none_iff.mp (empty .tooltip)⟩
  · intro before request after split
    rw [split] at inTurn
    exact exchange_sent request before after unanswered inTurn

end BuildWatch.Dispatcher
