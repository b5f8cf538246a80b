import BuildWatch.Proofs.Dispatcher.Latest

/-!
# Which answers are delivered

Whether an answer is delivered is stated on the history: of each kind, has the
request issued last gone out since it was issued? The dispatcher only looks at its
two slots, and the slots hold exactly the requests of which that is not so. An
answer that arrives when all is out is delivered, and is the answer to the latest
request of its kind. Any other answer makes room for the request that has not gone
out, a compile request first.
-/

namespace BuildWatch.Dispatcher

/-- What a moment does to the latest request of a kind that has not gone out. -/
def Unsent.step (kind : RequestKind) (unsent : Option Request) : Moment → Option Request
  | .issued request => if request.kind = kind then some request else unsent
  | .sent request => if unsent = some request then none else unsent
  | _ => unsent

/-- The request of a kind that was issued last, unless it has gone out since. -/
def latestUnsent (kind : RequestKind) (moments : List Moment) : Option Request :=
  moments.foldl (Unsent.step kind) none

/-- All that was asked for last had gone out when an answer came, and it answers the
request of its kind that was issued last. -/
def Fresh (before : List Moment) (response : Response) : Prop :=
  (∀ kind, latestUnsent kind before = none) ∧
    ∃ request, (Moment.issuedOf response.kind before).getLast? = some request ∧
      request.id = response.id

/-- The number in flight, when it belongs to a request of a kind. -/
def flightOf (state : Dispatcher) (kind : RequestKind) : Option RequestId :=
  state.inFlight.bind fun flight => if flight.kind = kind then some flight.id else none

/-- A step brings the latest unsent request from one slot content to the next. -/
theorem step_unsent (before after : Dispatcher) (moments seen : List Moment)
    (turns : InTurn before moments) (step : Step before seen after) (kind : RequestKind) :
    seen.foldl (Unsent.step kind) (before.slot kind) = after.slot kind := by
  cases step with
  | sent request idle numbered =>
    have empty := (next_none_iff before).mp (turns.idle idle) kind
    rw [slot_await, slot_issue, empty]
    by_cases own : request.kind = kind <;> simp [Unsent.step, own]
  | queued request busy numbered =>
    rw [slot_put, slot_issue]
    rfl
  | rejected => rfl
  | superseded response request awaited first =>
    rw [slot_await, slot_clear]
    by_cases own : request.kind = kind
    · subst own
      simp [Unsent.step, slot_of_next before request first]
    · have other : before.slot kind ≠ some request := by
        intro waits
        exact own (kind_of_slot before request kind waits)
      simp [Unsent.step, own, other]
  | delivered response awaited empty => rfl

/-- The number of the question asked last is that of the last tooltip request issued. -/
theorem step_latestTooltip (before after : Dispatcher) (moments seen : List Moment)
    (agrees : before.latestTooltip = (Moment.issuedOf .tooltip moments).getLast?.map Request.id)
    (step : Step before seen after) :
    after.latestTooltip = (Moment.issuedOf .tooltip (moments ++ seen)).getLast?.map Request.id := by
  rw [Moment.issuedOf_append, List.getLast?_append]
  cases step with
  | sent request idle numbered =>
    by_cases own : request.kind = .tooltip <;> simp [Moment.issuedOf, Moment.issuedIn, own, agrees]
  | queued request busy numbered =>
    by_cases own : request.kind = .tooltip <;> simp [Moment.issuedOf, Moment.issuedIn, own, agrees]
  | rejected | delivered => simpa [Moment.issuedOf, Moment.issuedIn] using agrees
  | superseded response request awaited first =>
    simpa [Moment.issuedOf, Moment.issuedIn] using agrees

/-- When a request goes out behind some that went out before, its number goes behind
theirs, if it is of the kind looked at. -/
theorem sublist_await (state : Dispatcher) (request : Request) (kind : RequestKind)
    (numbers : List RequestId) (sent : List Request)
    (order : numbers.Sublist (sent.map Request.id)) :
    (numbers ++ ((state.await request).flightOf kind).toList).Sublist
      ((sent ++ Moment.sentOf kind [.sent request]).map Request.id) := by
  rw [flightOf, inFlight_await, Option.bind_some, List.map_append]
  by_cases own : request.kind = kind <;> simpa [own, Moment.sentOf, Moment.sentIn] using order

/-- Of each kind, the answers delivered, with the request in flight behind them, are
to some of the requests that went out and in their order. -/
theorem step_delivered (before after : Dispatcher) (moments seen : List Moment)
    (kind : RequestKind)
    (order : ((Moment.deliveredOf kind moments).map Response.id ++ (before.flightOf kind).toList).Sublist
      ((Moment.sentOf kind moments).map Request.id))
    (step : Step before seen after) :
    ((Moment.deliveredOf kind (moments ++ seen)).map Response.id ++
        (after.flightOf kind).toList).Sublist
      ((Moment.sentOf kind (moments ++ seen)).map Request.id) := by
  have answered := (List.sublist_append_left _ _).trans order
  rw [Moment.deliveredOf_append, Moment.sentOf_append]
  cases step with
  | sent request idle numbered =>
    rw [show Moment.deliveredOf kind [.issued request, .sent request] = [] from rfl, List.append_nil]
    exact sublist_await _ request kind _ _ answered
  | queued request busy numbered =>
    have same : ((before.issue request).put request).flightOf kind = before.flightOf kind := by
      simp only [flightOf, inFlight_put, inFlight_issue]
    rw [same]
    simpa [Moment.deliveredOf, Moment.deliveredIn, Moment.sentOf, Moment.sentIn] using order
  | rejected => simpa [Moment.deliveredOf, Moment.deliveredIn, Moment.sentOf, Moment.sentIn] using order
  | superseded response request awaited first =>
    rw [show Moment.deliveredOf kind [.accepted response, .sent request] = [] from rfl,
      List.append_nil]
    exact sublist_await _ request kind _ _ answered
  | delivered response awaited empty =>
    have quiet : before.settle.flightOf kind = none := rfl
    rw [quiet]
    rw [flightOf, awaited, Option.bind_some] at order
    by_cases own : response.kind = kind
    · simpa [own, Moment.deliveredOf, Moment.deliveredIn, Moment.sentOf, Moment.sentIn] using order
    · simpa [own, Moment.deliveredOf, Moment.deliveredIn, Moment.sentOf, Moment.sentIn] using answered

/-- The request in flight is the last of its kind that went out. -/
theorem InTurn.last_sent {state : Dispatcher} {moments : List Moment} (turns : InTurn state moments)
    (flight : InFlight) (busy : state.inFlight = some flight) :
    ∃ request, (Moment.sentOf flight.kind moments).getLast? = some request ∧
      request.id = flight.id := by
  obtain ⟨unanswered, inTurn, agrees⟩ := turns.agrees
  obtain ⟨request, held, rfl⟩ := Option.map_eq_some_iff.mp (agrees.symm.trans busy)
  subst held
  obtain ⟨earlier, split⟩ := List.getLast?_eq_some_iff.mp (exchange_last none request moments inTurn)
  refine ⟨request, ?_, rfl⟩
  rw [Option.toList_none, List.nil_append] at split
  simp [Moment.sentOf, split]

/-- In a run, the slots hold exactly the latest requests that have not gone out. -/
theorem run_unsent (flags : CompileFlags) (calls : List Call) (kind : RequestKind) :
    latestUnsent kind (run flags calls).moments = (run flags calls).state.slot kind := by
  refine run_invariant flags (fun state moments => latestUnsent kind moments = state.slot kind)
    (by cases kind <;> rfl) ?_ calls
  intro earlier seen after same step
  rw [latestUnsent, List.foldl_append, ← latestUnsent, same]
  exact step_unsent _ after _ seen (run_inTurn flags earlier) step kind

/-- In a run, all that was asked for last has gone out exactly when nothing waits. -/
theorem run_unsent_none_iff (flags : CompileFlags) (calls : List Call) :
    (∀ kind, latestUnsent kind (run flags calls).moments = none) ↔
      (run flags calls).state.next = none := by
  simp only [run_unsent, next_none_iff]

/-- In a run, the number of the question asked last is that of the last tooltip request. -/
theorem run_latestTooltip (flags : CompileFlags) (calls : List Call) :
    (run flags calls).state.latestTooltip =
      (Moment.issuedOf .tooltip (run flags calls).moments).getLast?.map Request.id :=
  run_invariant flags
    (fun state moments => state.latestTooltip =
      (Moment.issuedOf .tooltip moments).getLast?.map Request.id)
    rfl (fun _ seen after => step_latestTooltip _ after _ seen) calls

/-- In a run, the answers delivered of each kind, with the request in flight behind
them, are to some of the requests that went out and in their order. -/
theorem run_delivered (flags : CompileFlags) (calls : List Call) (kind : RequestKind) :
    ((Moment.deliveredOf kind (run flags calls).moments).map Response.id ++
        ((run flags calls).state.flightOf kind).toList).Sublist
      ((Moment.sentOf kind (run flags calls).moments).map Request.id) :=
  run_invariant flags
    (fun state moments => ((Moment.deliveredOf kind moments).map Response.id ++
      (state.flightOf kind).toList).Sublist ((Moment.sentOf kind moments).map Request.id))
    (List.Sublist.refl _) (fun _ seen after => step_delivered _ after _ seen kind) calls

/-- When nothing waits, what is in flight is the latest request of its kind. -/
theorem run_latest_in_flight (flags : CompileFlags) (calls : List Call) (flight : InFlight)
    (busy : (run flags calls).state.inFlight = some flight)
    (empty : (run flags calls).state.next = none) :
    ∃ request, (Moment.issuedOf flight.kind (run flags calls).moments).getLast? = some request ∧
      request.id = flight.id := by
  obtain ⟨request, last, number⟩ := (run_inTurn flags calls).last_sent flight busy
  refine ⟨request, ?_, number⟩
  rw [(run_kept flags calls flight.kind).latest, (next_none_iff _).mp empty, Option.none_or, last]

/-- In a step, an answer is delivered right after it was accepted, and only when both
slots are empty. -/
theorem step_delivers (before after : Dispatcher) (seen middle rest : List Moment)
    (response : Response) (step : Step before seen after)
    (split : seen = middle ++ .delivered response :: rest) :
    middle = [.accepted response] ∧ before.inFlight = some ⟨response.id, response.kind⟩ ∧
      before.next = none := by
  have delivers : Moment.delivered response ∈ seen := by simp [split]
  cases step with
  | sent | queued | rejected | superseded => simp at delivers
  | delivered other awaited empty =>
    obtain rfl : response = other := by simpa using delivers
    refine ⟨?_, awaited, empty⟩
    cases middle with
    | nil => simp at split
    | cons first middle =>
      obtain ⟨rfl, split⟩ := List.cons.inj split
      cases middle with
      | nil => rfl
      | cons second middle => simp at split

/-- In a run, every delivered answer was fresh. -/
theorem run_fresh (flags : CompileFlags) (calls : List Call) :
    ∀ before response after, (run flags calls).moments = before ++ .delivered response :: after →
      Fresh before response := by
  refine run_invariant flags
    (fun _ moments => ∀ before response after, moments = before ++ .delivered response :: after →
      Fresh before response) (by simp) ?_ calls
  intro earlier seen state holds step before response after split
  rcases split_append _ seen before after _ split with ⟨rest, within⟩ | ⟨middle, rfl, new⟩
  · exact holds before response rest within
  · obtain ⟨rfl, awaited, empty⟩ := step_delivers _ state seen middle after response step new
    obtain ⟨request, last, number⟩ := run_latest_in_flight flags earlier _ awaited empty
    have unsent := (run_unsent_none_iff flags earlier).mpr empty
    refine ⟨?_, request, ?_, number⟩
    · intro kind
      rw [latestUnsent, List.foldl_append]
      exact unsent kind
    · rw [Moment.issuedOf_append]
      exact (List.append_nil _).symm ▸ last

/-- Exactly the answers that are still wanted are delivered. Take any answer to the
request in flight. If of each kind the request issued last has gone out since, the
answer alone is delivered, unchanged; nothing is in flight any more; and it answers
the latest request of its kind, for a tooltip the question asked last. Otherwise
nothing is delivered, and one request goes out in place of the answer: the latest
compile request if it has not gone out, else the latest tooltip request.

So over a run no answer is delivered that a newer request of its kind has superseded,
and the answers delivered of each kind are to different requests, in the order in
which these were issued. -/
theorem wanted_answers_delivered (flags : CompileFlags) (calls : List Call) :
    (∀ response,
      (run flags calls).state.inFlight = some ⟨response.id, response.kind⟩ →
        ((∀ kind, latestUnsent kind (run flags calls).moments = none) →
          (respond .always (run flags calls).state response).events = [.delivered response] ∧
            (respond .always (run flags calls).state response).result =
              .ok (.delivered response.kind) ∧
            (respond .always (run flags calls).state response).after.inFlight = none ∧
            (∃ request,
              (Moment.issuedOf response.kind (run flags calls).moments).getLast? = some request ∧
                request.id = response.id) ∧
            (response.kind = .tooltip →
              (run flags calls).state.latestTooltip = some response.id)) ∧
        ((¬ ∀ kind, latestUnsent kind (run flags calls).moments = none) →
          ∃ request,
            (latestUnsent .compile (run flags calls).moments).or
                (latestUnsent .tooltip (run flags calls).moments) = some request ∧
              deliveredIn (respond .always (run flags calls).state response).events = [] ∧
              sentIn (respond .always (run flags calls).state response).events = [request] ∧
              (respond .always (run flags calls).state response).result =
                .ok (.superseded response.id request.id))) ∧
      (∀ before response after,
        (run flags calls).moments = before ++ .delivered response :: after →
          Fresh before response) ∧
      ∀ kind, ((Moment.deliveredOf kind (run flags calls).moments).map Response.id).Sublist
        ((Moment.issuedOf kind (run flags calls).moments).map Request.id) := by
  refine ⟨?_, run_fresh flags calls, ?_⟩
  · intro response awaited
    constructor
    · intro allSent
      have empty := (run_unsent_none_iff flags calls).mp allSent
      have latest := run_latest_in_flight flags calls _ awaited empty
      rw [respond_delivered _ response awaited empty]
      refine ⟨rfl, rfl, rfl, latest, ?_⟩
      intro question
      obtain ⟨request, last, number⟩ := latest
      rw [run_latestTooltip, ← question, last, Option.map_some, number]
    · intro someUnsent
      obtain ⟨request, first⟩ : ∃ request, (run flags calls).state.next = some request :=
        Option.ne_none_iff_exists'.mp fun empty =>
          someUnsent ((run_unsent_none_iff flags calls).mpr empty)
      rw [respond_superseded _ response request awaited first]
      refine ⟨request, ?_, rfl, rfl, rfl⟩
      rw [run_unsent, run_unsent]
      exact first
  · intro kind
    have sent := (List.sublist_append_left _ _).trans (run_delivered flags calls kind)
    exact sent.trans ((run_kept flags calls kind).sent_sublist.map Request.id)

/-- A question waits behind a compile request that overtook it. The compile result is
dropped for the question, although no newer compile request was made. -/
theorem overtaken_question_supersedes :
    let calls : List Call := [.tooltip "a" 0 0, .tooltip "a" 3 4, .compile [⟨"a"⟩],
      .respond (.tooltip ⟨1, none, none⟩)]
    (respond .always (run ⟨"js", true⟩ calls).state (.compile ⟨3, {}⟩)).result =
      .ok (.superseded 3 2) := by
  intro calls
  obtain ⟨request, unsent, -, -, result⟩ :=
    ((wanted_answers_delivered ⟨"js", true⟩ calls).1 (.compile ⟨3, {}⟩) rfl).2
      (fun allSent => absurd (allSent .tooltip) (by decide))
  obtain rfl : request = .tooltip ⟨2, "a", 3, 4⟩ := (Option.some.inj unsent).symm
  exact result

end BuildWatch.Dispatcher
