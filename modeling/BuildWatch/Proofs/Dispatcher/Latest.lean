import BuildWatch.Proofs.Dispatcher.Exchange

/-!
# The latest request of each kind

Of every kind, the requests that went out are some of those issued, in the order
in which they were issued, and the waiting one comes behind them. The request
issued last is the waiting one, or else the one that went out last. So a request
is only ever dropped for a later one of its own kind.

Numbers are words of 64 bits. They tell requests apart, and grow, as long as fewer
than 2^64 requests were issued; what is said of the order of requests does not
depend on it.
-/

namespace BuildWatch.Dispatcher

/-- The request that a call makes under a number, if it makes one. -/
def Call.requests (flags : CompileFlags) (number : RequestId) : Call → List Request
  | .compile inputs => [.compile ⟨number, inputs, flags⟩]
  | .tooltip source row column => [.tooltip ⟨number, source, row, column⟩]
  | .respond _ => []

/-- The requests that calls make when some were made before, numbered in order. -/
def requestsOf (flags : CompileFlags) (count : Nat) : List Call → List Request
  | [] => []
  | call :: rest =>
    let made := call.requests flags (.ofNat (count + 1))
    made ++ requestsOf flags (count + made.length) rest

/-- A call shows exactly the request it makes, under the number after the last one. -/
theorem call_issues (flags : CompileFlags) (state : Dispatcher) (call : Call) :
    Moment.issuedIn (call.shown flags (state.perform call).result) =
      call.requests flags (state.lastId + 1) := by
  cases call with
  | compile inputs =>
    simp only [perform, compile_eq]
    rfl
  | tooltip source row column =>
    simp only [perform, tooltip_eq]
    rfl
  | respond response =>
    simp only [perform]
    cases (state.respond .always response).result <;> rfl

/-- The number grows by one with every request issued. -/
theorem step_lastId (before after : Dispatcher) (seen : List Moment)
    (step : Step before seen after) :
    after.lastId = before.lastId + .ofNat (Moment.issuedIn seen).length := by
  cases step with
  | sent request idle numbered => simpa [Moment.issuedIn] using numbered
  | queued request busy numbered => simpa [Moment.issuedIn] using numbered
  | rejected | delivered => simp [Moment.issuedIn]
  | superseded response request awaited first => simp [Moment.issuedIn]

/-- What was issued on the way from some history on is what the calls make, numbered
from there. No call fails to make its request. -/
theorem issued_onward (flags : CompileFlags) (calls : List Call) (history : History) (count : Nat)
    (configured : history.state.flags = flags) (counted : history.state.lastId = .ofNat count) :
    Moment.issuedIn (calls.foldl (History.step flags) history).moments =
      Moment.issuedIn history.moments ++ requestsOf flags count calls := by
  induction calls generalizing history count with
  | nil => simp only [List.foldl_nil, requestsOf, List.append_nil]
  | cons call rest inductionHypothesis =>
    have step := call_step flags history.state configured call
    have number : history.state.lastId + 1 = .ofNat (count + 1) := by
      rw [counted, UInt64.ofNat_add]
      rfl
    have issued : Moment.issuedIn (history.step flags call).moments =
        Moment.issuedIn history.moments ++ call.requests flags (.ofNat (count + 1)) := by
      simp only [History.step, Moment.issuedIn_append, Moment.issuedIn_events, call_issues, number,
        List.append_nil]
    have onward : (history.step flags call).state.lastId =
        .ofNat (count + (call.requests flags (.ofNat (count + 1))).length) := by
      have advanced := step_lastId _ _ _ step
      rw [Moment.issuedIn_append, Moment.issuedIn_events, call_issues, number, List.append_nil,
        counted, ← UInt64.ofNat_add] at advanced
      exact advanced
    have configuredAfter := (step_flags _ _ _ step).trans configured
    rw [List.foldl_cons, inductionHypothesis _ _ configuredAfter onward, issued, requestsOf,
      List.append_assoc]

/-- The requests issued in a run are those that its calls make, numbered from one. -/
theorem run_issued (flags : CompileFlags) (calls : List Call) :
    Moment.issuedIn (run flags calls).moments = requestsOf flags 0 calls :=
  issued_onward flags calls ⟨{ flags := flags }, []⟩ 0 rfl rfl

/-- The numbers of requests are consecutive. -/
theorem requestsOf_ids (flags : CompileFlags) (count : Nat) (calls : List Call) :
    (requestsOf flags count calls).map Request.id =
      (List.range' (count + 1) (requestsOf flags count calls).length).map UInt64.ofNat := by
  induction calls generalizing count with
  | nil => rfl
  | cons call rest inductionHypothesis =>
    cases call with
    | compile inputs | tooltip source row column =>
      simp only [requestsOf, Call.requests, List.singleton_append, List.map_cons, Request.id,
        List.length_cons, List.length_nil, List.range'_succ, inductionHypothesis]
    | respond response =>
      simpa only [requestsOf, Call.requests, List.nil_append, List.length_nil, Nat.add_zero] using
        inductionHypothesis count

/-- Fewer than 2^64 requests have growing numbers. -/
theorem requestsOf_increasing (flags : CompileFlags) (calls : List Call)
    (few : (requestsOf flags 0 calls).length < UInt64.size) :
    (requestsOf flags 0 calls).Pairwise fun earlier later => earlier.id < later.id := by
  have increasing : ((requestsOf flags 0 calls).map Request.id).Pairwise (· < ·) := by
    rw [requestsOf_ids, List.pairwise_map]
    refine List.Pairwise.imp_of_mem ?_ (List.pairwise_lt_range' 1)
    intro earlier later earlierMember laterMember before
    have earlierBound := (List.mem_range'_1.mp earlierMember).2
    have laterBound := (List.mem_range'_1.mp laterMember).2
    rw [UInt64.lt_iff_toNat_lt, UInt64.toNat_ofNat_of_lt' (by omega),
      UInt64.toNat_ofNat_of_lt' (by omega)]
    exact before
  exact List.pairwise_map.mp increasing

/-- What a step does to one kind: the request that waited, those that are issued and
that go out, and the request that waits after it. -/
inductive SlotStep : Option Request → List Request → List Request → Option Request → Prop where
  | untouched (waiting : Option Request) : SlotStep waiting [] [] waiting
  | passed (request : Request) : SlotStep none [request] [request] none
  | filled (waiting : Option Request) (request : Request) :
      SlotStep waiting [request] [] (some request)
  | emptied (request : Request) : SlotStep (some request) [] [request] none

/-- Each step does one of the four things to a kind. A new request goes out at once
only when nothing waits, which the turns with the worker provide. -/
theorem step_slot (before after : Dispatcher) (moments seen : List Moment)
    (turns : InTurn before moments) (step : Step before seen after) (kind : RequestKind) :
    SlotStep (before.slot kind) (Moment.issuedOf kind seen) (Moment.sentOf kind seen)
      (after.slot kind) := by
  cases step with
  | sent request idle numbered =>
    have empty := (next_none_iff before).mp (turns.idle idle) kind
    rw [slot_await, slot_issue, empty]
    by_cases own : request.kind = kind
    · simpa [Moment.issuedOf, Moment.issuedIn, Moment.sentOf, Moment.sentIn, own] using
        SlotStep.passed request
    · simpa [Moment.issuedOf, Moment.issuedIn, Moment.sentOf, Moment.sentIn, own] using
        SlotStep.untouched none
  | queued request busy numbered =>
    rw [slot_put, slot_issue]
    by_cases own : request.kind = kind
    · simpa [Moment.issuedOf, Moment.issuedIn, Moment.sentOf, Moment.sentIn, own] using
        SlotStep.filled (before.slot kind) request
    · simpa [Moment.issuedOf, Moment.issuedIn, Moment.sentOf, Moment.sentIn, own] using
        SlotStep.untouched (before.slot kind)
  | rejected => exact SlotStep.untouched (before.slot kind)
  | superseded response request awaited first =>
    rw [slot_await, slot_clear]
    by_cases own : request.kind = kind
    · subst own
      rw [slot_of_next before request first]
      simpa [Moment.issuedOf, Moment.issuedIn, Moment.sentOf, Moment.sentIn] using
        SlotStep.emptied request
    · simpa [Moment.issuedOf, Moment.issuedIn, Moment.sentOf, Moment.sentIn, own] using
        SlotStep.untouched (before.slot kind)
  | delivered response awaited empty => exact SlotStep.untouched (before.slot kind)

/-- The books of one kind: the requests that went out, with the waiting one behind
them, are some of those issued and in their order, and the request issued last is the
waiting one, or else the last that went out. -/
structure Books (issued sent : List Request) (waiting : Option Request) : Prop where
  order : (sent ++ waiting.toList).Sublist issued
  latest : issued.getLast? = waiting.or sent.getLast?

namespace Books

variable {issued sent : List Request} {waiting : Option Request}

/-- Whatever a step does to a kind, its books stay right. -/
theorem step (books : Books issued sent waiting) (newIssued newSent : List Request)
    (waits : Option Request) (does : SlotStep waiting newIssued newSent waits) :
    Books (issued ++ newIssued) (sent ++ newSent) waits := by
  obtain ⟨order, latest⟩ := books
  cases does with
  | untouched =>
    rw [List.append_nil, List.append_nil]
    exact ⟨order, latest⟩
  | passed request =>
    rw [Option.toList_none, List.append_nil] at order
    refine ⟨?_, ?_⟩
    · rw [Option.toList_none, List.append_nil]
      exact order.append (List.Sublist.refl [request])
    · simp only [List.getLast?_append, List.getLast?_singleton, Option.some_or, Option.none_or]
  | filled waiting request =>
    have sentOnly : sent.Sublist issued := (List.sublist_append_left _ _).trans order
    refine ⟨?_, ?_⟩
    · rw [List.append_nil, Option.toList_some]
      exact sentOnly.append (List.Sublist.refl [request])
    · simp only [List.getLast?_append, List.getLast?_singleton, Option.some_or]
  | emptied request =>
    rw [Option.some_or] at latest
    refine ⟨?_, ?_⟩
    · rw [Option.toList_none, List.append_nil, List.append_nil]
      exact order
    · rw [List.append_nil, latest, List.getLast?_append, List.getLast?_singleton, Option.some_or,
        Option.none_or]

/-- A request that neither went out nor waits was followed by another one. -/
theorem dropped_superseded (books : Books issued sent waiting) (request : Request)
    (member : request ∈ issued) (unsent : request ∉ sent) (gone : waiting ≠ some request) :
    ∃ before later after, issued = before ++ request :: later :: after := by
  obtain ⟨before, behind, split⟩ := List.mem_iff_append.mp member
  cases behind with
  | cons later after => exact ⟨before, later, after, split⟩
  | nil =>
    have last : issued.getLast? = some request := by
      rw [split, List.getLast?_append, List.getLast?_singleton, Option.some_or]
    rcases Option.or_eq_some_iff.mp (books.latest.symm.trans last) with waits | ⟨-, sent⟩
    · exact absurd waits gone
    · exact absurd (List.mem_of_getLast? sent) unsent

/-- What went out was issued, each time anew and in that order. -/
theorem sent_sublist (books : Books issued sent waiting) : sent.Sublist issued :=
  (List.sublist_append_left _ _).trans books.order

end Books

/-- The books of both kinds are right. -/
def Kept (state : Dispatcher) (moments : List Moment) : Prop :=
  ∀ kind, Books (Moment.issuedOf kind moments) (Moment.sentOf kind moments) (state.slot kind)

/-- Every run keeps its books. -/
theorem run_kept (flags : CompileFlags) (calls : List Call) :
    Kept (run flags calls).state (run flags calls).moments := by
  have start : Kept { flags := flags } [] := by
    intro kind
    cases kind <;> exact ⟨List.Sublist.refl _, rfl⟩
  refine run_invariant flags Kept start ?_ calls
  intro earlier seen after kept step kind
  rw [Moment.issuedOf_append, Moment.sentOf_append]
  exact (kept kind).step _ _ _ (step_slot _ after _ seen (run_inTurn flags earlier) step kind)

/-- No request goes out more often than it was issued. -/
theorem Kept.sent_count {state : Dispatcher} {moments : List Moment}
    (kept : Kept state moments) (request : Request) :
    (Moment.sentIn moments).count request ≤ (Moment.issuedIn moments).count request := by
  have own (requests : List Request) :
      (requests.filter fun other => other.kind = request.kind).count request =
        requests.count request := List.count_filter (decide_eq_true rfl)
  calc
    (Moment.sentIn moments).count request
      = (Moment.sentOf request.kind moments).count request := (own _).symm
    _ ≤ (Moment.issuedOf request.kind moments).count request :=
      (kept request.kind).sent_sublist.count_le request
    _ = (Moment.issuedIn moments).count request := own _

/-- The latest request of each kind is never lost. What is issued in a run is what
its calls ask for, numbered from one. Of each kind, the request issued last waits
or is the one that went out last; what went out, with the waiting request behind
it, is in the order in which it was issued; and a request that neither went out
nor waits was followed by another one of its kind. No request goes out more often
than it was issued. With fewer than 2^64 requests none goes out twice, and of each
kind they go out under growing numbers. -/
theorem latest_request_kept (flags : CompileFlags) (calls : List Call) :
    Moment.issuedIn (run flags calls).moments = requestsOf flags 0 calls ∧
      (∀ kind,
        (Moment.issuedOf kind (run flags calls).moments).getLast? =
            ((run flags calls).state.slot kind).or
              (Moment.sentOf kind (run flags calls).moments).getLast? ∧
          (Moment.sentOf kind (run flags calls).moments ++
              ((run flags calls).state.slot kind).toList).Sublist
            (Moment.issuedOf kind (run flags calls).moments) ∧
          ∀ request ∈ Moment.issuedOf kind (run flags calls).moments,
            request ∉ Moment.sentOf kind (run flags calls).moments →
            (run flags calls).state.slot kind ≠ some request →
            ∃ before later after, Moment.issuedOf kind (run flags calls).moments =
              before ++ request :: later :: after) ∧
      (∀ request, (Moment.sentIn (run flags calls).moments).count request ≤
        (Moment.issuedIn (run flags calls).moments).count request) ∧
      ((Moment.issuedIn (run flags calls).moments).length < UInt64.size →
        (Moment.sentIn (run flags calls).moments).Nodup ∧
          ∀ kind, (Moment.sentOf kind (run flags calls).moments).Pairwise
            fun earlier later => earlier.id < later.id) := by
  have kept := run_kept flags calls
  refine ⟨run_issued flags calls, ?_, kept.sent_count, ?_⟩
  · intro kind
    exact ⟨(kept kind).latest, (kept kind).order, (kept kind).dropped_superseded⟩
  · intro few
    have increasing : (Moment.issuedIn (run flags calls).moments).Pairwise
        fun earlier later => earlier.id < later.id := by
      rw [run_issued] at few ⊢
      exact requestsOf_increasing flags calls few
    have distinct : (Moment.issuedIn (run flags calls).moments).Nodup := by
      refine increasing.imp ?_
      rintro earlier later before rfl
      exact UInt64.lt_irrefl _ before
    constructor
    · rw [List.nodup_iff_count]
      intro request
      exact Nat.le_trans (kept.sent_count request) (List.nodup_iff_count.mp distinct request)
    · intro kind
      exact (increasing.filter _).sublist (kept kind).sent_sublist

end BuildWatch.Dispatcher
