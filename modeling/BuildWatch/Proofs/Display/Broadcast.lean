import BuildWatch.Proofs.Dispatcher.Delivery
import BuildWatch.Proofs.Worker.Circuit

/-!
# What the display hears of the dispatcher

The dispatcher and the display each remember the question asked last. Nothing ties the
two together but one row of messages, which the display takes whenever it likes: the
station announces a question when it takes the order, long before the question goes
out, and passes on an answer when it is delivered.

The row of messages is what the dispatcher's history shows of questions issued and
answers delivered, in the same order. So what is known of delivered answers, that each
is to the question issued last, is also true of the messages, wherever the display
stands in them. The worker may write any lines; the first fault ends the messages, and
the display may still take those that are there.
-/

namespace BuildWatch

namespace Display

/-- What the display is told of a moment: a question was asked, an answer was delivered. -/
def Message.ofMoment? : Dispatcher.Moment → Option Message
  | .issued (.tooltip request) => some (.asked request.id)
  | .delivered response => some (Link.messageOf response)
  | _ => none

/-- What the display is told of a list of moments. -/
def toldOf (moments : List Dispatcher.Moment) : List Message :=
  moments.filterMap Message.ofMoment?

/-- The numbers of the questions that a list of messages announces. -/
def askedIn (messages : List Message) : List RequestId :=
  messages.filterMap fun
    | .asked id => some id
    | _ => none

/-- The answers to questions in a list of messages. -/
def tooltipsIn (messages : List Message) : List TooltipResult :=
  messages.filterMap fun
    | .tooltip result => some result
    | _ => none

/-- The texts that are shown about places. -/
def hoversIn (notes : List Terminal.Note) : List String :=
  notes.filterMap fun
    | .log "hover" text => some text
    | _ => none

/-- A compile result is shown as a detail and a status block, and not as a text about a place. -/
theorem hoversIn_compiled (root : Path) (number : String) (log : CompileLog) :
    hoversIn [.detail "ui" number, statusOf root log] = [] := by
  unfold statusOf
  split_ifs <;> rfl

theorem toldOf_append (moments more : List Dispatcher.Moment) :
    toldOf (moments ++ more) = toldOf moments ++ toldOf more := List.filterMap_append

theorem askedIn_append (messages more : List Message) :
    askedIn (messages ++ more) = askedIn messages ++ askedIn more := List.filterMap_append

theorem tooltipsIn_append (messages more : List Message) :
    tooltipsIn (messages ++ more) = tooltipsIn messages ++ tooltipsIn more := List.filterMap_append

theorem hoversIn_append (notes more : List Terminal.Note) :
    hoversIn (notes ++ more) = hoversIn notes ++ hoversIn more := List.filterMap_append

/-- The question announced last stands in front of messages that announce none. -/
theorem askedIn_last (messages : List Message) (id : RequestId)
    (last : (askedIn messages).getLast? = some id) :
    ∃ earlier later, messages = earlier ++ .asked id :: later ∧ ∀ other, .asked other ∉ later := by
  obtain ⟨others, split⟩ := List.getLast?_eq_some_iff.mp last
  obtain ⟨before, behind, rfl, -, ends⟩ := List.filterMap_eq_append_iff.mp split
  obtain ⟨hidden, message, later, rfl, -, announces, silent⟩ := List.filterMap_eq_cons_iff.mp ends
  obtain rfl : message = .asked id := by
    cases message <;> simp at announces
    exact congrArg Message.asked announces
  refine ⟨before ++ hidden, later, by simp, ?_⟩
  intro other announced
  simpa using List.filterMap_eq_nil_iff.mp silent _ announced

/-- Of the events of a call the display is told the answers delivered, and nothing else. -/
theorem toldOf_events (events : List Dispatcher.Event) :
    toldOf (events.filterMap Dispatcher.Moment.ofEvent?) =
      (Dispatcher.deliveredIn events).map Link.messageOf := by
  induction events with
  | nil => rfl
  | cons event rest inductionHypothesis =>
    cases event with
    | sent request | told note => exact inductionHypothesis
    | delivered response => exact congrArg (Link.messageOf response :: ·) inductionHypothesis

/-- The questions announced are the tooltip requests issued. -/
theorem askedIn_toldOf (moments : List Dispatcher.Moment) :
    askedIn (toldOf moments) =
      (Dispatcher.Moment.issuedOf .tooltip moments).map Request.id := by
  induction moments with
  | nil => rfl
  | cons moment rest inductionHypothesis =>
    cases moment with
    | sent request | accepted response => exact inductionHypothesis
    | delivered response => cases response <;> exact inductionHypothesis
    | issued request =>
      cases request with
      | compile request => exact inductionHypothesis
      | tooltip request => exact congrArg (request.id :: ·) inductionHypothesis

/-- In a run, the question announced last before an answer is the answered one. -/
theorem run_answers_last (flags : CompileFlags) (calls : List Dispatcher.Call)
    (before after : List Message) (result : TooltipResult)
    (split : toldOf (Dispatcher.run flags calls).moments = before ++ .tooltip result :: after) :
    (askedIn before).getLast? = some result.id := by
  obtain ⟨earlier, later, moments, rfl, shown⟩ := List.filterMap_eq_append_iff.mp split
  obtain ⟨hidden, moment, rest, rfl, silent, tells, -⟩ := List.filterMap_eq_cons_iff.mp shown
  obtain rfl : moment = .delivered (.tooltip result) := by
    cases moment with
    | sent request | accepted response => simp [Message.ofMoment?] at tells
    | issued request => cases request <;> simp [Message.ofMoment?] at tells
    | delivered response =>
      cases response with
      | compile other => simp [Message.ofMoment?, Link.messageOf] at tells
      | tooltip other =>
        obtain rfl : other = result := by simpa [Message.ofMoment?, Link.messageOf] using tells
        rfl
  have told : toldOf (earlier ++ hidden) = toldOf earlier := by
    rw [toldOf_append, toldOf, toldOf, List.filterMap_eq_nil_iff.mpr silent, List.append_nil]
  obtain ⟨-, request, last, number⟩ := Dispatcher.run_fresh flags calls (earlier ++ hidden)
    (.tooltip result) rest (by rw [moments, List.append_assoc])
  change (askedIn (toldOf earlier)).getLast? = _
  rw [← told, askedIn_toldOf, List.getLast?_map]
  exact (congrArg (Option.map Request.id) last).trans (congrArg some number)

end Display

namespace Dispatcher

/-- Submitting a request delivers nothing. -/
theorem submit_delivers_nothing (state : Dispatcher) (request : Request) :
    deliveredIn (submit .always state request).events = [] := by
  by_cases free : state.inFlight.isNone = true
  · rw [submit, if_pos free]
    rfl
  · rw [submit, if_neg free]
    cases request <;> rfl

/-- What a call shows. -/
def shownBy (state : Dispatcher) (call : Call) : List Moment :=
  call.shown state.flags (state.perform call).result ++
    (state.perform call).events.filterMap Moment.ofEvent?

end Dispatcher

namespace Link

/-- Of an order the display is told what its call shows: the number of a question. -/
theorem order_tells (disk : Files.Disk) (link : Link) (order : Order) :
    (link.order disk order).messages =
      Display.toldOf (link.dispatcher.shownBy (Dispatcher.callOf order)) := by
  rw [Dispatcher.shownBy, Display.toldOf_append, Display.toldOf_events]
  cases order with
  | compile files =>
    simp only [Link.order, Dispatcher.callOf, Dispatcher.perform, Dispatcher.compile_eq, carry,
      Dispatcher.submit_delivers_nothing, Except.map]
    rfl
  | tooltip source line column =>
    simp only [Link.order, Dispatcher.callOf, Dispatcher.perform, Dispatcher.tooltip_eq, carry,
      Dispatcher.submit_delivers_nothing, Except.map]
    rfl

/-- The dispatcher after an order is where its call leads to. -/
theorem order_state (disk : Files.Disk) (link : Link) (order : Order) :
    (link.order disk order).after.dispatcher =
      (link.dispatcher.perform (Dispatcher.callOf order)).after :=
  congrArg Link.dispatcher (order_taken disk link order).2

/-- Of a line that is a response the display is told what the call with it shows, and
the dispatcher is where this call leads to. -/
theorem line_read (disk : Files.Disk) (link : Link) (text : String) (response : Response)
    (understood : Response.read text = .ok response) :
    (link.line disk text).messages = Display.toldOf (link.dispatcher.shownBy (.respond response)) ∧
      (link.line disk text).after.dispatcher = (link.dispatcher.perform (.respond response)).after := by
  have spoken : Text.isAllBlank text = false := by
    rw [Bool.eq_false_iff]
    intro blank
    simp [Response.read, Json.read?_blank text blank] at understood
  have accepted (result : Except WorkerFault Dispatcher.Reply) :
      Display.toldOf (Dispatcher.Call.shown link.dispatcher.flags (.respond response) result) = [] := by
    rcases result with fault | reply
    · rfl
    · cases reply <;> rfl
  refine ⟨?_, ?_⟩
  · rw [Dispatcher.shownBy, Display.toldOf_append, accepted, Display.toldOf_events]
    simp [Link.line, spoken, Dispatcher.respondLine, understood, carry, Dispatcher.perform]
  · simp [Link.line, spoken, Dispatcher.respondLine, understood, carry, Dispatcher.perform]

/-- Of a line that is no response the display is told nothing, and the dispatcher stays. -/
theorem line_unread (disk : Files.Disk) (link : Link) (text : String) (fault : WorkerFault)
    (failed : Response.read text = .error fault) :
    (link.line disk text).messages = [] ∧
      (link.line disk text).after.dispatcher = link.dispatcher := by
  by_cases blank : Text.isAllBlank text = true
  · simp [Link.line, blank]
  · simp [Link.line, blank, Dispatcher.respondLine, failed, carry, Dispatcher.deliveredIn]

end Link

namespace Station

/-- Going on after a step of the link, with a fault or without, the station has its
dispatcher and posts its messages behind those that are there. -/
theorem follow_posts (station : Station) (turn : Link.Turn) :
    (station.follow turn).after.link.dispatcher = turn.after.dispatcher ∧
      (station.follow turn).after.messages = station.messages ++ turn.messages := by
  cases result : turn.result with
  | ok done => simp [follow, result, Link.emptied]
  | error fault => simp [follow, result]

end Station

/-- A station with the display that takes its messages. What passed the station, the
messages that the display has taken and what it showed are recorded, oldest first. -/
structure Broadcast where
  station : Station
  display : Display := {}
  passed : List Passage := []
  taken : List Display.Message := []
  shown : List Terminal.Note := []

namespace Broadcast

/-- All messages that the station has posted. -/
def posted (broadcast : Broadcast) : List Display.Message :=
  broadcast.taken ++ broadcast.station.messages

/-- One step of a station or its display. Anyone may leave orders, the worker may write
any line, fail or be gone, and the display takes the oldest message when it likes. -/
inductive Step (root : Path) : Broadcast → Broadcast → Prop where
  | leave (broadcast : Broadcast) (order : Order) :
      Step root broadcast { broadcast with station := broadcast.station.accept order }
  | relay (broadcast : Broadcast) (disk : Files.Disk) (order : Order) (rest : List Order)
      (running : broadcast.station.phase = .running)
      (left : broadcast.station.orders = order :: rest) :
      Step root broadcast
        { broadcast with
          station := (broadcast.station.relay disk).after
          passed := broadcast.passed ++ [.took order] }
  | hear (broadcast : Broadcast) (disk : Files.Disk) (text : String)
      (running : broadcast.station.phase = .running) :
      Step root broadcast
        { broadcast with
          station := (broadcast.station.hear disk text).after
          passed := broadcast.passed ++ [.heard text] }
  | fail (broadcast : Broadcast) (fault : WorkerFault) :
      Step root broadcast { broadcast with station := (broadcast.station.fail fault).after }
  | close (broadcast : Broadcast) :
      Step root broadcast { broadcast with station := broadcast.station.close.after }
  | stop (broadcast : Broadcast) :
      Step root broadcast { broadcast with station := broadcast.station.stop }
  | present (broadcast : Broadcast) (message : Display.Message) (rest : List Display.Message)
      (oldest : broadcast.station.messages = message :: rest) :
      Step root broadcast
        { broadcast with
          station := { broadcast.station with messages := rest }
          display := (broadcast.display.take root message).value
          taken := broadcast.taken ++ [message]
          shown := broadcast.shown ++ (broadcast.display.take root message).notes }

/-- What a new station and a new display may come to. -/
inductive Reaches (flags : CompileFlags) (root : Path) : Broadcast → Prop where
  | start : Reaches flags root { station := Station.idle flags }
  | step (before after : Broadcast) (reaches : Reaches flags root before)
      (step : Step root before after) : Reaches flags root after

/-- What holds of a station and its display after any number of steps. -/
structure Sound (flags : CompileFlags) (root : Path) (broadcast : Broadcast) : Prop where
  follows : broadcast.station.link.dispatcher =
    (Dispatcher.run flags (Passage.callsIn broadcast.passed)).state
  told : broadcast.posted =
    Display.toldOf (Dispatcher.run flags (Passage.callsIn broadcast.passed)).moments
  latest : broadcast.display.latest = (Display.askedIn broadcast.taken).getLast?
  hovers : Display.hoversIn broadcast.shown =
    (Display.tooltipsIn broadcast.taken).map (TooltipResult.shown root)

/-- Whatever passes a station that has told all its dispatcher shows, it goes on to do
so: with a call when the passage makes one, and else with nothing. -/
theorem Sound.passes (flags : CompileFlags) (root : Path) (broadcast : Broadcast)
    (sound : Sound flags root broadcast) (passage : Passage) (station : Station)
    (state : station.link.dispatcher =
      passage.call?.elim broadcast.station.link.dispatcher fun call =>
        (broadcast.station.link.dispatcher.perform call).after)
    (messages : station.messages = broadcast.station.messages ++
      passage.call?.elim [] fun call =>
        Display.toldOf (broadcast.station.link.dispatcher.shownBy call)) :
    Sound flags root
      { broadcast with station := station, passed := broadcast.passed ++ [passage] } := by
  obtain ⟨follows, told, latest, hovers⟩ := sound
  rw [posted] at told
  cases makes : passage.call? with
  | none =>
    have calls : Passage.callsIn (broadcast.passed ++ [passage]) = Passage.callsIn broadcast.passed := by
      simp [Passage.callsIn, makes]
    simp only [makes, Option.elim_none, List.append_nil] at state messages
    refine ⟨?_, ?_, latest, hovers⟩
    · rw [state, calls, follows]
    · rw [posted, messages, calls, told]
  | some call =>
    have calls : Passage.callsIn (broadcast.passed ++ [passage]) =
        Passage.callsIn broadcast.passed ++ [call] := by
      simp [Passage.callsIn, makes]
    simp only [makes, Option.elim_some] at state messages
    have shown : (Dispatcher.run flags (Passage.callsIn broadcast.passed ++ [call])).moments =
        (Dispatcher.run flags (Passage.callsIn broadcast.passed)).moments ++
          broadcast.station.link.dispatcher.shownBy call := by
      rw [Dispatcher.run_snoc, Dispatcher.shownBy, follows, Dispatcher.run_flags]
      simp only [Dispatcher.History.step, List.append_assoc]
    refine ⟨?_, ?_, latest, hovers⟩
    · rw [state, calls, Dispatcher.run_snoc, follows]
      rfl
    · rw [posted, messages, calls, shown, Display.toldOf_append, ← told, List.append_assoc]

/-- The answer that is taken next is to the question announced last, so the display
takes it for a current one. -/
theorem Sound.accepts (flags : CompileFlags) (root : Path) (broadcast : Broadcast)
    (sound : Sound flags root broadcast) (result : TooltipResult) (rest : List Display.Message)
    (oldest : broadcast.station.messages = .tooltip result :: rest) :
    (Display.askedIn broadcast.taken).getLast? = some result.id ∧
      broadcast.display.accepts result.id = true := by
  have told := sound.told
  rw [posted, oldest] at told
  have asked := Display.run_answers_last flags _ _ _ result told.symm
  exact ⟨asked, by rw [Display.accepts, sound.latest, asked, beq_self_eq_true]⟩

/-- Every step keeps a station and its display sound. -/
theorem step_sound (flags : CompileFlags) (root : Path) (before after : Broadcast)
    (sound : Sound flags root before) (step : Step root before after) :
    Sound flags root after := by
  have still (station : Station) (link : station.link = before.station.link)
      (messages : station.messages = before.station.messages) :
      Sound flags root { before with station := station } :=
    ⟨by rw [link]; exact sound.follows, by rw [posted, messages]; exact sound.told,
      sound.latest, sound.hovers⟩
  cases step with
  | leave order => exact still _ rfl rfl
  | fail fault =>
    refine still _ ?_ ?_ <;> cases phase : before.station.phase <;> simp [Station.fail, phase]
  | close =>
    refine still _ ?_ ?_ <;> cases phase : before.station.phase <;> simp [Station.close, phase]
  | stop =>
    refine still _ ?_ ?_ <;> cases phase : before.station.phase <;> simp [Station.stop, phase]
  | relay disk order rest running left =>
    obtain ⟨state, messages⟩ := Station.follow_posts { before.station with orders := rest }
      (before.station.link.order disk order)
    have relayed : (before.station.relay disk).after =
        (Station.follow { before.station with orders := rest }
          (before.station.link.order disk order)).after := by
      simp only [Station.relay, running, left]
    refine sound.passes flags root before (.took order) _ ?_ ?_
    · rw [relayed, state, Link.order_state]
      rfl
    · rw [relayed, messages, Link.order_tells]
      rfl
  | hear disk text running =>
    obtain ⟨state, messages⟩ := Station.follow_posts before.station
      (before.station.link.line disk text)
    have heard : (before.station.hear disk text).after =
        (before.station.follow (before.station.link.line disk text)).after := by
      simp only [Station.hear, running]
    cases understood : Response.read text with
    | error fault =>
      obtain ⟨silent, same⟩ := Link.line_unread disk before.station.link text fault understood
      refine sound.passes flags root before (.heard text) _ ?_ ?_
      · simpa [Passage.call?, understood, Except.toOption, heard] using state.trans same
      · simp [Passage.call?, understood, Except.toOption, heard, messages, silent]
    | ok response =>
      obtain ⟨tells, onward⟩ := Link.line_read disk before.station.link text response understood
      refine sound.passes flags root before (.heard text) _ ?_ ?_
      · simpa [Passage.call?, understood, Except.toOption, heard] using state.trans onward
      · simp [Passage.call?, understood, Except.toOption, heard, messages, tells]
  | present message rest oldest =>
    obtain ⟨follows, told, latest, hovers⟩ := id sound
    have posts : (before.taken ++ [message]) ++ rest = before.posted := by
      rw [posted, oldest, List.append_assoc, List.singleton_append]
    refine ⟨follows, posts.trans told, ?_, ?_⟩
    · rw [Display.askedIn_append]
      cases message with
      | compiled result => simpa [Display.take, Display.askedIn] using latest
      | asked id => simp [Display.take, Display.askedIn, Noted.quiet]
      | tooltip result =>
        have current := (sound.accepts flags root before result rest oldest).2
        simpa [Display.take, Display.askedIn, current] using latest
    · rw [Display.hoversIn_append, Display.tooltipsIn_append, List.map_append, hovers]
      cases message with
      | compiled result => simp [Display.take, Display.tooltipsIn, Display.hoversIn_compiled]
      | asked id => simp [Display.take, Display.tooltipsIn, Display.hoversIn, Noted.quiet]
      | tooltip result =>
        have current := (sound.accepts flags root before result rest oldest).2
        simp [Display.take, Display.tooltipsIn, Display.hoversIn, current]

/-- Every station and display that new ones come to are sound. -/
theorem reaches_sound (flags : CompileFlags) (root : Path) (broadcast : Broadcast)
    (reaches : Reaches flags root broadcast) : Sound flags root broadcast := by
  induction reaches with
  | start => exact ⟨rfl, rfl, rfl, rfl⟩
  | step before after _ step inductionHypothesis =>
    exact step_sound flags root before after inductionHypothesis step

/-- No stale answer is shown, and no answer that was delivered is dropped. Whatever
orders come, whatever the worker writes and however slowly the display takes its
messages: the messages are the questions and the delivered answers of the dispatcher's
history, in order. The answer to a question stands behind the announcement of this
question, with no other announcement between the two. Whenever the display comes to an
answer, it is to the question announced last and is accepted; so the texts shown are
those of all answers taken, in order. And when the display has taken all messages, it
and the dispatcher remember the same question.

Proof: every step keeps `Sound`, that is, the messages are what the dispatcher's history
tells and the display remembers the question announced last. An answer is only delivered
when the tooltip request issued last has gone out and is the answered one. -/
theorem delivered_answers_shown (flags : CompileFlags) (root : Path) (broadcast : Broadcast)
    (reaches : Reaches flags root broadcast) :
    broadcast.posted =
        Display.toldOf (Dispatcher.run flags (Passage.callsIn broadcast.passed)).moments ∧
      (∀ before result after, broadcast.posted = before ++ .tooltip result :: after →
        ∃ earlier later, before = earlier ++ .asked result.id :: later ∧
          ∀ other, .asked other ∉ later) ∧
      (∀ result rest, broadcast.station.messages = .tooltip result :: rest →
        (Display.askedIn broadcast.taken).getLast? = some result.id ∧
          broadcast.display.accepts result.id = true) ∧
      Display.hoversIn broadcast.shown =
        (Display.tooltipsIn broadcast.taken).map (TooltipResult.shown root) ∧
      (broadcast.station.messages = [] →
        broadcast.display.latest = broadcast.station.link.dispatcher.latestTooltip) := by
  have sound := reaches_sound flags root broadcast reaches
  obtain ⟨follows, told, latest, hovers⟩ := id sound
  refine ⟨told, ?_, sound.accepts flags root broadcast, hovers, ?_⟩
  · intro before result after split
    exact Display.askedIn_last before result.id
      (Display.run_answers_last flags _ before after result (told.symm.trans split))
  · intro empty
    have all : broadcast.taken =
        Display.toldOf (Dispatcher.run flags (Passage.callsIn broadcast.passed)).moments := by
      rw [← told, posted, empty, List.append_nil]
    rw [latest, all, Display.askedIn_toldOf, follows, Dispatcher.run_latestTooltip, List.getLast?_map]

/-- A question that replaces another one is announced while the first is in flight. The
first answer is dropped, and the second is shown. -/
theorem second_answer_shown :
    ∃ broadcast, Reaches ⟨"js", false⟩ ⟨"/p"⟩ broadcast ∧
      broadcast.posted = [.asked 1, .asked 2, .tooltip ⟨2, none, some "int"⟩] ∧
      broadcast.station.messages = [.tooltip ⟨2, none, some "int"⟩] ∧
      broadcast.display.accepts 2 = true := by
  have fresh : Reaches ⟨"js", false⟩ ⟨"/p"⟩ _ := Reaches.start
  have left := Reaches.step _ _ fresh (Step.leave _ (.tooltip "a.sk" 0 0))
  have more := Reaches.step _ _ left (Step.leave _ (.tooltip "a.sk" 3 4))
  have first := Reaches.step _ _ more (Step.relay _ Files.Disk.bare _ _ rfl rfl)
  have second := Reaches.step _ _ first (Step.relay _ Files.Disk.bare _ _ rfl rfl)
  have dropped := Reaches.step _ _ second
    (Step.hear _ Files.Disk.bare (Response.written (.tooltip ⟨1, none, some "no"⟩)) rfl)
  have answered := Reaches.step _ _ dropped
    (Step.hear _ Files.Disk.bare (Response.written (.tooltip ⟨2, none, some "int"⟩)) rfl)
  have taken := Reaches.step _ _ answered (Step.present _ _ _ rfl)
  have again := Reaches.step _ _ taken (Step.present _ _ _ rfl)
  obtain ⟨-, -, accepts, -⟩ := delivered_answers_shown _ _ _ again
  exact ⟨_, again, rfl, rfl, (accepts _ _ rfl).2⟩

end Broadcast
end BuildWatch
