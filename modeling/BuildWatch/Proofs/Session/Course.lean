import BuildWatch.Proofs.Session.Steps

/-!
# The course of a session that asks about a place

The session, its station and the worker go on by themselves. The worker may write any lines at any
moment, fail, or be gone; the files may change between any two steps; and the user may interrupt.
What passes the station and what the user is told is recorded.

Of what passes the station only the lines that are written count, and the lines of the worker that
are not blank. However the steps interleave, these make one talk: the compile request, an answer to
it, the question, an answer to that. The talk may break off at any point, and behind it there may be
one line that was not due, with which the station failed. So it is enough to know how far the talk
is to know what the dispatcher holds, which order and which messages lie at the station, and what
the session waits for.
-/

namespace BuildWatch

open Terminal (plainsIn plainsIn_append)

namespace Passage

/-- Whether a passage is a part of the talk with the worker. -/
def counts : Passage → Bool
  | .took _ => false
  | .heard text => !Text.isAllBlank text
  | .wrote _ _ => true

/-- The parts of the talk with the worker. -/
def talkIn (passed : List Passage) : List Passage := passed.filter counts

theorem talkIn_append (passed more : List Passage) :
    talkIn (passed ++ more) = talkIn passed ++ talkIn more := List.filter_append ..

/-- All lines that are written are parts of the talk. -/
theorem linesIn_talkIn (passed : List Passage) : linesIn (talkIn passed) = linesIn passed := by
  rw [linesIn, linesIn, writtenIn, writtenIn, talkIn, List.filterMap_filter]
  refine congrArg (List.map Prod.snd) (List.filterMap_congr fun passage _ => ?_)
  cases passage <;> simp [counts]

/-- All lines that are heard and not blank are parts of the talk. -/
theorem answersIn_talkIn (passed : List Passage) : answersIn (talkIn passed) = answersIn passed := by
  rw [answersIn, answersIn, talkIn, List.filterMap_filter]
  refine List.filterMap_congr fun passage _ => ?_
  cases passage with
  | took order | wrote disk line => simp [counts]
  | heard text => cases blank : Text.isAllBlank text <;> simp [counts, blank]

/-- The answer that is due after what passed the station: that to the compile request, or that to
the question, and none before a request or between the two. -/
def dueAfter (passed : List Passage) : Option InFlight :=
  match linesIn passed, answersIn passed with
  | [_], [] => some ⟨1, .compile⟩
  | [_, _], [_] => some ⟨2, .tooltip⟩
  | _, _ => none

/-- A line says the answer that is due. -/
def IsDue (passed : List Passage) (text : String) : Prop :=
  ∃ response, Response.read text = .ok response ∧
    dueAfter passed = some ⟨response.id, response.kind⟩

/-- What is due depends on the talk alone. -/
theorem isDue_talkIn (passed : List Passage) (text : String) :
    IsDue (talkIn passed) text ↔ IsDue passed text := by
  rw [IsDue, IsDue, dueAfter, dueAfter, linesIn_talkIn, answersIn_talkIn]

end Passage

/-- A session with what passed its station and what the user was told, oldest first. -/
structure Course where
  session : Session
  passed : List Passage := []
  told : List Terminal.Note := []

namespace Course

open Files (Disk)
open Passage (talkIn talkIn_append IsDue)

/-- Go on after a step of the session itself. -/
def goes (course : Course) (turn : Session.Turn) : Course :=
  { course with session := turn.after, told := course.told ++ turn.notes }

/-- Go on after something passed the station. -/
def passes (course : Course) (disk : Disk) (passage : Passage) (turn : Session.Turn) : Course :=
  { session := turn.after
    passed := course.passed ++ [passage] ++ turn.written.map (.wrote disk)
    told := course.told ++ turn.notes }

/-- One step of a session with any worker. When the walk of the session ends, its files are some that
it may find. -/
inductive Step (finds : List Path → Prop) : Course → Course → Prop where
  | walked (course : Course) (disk : Disk) (files : List Path) (found : finds files) :
      Step finds course (course.goes (course.session.walked disk files))
  | relay (course : Course) (disk : Disk) (order : Order) (rest : List Order)
      (running : course.session.station.phase = .running)
      (left : course.session.station.orders = order :: rest) :
      Step finds course (course.passes disk (.took order) (course.session.relay disk))
  | hear (course : Course) (disk : Disk) (text : String)
      (running : course.session.station.phase = .running) :
      Step finds course (course.passes disk (.heard text) (course.session.hear disk text))
  | fail (course : Course) (fault : WorkerFault) :
      Step finds course (course.goes (course.session.fail fault))
  | close (course : Course) : Step finds course (course.goes course.session.close)
  | proceed (course : Course) (disk : Disk) :
      Step finds course (course.goes (course.session.proceed disk))
  | interrupt (course : Course) : Step finds course (course.goes course.session.interrupt)

/-- A step of a session whose walk may find any files. -/
abbrev AnyStep : Course → Course → Prop := Step fun _ => True

/-- Whatever the walk may find, a step is one of a session whose walk may find any files. -/
theorem Step.any {finds : List Path → Prop} {course next : Course} (step : Step finds course next) :
    AnyStep course next := by
  cases step with
  | walked disk files => exact Step.walked course disk files trivial
  | relay disk order rest running left => exact Step.relay course disk order rest running left
  | hear disk text running => exact Step.hear course disk text running
  | fail fault => exact Step.fail course fault
  | close => exact Step.close course
  | proceed disk => exact Step.proceed course disk
  | interrupt => exact Step.interrupt course

variable (project : Project) (location : Location)

/-- What a session that asks about a place may come to. -/
inductive Reaches : Course → Prop where
  | start : Reaches { session := Session.start (.hover location) project }
  | step (before after : Course) (reaches : Reaches before) (step : AnyStep before after) :
      Reaches after

/-- The line of the compile request, with the files of a moment. -/
def compileLine (disk : Disk) (files : List Path) : String :=
  (Request.written disk (.compile ⟨1, files, project.settings.worker.flags⟩)).value

/-- The line of the question, for a file that was named at an earlier moment. -/
def questionLine (disk earlier : Disk) : String :=
  (Request.written disk (.tooltip ⟨2, (earlier.sourceOf project.root location.path).text,
    location.zeroBased.1, location.zeroBased.2⟩)).value

/-- A line says that the compile request was carried out. -/
def SaysCompiled (text : String) : Prop :=
  ∃ result : CompileResult, Response.read text = .ok (.compile result) ∧ result.id = 1

/-- A line says what there is to say about the place. -/
def SaysTooltip (text : String) (result : TooltipResult) : Prop :=
  Response.read text = .ok (.tooltip result) ∧ result.id = 2

/-- The question is announced, or the announcement was taken. -/
inductive Announced : Display → List Display.Message → Prop where
  | posted : Announced {} [.asked 2]
  | taken : Announced { latest := some 2 } []

/-- How far a session is: the talk with the worker and the lines of output so far, what the
dispatcher holds, the orders and messages that lie at the station, and what is waited for. -/
inductive Point :
    List Passage → List String → Dispatcher → List Order → List Display.Message → Stage → Prop where
  | walking : Point [] [] { flags := project.settings.worker.flags } [] [] .walking
  | ordered (files : List Path) :
      Point [] [] { flags := project.settings.worker.flags } [.compile files] [] .compiling
  | compiling (disk : Disk) (files : List Path) :
      Point [.wrote disk (compileLine project disk files)] []
        { flags := project.settings.worker.flags, lastId := 1, inFlight := some ⟨1, .compile⟩ }
        [] [] .compiling
  | compiled (disk : Disk) (files : List Path) (text : String) (result : CompileResult)
      (read : Response.read text = .ok (.compile result)) (same : result.id = 1) :
      Point [.wrote disk (compileLine project disk files), .heard text] []
        { flags := project.settings.worker.flags, lastId := 1 } [] [.compiled result] .compiling
  | questioned (disk : Disk) (files : List Path) (text : String) (reply : SaysCompiled text)
      (earlier : Disk) :
      Point [.wrote disk (compileLine project disk files), .heard text] []
        { flags := project.settings.worker.flags, lastId := 1 }
        [.about earlier project.root location] [] (.asking {})
  | asking (disk : Disk) (files : List Path) (text : String) (reply : SaysCompiled text)
      (later earlier : Disk) (display : Display) (messages : List Display.Message)
      (announced : Announced display messages) :
      Point [.wrote disk (compileLine project disk files), .heard text,
          .wrote later (questionLine project location later earlier)] []
        { flags := project.settings.worker.flags, lastId := 2, inFlight := some ⟨2, .tooltip⟩,
          latestTooltip := some 2 }
        [] messages (.asking display)
  | answered (disk : Disk) (files : List Path) (text : String) (reply : SaysCompiled text)
      (later earlier : Disk) (answer : String) (result : TooltipResult)
      (answers : SaysTooltip answer result) (display : Display) (messages : List Display.Message)
      (announced : Announced display messages) :
      Point [.wrote disk (compileLine project disk files), .heard text,
          .wrote later (questionLine project location later earlier), .heard answer] []
        { flags := project.settings.worker.flags, lastId := 2, latestTooltip := some 2 }
        [] (messages ++ [.tooltip result]) (.asking display)
  | shown (disk : Disk) (files : List Path) (text : String) (reply : SaysCompiled text)
      (later earlier : Disk) (answer : String) (result : TooltipResult)
      (answers : SaysTooltip answer result) (messages : List Display.Message) :
      Point [.wrote disk (compileLine project disk files), .heard text,
          .wrote later (questionLine project location later earlier), .heard answer]
        [result.shown project.root]
        { flags := project.settings.worker.flags, lastId := 2, latestTooltip := some 2 }
        [] messages (.ended (.ok ()))
  | failed (talk : List Passage) (dispatcher : Dispatcher) (orders others : List Order)
      (messages rest : List Display.Message) (stage : Stage)
      (point : Point talk [] dispatcher orders messages stage) (fault : Failure) :
      Point talk [] dispatcher others rest (.ended (.error fault))

/-- A line that was not due after a talk, if there is one. -/
inductive Stray (talk : List Passage) : List Passage → Prop where
  | none : Stray talk []
  | one (text : String) (spoken : Text.isAllBlank text = false) (undue : ¬ IsDue talk text) :
      Stray talk [.heard text]

/-- What ties a session to the talk, apart from how far it is: a station that runs has heard no
stray line, and holds no line back. -/
structure Tied (talk stray : List Passage) (session : Session) (passed : List Passage) : Prop where
  goal : session.goal = .hover location
  project : session.project = project
  talks : talkIn passed = talk ++ stray
  strays : Stray talk stray
  running : session.station.phase = .running → stray = [] ∧ session.station.link.outbox = []

/-- A session is at some point of the talk, and its station only runs while it has not ended. -/
structure Sound (talk stray : List Passage) (course : Course) : Prop where
  tied : Tied project location talk stray course.session course.passed
  point : Point project location talk (plainsIn course.told) course.session.station.link.dispatcher
    course.session.station.orders course.session.station.messages course.session.stage
  lives : course.session.station.phase = .running → ∀ outcome, course.session.stage ≠ .ended outcome

variable {project : Project} {location : Location} {talk stray : List Passage}

namespace Point

variable {printed : List String} {dispatcher : Dispatcher} {orders : List Order}
  {messages : List Display.Message}

/-- No request ever waits behind another one. -/
theorem alone {stage : Stage}
    (point : Point project location talk printed dispatcher orders messages stage) :
    dispatcher.next = none := by
  induction point with
  | failed talk dispatcher orders others messages rest stage point fault inductionHypothesis =>
    exact inductionHypothesis
  | _ => rfl

/-- Before a session has ended, the request in flight is the one whose answer is due. -/
theorem due {stage : Stage}
    (point : Point project location talk printed dispatcher orders messages stage)
    (lives : ∀ outcome, stage ≠ .ended outcome) :
    dispatcher.inFlight = Passage.dueAfter talk ∧ printed = [] := by
  have spoken (text : String) (reply : SaysCompiled text) : Text.isAllBlank text = false := by
    obtain ⟨result, read, -⟩ := reply
    exact Response.read_spoken text _ read
  cases point with
  | walking | ordered | compiling => exact ⟨rfl, rfl⟩
  | compiled disk files text result read same =>
    have speaks := Response.read_spoken text _ read
    simp [Passage.dueAfter, Passage.linesIn, Passage.writtenIn, Passage.answersIn, speaks]
  | questioned disk files text reply earlier =>
    simp [Passage.dueAfter, Passage.linesIn, Passage.writtenIn, Passage.answersIn, spoken text reply]
  | asking disk files text reply later earlier display messages announced =>
    simp [Passage.dueAfter, Passage.linesIn, Passage.writtenIn, Passage.answersIn, spoken text reply]
  | answered disk files text reply later earlier answer result answers display messages announced =>
    have speaks := Response.read_spoken answer _ answers.1
    simp [Passage.dueAfter, Passage.linesIn, Passage.writtenIn, Passage.answersIn, spoken text reply,
      speaks]
  | shown | failed => exact absurd rfl (lives _)

/-- The answer that is due is delivered, and the talk goes on with it. -/
theorem heard {stage : Stage}
    (point : Point project location talk printed dispatcher orders messages stage)
    (lives : ∀ outcome, stage ≠ .ended outcome) (text : String) (response : Response)
    (read : Response.read text = .ok response)
    (awaited : dispatcher.inFlight = some ⟨response.id, response.kind⟩) :
    Point project location (talk ++ [.heard text]) printed dispatcher.settle orders
      (messages ++ [Link.messageOf response]) stage := by
  cases point with
  | compiling disk files =>
    cases response with
    | compile result =>
      have same := congrArg InFlight.id (Option.some.inj awaited)
      exact Point.compiled disk files text result read same.symm
    | tooltip result => simp [Response.kind] at awaited
  | asking disk files first reply later earlier display messages announced =>
    cases response with
    | compile result => simp [Response.kind] at awaited
    | tooltip result =>
      have same := congrArg InFlight.id (Option.some.inj awaited)
      have answers : SaysTooltip text result := ⟨read, same.symm⟩
      exact Point.answered disk files first reply later earlier text result answers display messages
        announced
  | walking | ordered | compiled | questioned | answered => simp at awaited
  | shown | failed => exact absurd rfl (lives _)

/-- While the walk is waited for, the files may come. -/
theorem at_walking (point : Point project location talk printed dispatcher orders messages .walking) :
    printed = [] ∧ ∀ files, Point project location talk [] dispatcher (orders ++ [.compile files])
      messages .compiling := by
  cases point with
  | walking => exact ⟨rfl, Point.ordered⟩

/-- Where the compile result is waited for, it has come or no message is there. -/
theorem at_compiling (point : Point project location talk printed dispatcher orders messages .compiling) :
    printed = [] ∧ (messages = [] ∨ ∃ result, messages = [.compiled result] ∧
      ∀ earlier, Point project location talk [] dispatcher
        (orders ++ [.about earlier project.root location]) [] (.asking {})) := by
  cases point with
  | ordered | compiling => exact ⟨rfl, Or.inl rfl⟩
  | compiled disk files text result read same =>
    refine ⟨rfl, Or.inr ⟨result, rfl, fun earlier => ?_⟩⟩
    exact Point.questioned disk files text ⟨result, read, same⟩ earlier

/-- Where the answer is waited for, the next message is the announcement of the question or the
answer to it. -/
theorem at_asking {display : Display}
    (point : Point project location talk printed dispatcher orders messages (.asking display)) :
    printed = [] ∧ (messages = [] ∨
      (∃ rest, messages = .asked 2 :: rest ∧
        Point project location talk [] dispatcher orders rest (.asking { latest := some 2 })) ∨
      ∃ result, messages = [.tooltip result] ∧ display.accepts result.id = true ∧
        Point project location talk [result.shown project.root] dispatcher orders []
          (.ended (.ok ()))) := by
  cases point with
  | questioned => exact ⟨rfl, Or.inl rfl⟩
  | asking disk files text reply later earlier display messages announced =>
    cases announced with
    | posted =>
      exact ⟨rfl, Or.inr (Or.inl ⟨[], rfl, Point.asking disk files text reply later earlier _ _
        Announced.taken⟩)⟩
    | taken => exact ⟨rfl, Or.inl rfl⟩
  | answered disk files text reply later earlier answer result answers display messages announced =>
    cases announced with
    | posted =>
      exact ⟨rfl, Or.inr (Or.inl ⟨_, rfl, Point.answered disk files text reply later earlier answer
        result answers _ _ Announced.taken⟩)⟩
    | taken =>
      refine ⟨rfl, Or.inr (Or.inr ⟨result, rfl, ?_, ?_⟩)⟩
      · rw [Display.accepts, answers.2]
        rfl
      · exact Point.shown disk files text reply later earlier answer result answers []

end Point

section Steps

variable {session : Session} {passed : List Passage} {told : List Terminal.Note}

/-- A station that is stopped does not run, and is otherwise as it was. -/
theorem stop_keeps (station : Station) :
    station.stop.link = station.link ∧ station.stop.orders = station.orders ∧
      station.stop.messages = station.messages ∧ station.stop.phase ≠ .running := by
  obtain ⟨link, phase, orders, messages⟩ := station
  cases phase <;> simp [Station.stop]

/-- A session that ends without success before any line of output is sound. -/
theorem ended_sound {dispatcher : Dispatcher} {orders : List Order} {messages : List Display.Message}
    {stage : Stage} (tied : Tied project location talk stray session passed)
    (silent : plainsIn told = [])
    (point : Point project location talk [] dispatcher orders messages stage)
    (same : session.station.link.dispatcher = dispatcher) (fault : Failure) :
    Sound project location talk stray ⟨session.finish (.error fault), passed, told⟩ := by
  obtain ⟨link, -, -, stopped⟩ := stop_keeps session.station
  refine ⟨⟨tied.goal, tied.project, tied.talks, tied.strays, ?_⟩, ?_, ?_⟩
  · intro running
    exact (stopped running).elim
  · rw [silent]
    have onward := Point.failed talk dispatcher orders session.station.stop.orders messages
      session.station.stop.messages stage point fault
    rw [← same, ← link] at onward
    exact onward
  · intro running
    exact (stopped running).elim

/-- A session that leaves an order is sound, or ends when the station is closed. -/
theorem sent_sound {stage next : Stage} {orders : List Order} {messages : List Display.Message}
    (order : Order) (tied : Tied project location talk stray session passed)
    (silent : plainsIn told = [])
    (point : Point project location talk [] session.station.link.dispatcher orders messages stage)
    (onward : Point project location talk [] session.station.link.dispatcher
      (session.station.orders ++ [order]) session.station.messages next)
    (lives : ∀ outcome, next ≠ .ended outcome) :
    Sound project location talk stray ⟨session.send order next, passed, told⟩ := by
  by_cases accepts : session.station.isOpen = true
  · rw [Session.send, if_pos accepts]
    refine ⟨⟨tied.goal, tied.project, tied.talks, tied.strays, tied.running⟩, ?_, fun _ => lives⟩
    rw [silent]
    exact onward
  · rw [Session.send, if_neg accepts]
    exact ended_sound tied silent point rfl .workerStopped

/-- The station of a session changes in nothing but its phase, and does not begin to run. -/
structure Keeps (station other : Station) : Prop where
  link : other.link = station.link
  orders : other.orders = station.orders
  messages : other.messages = station.messages
  phase : other.phase = .running → station.phase = .running

/-- A step that changes nothing but the phase of the station, and tells no line of output. -/
theorem kept_sound (sound : Sound project location talk stray ⟨session, passed, told⟩)
    (station : Station) (keeps : Keeps session.station station) (notes : List Terminal.Note)
    (quiet : plainsIn notes = []) :
    Sound project location talk stray
      ⟨{ session with station := station }, passed, told ++ notes⟩ := by
  obtain ⟨tied, point, lives⟩ := sound
  refine ⟨⟨tied.goal, tied.project, tied.talks, tied.strays, ?_⟩, ?_, ?_⟩
  · intro running
    rw [keeps.link]
    exact tied.running (keeps.phase running)
  · rw [plainsIn_append, quiet, List.append_nil, keeps.link, keeps.orders, keeps.messages]
    exact point
  · intro running
    exact lives (keeps.phase running)

/-- A step that does nothing. -/
theorem idle_sound (course : Course) (sound : Sound project location talk stray course) :
    Sound project location talk stray (course.goes { after := course.session }) :=
  kept_sound sound course.session.station ⟨rfl, rfl, rfl, id⟩ [] rfl

theorem walked_sound (course : Course) (sound : Sound project location talk stray course)
    (disk : Disk) (files : List Path) :
    Sound project location talk stray (course.goes (course.session.walked disk files)) := by
  obtain ⟨tied, point, lives⟩ := id sound
  cases stage : course.session.stage with
  | walking =>
    rw [stage] at point
    obtain ⟨silent, onward⟩ := point.at_walking
    have quiet : plainsIn (course.session.announcement disk files) = [] := by
      rw [Session.announcement, tied.goal]
      simp only
      split <;> rfl
    have told : plainsIn (course.told ++ course.session.announcement disk files) = [] := by
      rw [plainsIn_append, silent, quiet]
      rfl
    rw [silent] at point
    simp only [goes, Session.walked, stage]
    exact sent_sound _ tied told point (onward files) (by simp)
  | compiling | asking | ended =>
    simp only [Session.walked, stage]
    exact idle_sound course sound

theorem fail_sound (course : Course) (sound : Sound project location talk stray course)
    (fault : WorkerFault) : Sound project location talk stray (course.goes (course.session.fail fault)) := by
  have keeps : Keeps course.session.station (course.session.station.fail fault).after := by
    cases phase : course.session.station.phase <;> simp only [Station.fail, phase] <;>
      exact ⟨rfl, rfl, rfl, by simp [phase]⟩
  have quiet : plainsIn (course.session.station.fail fault).notes = [] := by
    cases phase : course.session.station.phase <;> simp [Station.fail, phase, plainsIn]
  exact kept_sound sound _ keeps _ quiet

theorem close_sound (course : Course) (sound : Sound project location talk stray course) :
    Sound project location talk stray (course.goes course.session.close) := by
  have keeps : Keeps course.session.station course.session.station.close.after := by
    cases phase : course.session.station.phase <;> simp only [Station.close, phase] <;>
      exact ⟨rfl, rfl, rfl, by simp [phase]⟩
  have quiet : plainsIn course.session.station.close.notes = [] := by
    cases phase : course.session.station.phase <;> simp [Station.close, phase, plainsIn]
  exact kept_sound sound _ keeps _ quiet

theorem interrupt_sound (course : Course) (sound : Sound project location talk stray course) :
    Sound project location talk stray (course.goes course.session.interrupt) := by
  obtain ⟨link, orders, messages, stopped⟩ := stop_keeps course.session.station
  have keeps : Keeps course.session.station course.session.station.stop :=
    ⟨link, orders, messages, fun running => (stopped running).elim⟩
  have still := kept_sound sound _ keeps [.log "watch" "shutting down..."] rfl
  cases stage : course.session.stage with
  | walking =>
    obtain ⟨tied, point, -⟩ := still
    rw [stage] at point
    obtain ⟨silent, -⟩ := point.at_walking
    rw [silent] at point
    simp only [goes, Session.interrupt, stage]
    exact ended_sound tied silent point rfl .interrupted
  | compiling | asking | ended =>
    simpa only [goes, Session.interrupt, stage] using still

/-- Noticing the end of a station ends the session without success. -/
theorem notice_sound (course : Course) (sound : Sound project location talk stray course)
    (silent : plainsIn course.told = []) :
    Sound project location talk stray (course.goes course.session.notice) := by
  obtain ⟨tied, point, -⟩ := id sound
  have told : plainsIn (course.told ++ []) = [] := by rw [List.append_nil, silent]
  rw [silent] at point
  cases phase : course.session.station.phase with
  | running | failing fault =>
    simp only [Session.notice, phase]
    exact idle_sound course sound
  | closed fault =>
    cases fault with
    | none =>
      simp only [goes, Session.notice, phase]
      exact ended_sound tied told point rfl .interrupted
    | some fault =>
      simp only [goes, Session.notice, phase]
      exact ended_sound tied told point rfl (.workerFailed fault)

/-- The compile result lets a session ask about its place. -/
theorem compiled_hover (session : Session) (goal : session.goal = .hover location) (disk : Disk)
    (log : CompileLog) :
    session.compiled disk log =
      { after := session.send (.about disk session.project.root location) (.asking {})
        notes := [.detail "hover" ("compiled: " ++ log.summary)] } := by
  rw [Session.compiled, goal]

/-- A message that is taken leaves the ties as they are. -/
theorem Tied.popped (tied : Tied project location talk stray session passed)
    (rest : List Display.Message) (stage : Stage) :
    Tied project location talk stray
      { session with station := { session.station with messages := rest }, stage := stage } passed :=
  ⟨tied.goal, tied.project, tied.talks, tied.strays, tied.running⟩

/-- A session that waits for the compile result takes it and leaves its question. -/
theorem proceed_compiling (course : Course) (sound : Sound project location talk stray course)
    (disk : Disk) (stage : course.session.stage = .compiling) :
    Sound project location talk stray (course.goes (course.session.proceed disk)) := by
  obtain ⟨tied, point, -⟩ := id sound
  rw [stage] at point
  obtain ⟨silent, empty | ⟨result, posted, onward⟩⟩ := point.at_compiling
  · simp only [Session.proceed, stage, empty]
    exact notice_sound course sound silent
  · have told (text : String) : plainsIn (course.told ++ [.detail "hover" text]) = [] := by
      rw [plainsIn_append, silent]
      rfl
    have root : project.root = course.session.project.root := by rw [tied.project]
    have asks := onward disk
    rw [root] at asks
    rw [silent] at point
    simp only [goes, Session.proceed, stage, posted]
    rw [compiled_hover _ (tied.popped [] .compiling).goal]
    exact sent_sound _ (tied.popped [] .compiling) (told _) point asks (by simp)

/-- A session that waits for the answer takes the announcement of its question, and shows the
answer and ends. -/
theorem proceed_asking (course : Course) (sound : Sound project location talk stray course)
    (disk : Disk) (display : Display) (stage : course.session.stage = .asking display) :
    Sound project location talk stray (course.goes (course.session.proceed disk)) := by
  obtain ⟨tied, point, -⟩ := id sound
  rw [stage] at point
  obtain ⟨silent, empty | ⟨rest, posted, onward⟩ | ⟨result, posted, accepts, onward⟩⟩ :=
    point.at_asking
  · simp only [Session.proceed, stage, empty]
    exact notice_sound course sound silent
  · simp only [goes, Session.proceed, stage, posted, Session.answered]
    refine ⟨tied.popped rest _, ?_, fun _ => by simp⟩
    rw [List.append_nil, silent]
    exact onward
  · obtain ⟨link, orders, messages, stopped⟩ :=
      stop_keeps { course.session.station with messages := [] }
    simp only [goes, Session.proceed, stage, posted, Session.answered, accepts, if_true]
    refine ⟨⟨tied.goal, tied.project, tied.talks, tied.strays, ?_⟩, ?_, ?_⟩
    · intro running
      exact (stopped running).elim
    · have printed : plainsIn (course.told ++ [.plain (result.shown course.session.project.root)]) =
          [result.shown project.root] := by
        rw [plainsIn_append, silent, tied.project]
        rfl
      rw [printed, Session.finish, link, orders, messages]
      exact onward
    · intro running
      exact (stopped running).elim

theorem proceed_sound (course : Course) (sound : Sound project location talk stray course)
    (disk : Disk) : Sound project location talk stray (course.goes (course.session.proceed disk)) := by
  cases stage : course.session.stage with
  | walking | ended =>
    simp only [Session.proceed, stage]
    exact idle_sound course sound
  | compiling => exact proceed_compiling course sound disk stage
  | asking display => exact proceed_asking course sound disk display stage

/-- The talk goes on with what passes the station and the lines that are written for it. -/
theorem talkIn_passes (course : Course) (disk : Disk) (passage : Passage) (turn : Session.Turn) :
    talkIn (course.passes disk passage turn).passed =
      talkIn course.passed ++ talkIn [passage] ++ turn.written.map (.wrote disk) := by
  have written : talkIn (turn.written.map (.wrote disk)) = turn.written.map (.wrote disk) := by
    rw [talkIn, List.filter_eq_self]
    intro other member
    obtain ⟨line, -, rfl⟩ := List.mem_map.mp member
    rfl
  rw [passes, talkIn_append, talkIn_append, written]

/-- A station that takes an order writes the line of its request, and the talk goes on with it. -/
theorem relay_sound (course : Course) (sound : Sound project location talk stray course) (disk : Disk)
    (order : Order) (rest : List Order) (running : course.session.station.phase = .running)
    (left : course.session.station.orders = order :: rest) :
    ∃ talk, Sound project location talk []
      (course.passes disk (.took order) (course.session.relay disk)) := by
  obtain ⟨⟨goal, same, talks, strays, flushed⟩, point, lives⟩ := sound
  obtain ⟨rfl, outbox⟩ := flushed running
  have live := lives running
  have talked := talkIn_passes course disk (.took order) (course.session.relay disk)
  generalize held : course.session.station.link.dispatcher = dispatcher at point
  generalize plain : plainsIn course.told = printed at point
  generalize wait : course.session.stage = stage at point live
  generalize posted : course.session.station.messages = messages at point
  have link : course.session.station.link = ⟨dispatcher, []⟩ := congrArg₂ Link.mk held outbox
  rw [left] at point
  cases point with
  | ordered files =>
    obtain ⟨after, written, quiet⟩ :=
      Station.relay_compile disk _ course.session.station running files link left
    refine ⟨[.wrote disk (compileLine project disk files)], ⟨goal, same, ?_, Stray.none, ?_⟩, ?_, ?_⟩
    · rw [talked, talks]
      simp [Session.relay, Session.follow, written, talkIn, Passage.counts, compileLine]
    · simp [passes, Session.relay, Session.follow, after]
    · simp only [passes, Session.relay, Session.follow, plainsIn_append, quiet, plain, after, posted, wait]
      exact Point.compiling disk files
    · simp [passes, Session.relay, Session.follow, wait]
  | questioned first files text reply earlier =>
    obtain ⟨after, written, quiet⟩ :=
      Station.relay_tooltip disk _ course.session.station running _ _ _ link left
    refine ⟨[.wrote first (compileLine project first files), .heard text,
      .wrote disk (questionLine project location disk earlier)], ⟨goal, same, ?_, Stray.none, ?_⟩, ?_, ?_⟩
    · rw [talked, talks]
      simp [Session.relay, Session.follow, written, talkIn, Passage.counts, questionLine,
        Location.zeroBased]
    · simp [passes, Session.relay, Session.follow, after]
    · simp only [passes, Session.relay, Session.follow, plainsIn_append, quiet, plain, after, posted, wait]
      exact Point.asking first files text reply disk earlier _ _ Announced.posted
    · simp [passes, Session.relay, Session.follow, wait]
  | failed => exact absurd rfl (live _)

/-- A line that is heard is skipped when it is blank, moves the talk on when it is due, and else makes
the station fail. -/
theorem hear_sound (course : Course) (sound : Sound project location talk stray course) (disk : Disk)
    (text : String) (running : course.session.station.phase = .running) :
    ∃ talk stray, Sound project location talk stray
      (course.passes disk (.heard text) (course.session.hear disk text)) := by
  obtain ⟨⟨goal, same, talks, strays, flushed⟩, point, lives⟩ := id sound
  obtain ⟨rfl, outbox⟩ := flushed running
  have live := lives running
  have talked := talkIn_passes course disk (.heard text) (course.session.hear disk text)
  obtain ⟨flight, silent⟩ := point.due live
  rw [List.append_nil] at talks
  cases blank : Text.isAllBlank text with
  | true =>
    have still := Station.hear_blank disk course.session.station text running outbox blank
    refine ⟨talk, [], ⟨goal, same, ?_, Stray.none, ?_⟩, ?_, ?_⟩
    · rw [talked, talks]
      simp [Session.hear, Session.follow, still, talkIn, Passage.counts, blank]
    · simp [passes, Session.hear, Session.follow, still, outbox]
    · simpa [passes, Session.hear, Session.follow, still] using point
    · simpa [passes, Session.hear, Session.follow, still] using lives
  | false =>
    by_cases due : IsDue talk text
    · obtain ⟨response, read, awaited⟩ := due
      rw [← flight] at awaited
      have heard := Station.hear_due disk course.session.station running text response outbox read
        awaited point.alone
      refine ⟨talk ++ [.heard text], [], ⟨goal, same, ?_, Stray.none, ?_⟩, ?_, ?_⟩
      · rw [talked, talks]
        simp [Session.hear, Session.follow, heard, talkIn, Passage.counts, blank]
      · simp [passes, Session.hear, Session.follow, heard]
      · simpa [passes, Session.hear, Session.follow, heard] using point.heard live text response read awaited
      · simpa [passes, Session.hear, Session.follow, heard] using lives
    · have other : ¬ course.session.station.link.dispatcher.Expects text := by
        rintro ⟨response, read, awaited⟩
        exact due ⟨response, read, flight ▸ awaited⟩
      obtain ⟨fault, failed⟩ := Station.hear_stray disk course.session.station running text outbox blank
        other
      refine ⟨talk, [.heard text], ⟨goal, same, ?_, Stray.one text blank due, ?_⟩, ?_, ?_⟩
      · rw [talked, talks]
        simp [Session.hear, Session.follow, failed, talkIn, Passage.counts, blank]
      · simp [passes, Session.hear, Session.follow, failed]
      · simpa [passes, Session.hear, Session.follow, failed] using point
      · simp [passes, Session.hear, Session.follow, failed]

/-- Every step keeps a session sound. -/
theorem step_sound (before after : Course) (sound : Sound project location talk stray before)
    (step : AnyStep before after) : ∃ talk stray, Sound project location talk stray after := by
  cases step with
  | walked disk files => exact ⟨talk, stray, walked_sound before sound disk files⟩
  | relay disk order rest running left =>
    obtain ⟨talk, onward⟩ := relay_sound before sound disk order rest running left
    exact ⟨talk, [], onward⟩
  | hear disk text running => exact hear_sound before sound disk text running
  | fail fault => exact ⟨talk, stray, fail_sound before sound fault⟩
  | close => exact ⟨talk, stray, close_sound before sound⟩
  | proceed disk => exact ⟨talk, stray, proceed_sound before sound disk⟩
  | interrupt => exact ⟨talk, stray, interrupt_sound before sound⟩

/-- Whatever a session comes to is sound. -/
theorem reaches_sound (course : Course) (reaches : Reaches project location course) :
    ∃ talk stray, Sound project location talk stray course := by
  induction reaches with
  | start =>
    refine ⟨[], [], ⟨rfl, rfl, rfl, Stray.none, fun _ => ⟨rfl, rfl⟩⟩, Point.walking, ?_⟩
    intro running outcome
    simp [Session.start]
  | step before after _ step inductionHypothesis =>
    obtain ⟨talk, stray, sound⟩ := inductionHypothesis
    exact step_sound before after sound step

end Steps

end Course
end BuildWatch
