import BuildWatch.Proofs.Session.Course

/-!
# Sessions that cannot succeed any more

Once its station has failed, a session can only take the messages that are there, leave an order
that nobody carries out, and notice the end of the station. If no answer to the question is among
the messages, it ends without success, in whatever order its steps come: each step that changes it
brings it nearer to that end, and until then it goes on by itself.
-/

namespace BuildWatch

/-- How many changes a stage can still go through. -/
def Stage.weight : Stage → Nat
  | .walking => 2
  | .compiling => 1
  | .asking _ => 1
  | .ended _ => 0

/-- How many changes a station can still go through that does not run. -/
def StationPhase.weight : StationPhase → Nat
  | .failing _ => 1
  | _ => 0

theorem Station.stop_stopped (station : Station) (stopped : station.phase ≠ .running) :
    station.stop = station := by
  cases phase : station.phase with
  | running => exact absurd phase stopped
  | failing fault | closed fault => simp [Station.stop, phase]

namespace Course

open Files (Disk)
open Terminal (plainsIn)

/-- A session goes on without its worker and its user: when the walk ends, whatever it finds, when
the station closes, or when it takes a message or notices the end of the station. -/
def GoesOn (session : Session) : Prop :=
  (∀ disk files, (session.walked disk files).after ≠ session) ∨ session.close.after ≠ session ∨
    ∀ disk, (session.proceed disk).after ≠ session

/-- A session ends without success and without a line of output, however its steps are chosen: it
has ended so, or it goes on by itself, and every step that changes it leaves one that ends so. -/
inductive Fails : Course → Prop where
  | ended (course : Course) (fault : Failure) (finished : course.session.stage = .ended (.error fault))
      (silent : plainsIn course.told = []) : Fails course
  | onward (course : Course) (moves : GoesOn course.session)
      (every : ∀ next, AnyStep course next → next.session ≠ course.session → Fails next) : Fails course

/-- A session that cannot succeed: its station does not run, and no answer is among the messages
that are left. -/
structure Doomed (session : Session) : Prop where
  hover : ∃ location, session.goal = .hover location
  stopped : session.station.phase ≠ .running
  unanswered : ∀ result, .tooltip result ∉ session.station.messages
  unfinished : session.stage ≠ .ended (.ok ())

/-- How many more changes a session can go through whose station does not run. -/
def patience (session : Session) : Nat :=
  session.stage.weight + session.station.messages.length + session.station.phase.weight

/-- A session still cannot succeed, and came nearer to its end. -/
structure Sinks (before after : Session) : Prop where
  doomed : Doomed after
  less : patience after < patience before

variable {before session : Session}

/-- A session that sinks changes. -/
theorem Sinks.changes (sinks : Sinks before session) : session ≠ before := by
  rintro rfl
  exact Nat.lt_irrefl _ sinks.less

/-- A session that cannot succeed may end without success. -/
theorem finish_sinks (doomed : Doomed session) (fault : Failure)
    (less : session.station.messages.length + session.station.phase.weight < patience before) :
    Sinks before (session.finish (.error fault)) := by
  have same := session.station.stop_stopped doomed.stopped
  refine ⟨⟨doomed.hover, ?_, ?_, by simp [Session.finish]⟩, ?_⟩
  · rw [Session.finish, same]
    exact doomed.stopped
  · rw [Session.finish, same]
    exact doomed.unanswered
  · simpa [Session.finish, same, patience, Stage.weight] using less

/-- A session that cannot succeed may leave an order, and waits or ends. -/
theorem send_sinks (doomed : Doomed session) (order : Order) (stage : Stage)
    (waits : ∀ outcome, stage ≠ .ended outcome)
    (less : stage.weight + session.station.messages.length + session.station.phase.weight <
      patience before) :
    Sinks before (session.send order stage) := by
  by_cases accepts : session.station.isOpen = true
  · rw [Session.send, if_pos accepts]
    exact ⟨⟨doomed.hover, doomed.stopped, doomed.unanswered, waits _⟩, less⟩
  · rw [Session.send, if_neg accepts]
    exact finish_sinks doomed _ (by omega)

/-- The end of the walk makes a session that cannot succeed wait for the compile result in vain. -/
theorem walked_sinks (doomed : Doomed session) (walks : session.stage = .walking) (disk : Disk)
    (files : List Path) : Sinks session (session.walked disk files).after := by
  simp only [Session.walked, walks]
  refine send_sinks doomed _ _ (by simp) ?_
  rw [patience, walks, Stage.weight, Stage.weight]
  omega

/-- A station that is failing closes. -/
theorem close_sinks (doomed : Doomed session) (fault : WorkerFault)
    (failing : session.station.phase = .failing fault) : Sinks session session.close.after := by
  simp only [Session.close, Session.follow, Station.close, failing]
  refine ⟨⟨doomed.hover, by simp, doomed.unanswered, doomed.unfinished⟩, ?_⟩
  simp [patience, failing, StationPhase.weight]

/-- An interrupt ends the walk of a session that cannot succeed. -/
theorem interrupt_sinks (doomed : Doomed session) (walks : session.stage = .walking) :
    Sinks session session.interrupt.after := by
  have same := session.station.stop_stopped doomed.stopped
  simp only [Session.interrupt, walks, same]
  refine finish_sinks (by simpa only [← walks] using doomed) _ ?_
  simp only [patience, walks, Stage.weight]
  omega

/-- Noticing that the station has closed ends the session. -/
theorem notice_sinks (doomed : Doomed session) (waits : 0 < session.stage.weight)
    (fault : Option WorkerFault) (closed : session.station.phase = .closed fault) :
    Sinks session session.notice.after := by
  have less : session.station.messages.length + session.station.phase.weight < patience session := by
    rw [patience]
    omega
  cases fault with
  | none =>
    simp only [Session.notice, closed]
    exact finish_sinks doomed _ less
  | some fault =>
    simp only [Session.notice, closed]
    exact finish_sinks doomed _ less

/-- Taking a message that is no answer leaves a session that cannot succeed. -/
theorem take_sinks (doomed : Doomed session) (waits : session.stage.weight = 1) (disk : Disk)
    (message : Display.Message) (rest : List Display.Message)
    (posted : session.station.messages = message :: rest) :
    Sinks session (session.proceed disk).after := by
  have popped (stage : Stage) (goes : stage ≠ .ended (.ok ())) :
      Doomed
        { session with station := { session.station with messages := rest }, stage := stage } := by
    refine ⟨doomed.hover, doomed.stopped, ?_, goes⟩
    intro result member
    exact doomed.unanswered result (posted ▸ List.mem_cons_of_mem message member)
  have less : 1 + rest.length + session.station.phase.weight < patience session := by
    rw [patience, waits, posted, List.length_cons]
    omega
  cases stage : session.stage with
  | walking | ended => simp [stage, Stage.weight] at waits
  | compiling =>
    have left := popped .compiling (by simp)
    cases message with
    | compiled result =>
      simp only [Session.proceed, stage, posted]
      obtain ⟨location, goal⟩ := left.hover
      rw [compiled_hover _ goal]
      exact send_sinks left _ _ (by simp) less
    | asked id | tooltip result =>
      simp only [Session.proceed, stage, posted]
      exact ⟨left, less⟩
  | asking display =>
    simp only [Session.proceed, stage, posted, Session.answered]
    cases message with
    | tooltip result => exact absurd (posted ▸ List.mem_cons_self) (doomed.unanswered result)
    | asked id => exact ⟨popped (.asking { latest := some id }) (by simp), less⟩
    | compiled result => exact ⟨popped (.asking display) (by simp), less⟩

/-- What a session does that waits for its station: it takes a message, or notices the end of the
station, or nothing happens. -/
theorem proceed_sinks (doomed : Doomed session) (waits : session.stage.weight = 1) (disk : Disk) :
    Sinks session (session.proceed disk).after ∨
      (∃ fault, session.station.phase = .failing fault) ∧ (session.proceed disk).after = session := by
  cases posted : session.station.messages with
  | cons message rest => exact Or.inl (take_sinks doomed waits disk message rest posted)
  | nil =>
    have notices : session.proceed disk = session.notice := by
      cases stage : session.stage with
      | walking | ended => simp [stage, Stage.weight] at waits
      | compiling | asking => simp only [Session.proceed, stage, posted]
    rw [notices]
    cases phase : session.station.phase with
    | running => exact absurd phase doomed.stopped
    | closed fault => exact Or.inl (notice_sinks doomed (by omega) fault phase)
    | failing fault =>
      refine Or.inr ⟨⟨fault, rfl⟩, ?_⟩
      simp only [Session.notice, phase]

/-- Every step leaves a session that cannot succeed as it is, or brings it nearer to its end. -/
theorem step_sinks (course next : Course) (doomed : Doomed course.session) (step : AnyStep course next) :
    next.session = course.session ∨ Sinks course.session next.session := by
  cases step with
  | relay disk order rest running left => exact absurd running doomed.stopped
  | hear disk text running => exact absurd running doomed.stopped
  | proceed disk =>
    cases stage : course.session.stage with
    | walking | ended =>
      refine Or.inl ?_
      simp only [goes, Session.proceed, stage]
    | compiling | asking =>
      rcases proceed_sinks doomed (by simp [stage, Stage.weight]) disk with sinks | ⟨-, same⟩
      · exact Or.inr sinks
      · exact Or.inl same
  | walked disk files =>
    cases stage : course.session.stage with
    | walking => exact Or.inr (walked_sinks doomed stage disk files)
    | compiling | asking | ended =>
      refine Or.inl ?_
      simp only [goes, Session.walked, stage]
  | fail fault =>
    refine Or.inl ?_
    cases phase : course.session.station.phase with
    | running => exact absurd phase doomed.stopped
    | failing other | closed other => simp [goes, Session.fail, Session.follow, Station.fail, phase]
  | close =>
    cases phase : course.session.station.phase with
    | running => exact absurd phase doomed.stopped
    | failing fault => exact Or.inr (close_sinks doomed fault phase)
    | closed fault =>
      refine Or.inl ?_
      simp [goes, Session.close, Session.follow, Station.close, phase]
  | interrupt =>
    cases stage : course.session.stage with
    | walking => exact Or.inr (interrupt_sinks doomed stage)
    | compiling | asking | ended =>
      have same := course.session.station.stop_stopped doomed.stopped
      refine Or.inl ?_
      simp only [goes, Session.interrupt, stage, same]
      rw [← stage]

/-- A session that cannot succeed goes on by itself until it ends. -/
theorem doomed_moves (doomed : Doomed session) (waits : ∀ outcome, session.stage ≠ .ended outcome) :
    GoesOn session := by
  have moves (single : session.stage.weight = 1) : GoesOn session := by
    by_cases failing : ∃ fault, session.station.phase = .failing fault
    · obtain ⟨fault, failing⟩ := failing
      exact Or.inr (Or.inl (close_sinks doomed fault failing).changes)
    · refine Or.inr (Or.inr fun disk => ?_)
      rcases proceed_sinks doomed single disk with sinks | ⟨fails, -⟩
      · exact sinks.changes
      · exact absurd fails failing
  cases stage : session.stage with
  | ended outcome => exact absurd stage (waits outcome)
  | compiling | asking => exact moves (by rw [stage, Stage.weight])
  | walking => exact Or.inl fun disk files => (walked_sinks doomed stage disk files).changes

/-- A session that has ended without success has told no line of output. -/
theorem Point.silent {project : Project} {location : Location} {talk : List Passage}
    {printed : List String} {dispatcher : Dispatcher} {orders : List Order}
    {messages : List Display.Message} {fault : Failure}
    (point : Point project location talk printed dispatcher orders messages (.ended (.error fault))) :
    printed = [] := by
  cases point with
  | failed => rfl

/-- A session that cannot succeed ends without success and without a line of output. -/
theorem doomed_fails (project : Project) (location : Location) (course : Course)
    (reaches : Reaches project location course) (doomed : Doomed course.session) : Fails course := by
  induction size : patience course.session using Nat.strong_induction_on generalizing course with
  | _ size inductionHypothesis =>
    subst size
    by_cases finished : ∃ outcome, course.session.stage = .ended outcome
    · obtain ⟨outcome, ended⟩ := finished
      cases outcome with
      | ok done => exact absurd ended doomed.unfinished
      | error fault =>
        obtain ⟨talk, stray, -, point, -⟩ := reaches_sound course reaches
        rw [ended] at point
        exact Fails.ended course fault ended point.silent
    · refine Fails.onward course (doomed_moves doomed (by simpa using finished)) ?_
      intro next step moved
      rcases step_sinks course next doomed step with same | sinks
      · exact absurd same moved
      · have later := Reaches.step course next reaches step
        exact inductionHypothesis _ sinks.less next later sinks.doomed rfl

end Course
end BuildWatch
