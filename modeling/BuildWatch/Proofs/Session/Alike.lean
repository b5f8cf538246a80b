import BuildWatch.Proofs.Session.Failing

/-!
# A check and the question it could have been

Until it takes the compile result, a session that checks does what one that asks about a place does:
what it is for shows in the log line before the compile request only. So every step of a check is
also one of such a session, its twin, up to the step that takes the result, and what was proved of
the talk of a session with its worker holds of a check too. In the same way a check cannot succeed
any more when its twin cannot, if no compile result is left to be taken.
-/

namespace BuildWatch

open Terminal (plainsIn plainsIn_append)

namespace Session

/-- A session that is for something else, and otherwise the same. -/
def aimed (goal : Goal) (session : Session) : Session := { session with goal := goal }

/-- A session waits for the compile result, and a message that carries one is the oldest. -/
def HasResult (session : Session) (result : CompileResult) : Prop :=
  session.stage = .compiling ∧ ∃ rest, session.station.messages = .compiled result :: rest

variable (goal : Goal) (session : Session)

theorem send_aimed (order : Order) (stage : Stage) :
    (session.aimed goal).send order stage = (session.send order stage).aimed goal := by
  cases opens : session.station.isOpen <;> simp [send, aimed, opens, finish]

/-- The end of a walk leaves the same order, whatever the session is for. -/
theorem walked_aimed (disk : Files.Disk) (files : List Path) :
    ((session.aimed goal).walked disk files).after = (session.walked disk files).after.aimed goal := by
  cases stage : session.stage with
  | walking =>
    simp only [walked, stage, show (session.aimed goal).stage = session.stage from rfl]
    exact send_aimed goal session _ _
  | compiling | asking | ended => simp [walked, aimed, stage]

/-- What is told at the end of a walk is no line of output. -/
theorem walked_plainsIn (disk : Files.Disk) (files : List Path) :
    plainsIn (session.walked disk files).notes = [] := by
  cases stage : session.stage with
  | walking =>
    simp only [walked, stage, announcement]
    split
    · rfl
    · split <;> rfl
  | compiling | asking | ended => simp [walked, stage, plainsIn]

theorem interrupt_aimed :
    (session.aimed goal).interrupt =
      { session.interrupt with after := session.interrupt.after.aimed goal } := by
  cases stage : session.stage <;> simp [interrupt, aimed, stage, finish]

theorem notice_aimed :
    (session.aimed goal).notice = { session.notice with after := session.notice.after.aimed goal } := by
  obtain ⟨kind, project, ⟨link, phase, orders, messages⟩, stage⟩ := session
  cases phase with
  | closed fault => cases fault <;> rfl
  | running | failing => rfl

/-- A session that is not about to take the compile result does the same, whatever it is for. -/
theorem proceed_aimed (disk : Files.Disk) (none : ∀ result, ¬ session.HasResult result) :
    (session.aimed goal).proceed disk =
      { session.proceed disk with after := (session.proceed disk).after.aimed goal } := by
  cases posted : session.station.messages with
  | nil =>
    cases stage : session.stage with
    | walking | ended => simp [proceed, aimed, stage]
    | compiling | asking => simpa [proceed, aimed, stage, posted] using notice_aimed goal session
  | cons message rest =>
    cases stage : session.stage with
    | walking | ended => simp [proceed, aimed, stage]
    | compiling =>
      cases message with
      | compiled result => exact absurd ⟨stage, rest, posted⟩ (none result)
      | asked id | tooltip result => simp [proceed, aimed, stage, posted]
    | asking display =>
      cases message with
      | asked id | compiled result => simp [proceed, aimed, stage, posted, answered]
      | tooltip result =>
        cases accepts : display.accepts result.id <;>
          simp [proceed, aimed, stage, posted, answered, accepts, finish]

end Session

namespace Course

open Files (Disk)
open Passage (linesIn answersIn)

variable (location : Location)

/-- A check and its twin, which asks about a place: the same has passed their stations, the same
lines of output were told, and they differ in what they are for. -/
structure Alike (course twin : Course) : Prop where
  goal : course.session.goal = .check
  session : twin.session = course.session.aimed (.hover location)
  passed : twin.passed = course.passed
  plains : plainsIn twin.told = plainsIn course.told

variable {location : Location} {course twin : Course}

/-- What a check is, its twin is when it is for checking. -/
theorem Alike.own (alike : Alike location course twin) :
    course.session = twin.session.aimed .check := by
  rw [alike.session]
  exact congrArg (course.session.aimed ·) alike.goal

/-- A step that tells the same lines of output, and from which the same session comes. -/
theorem Alike.goes (alike : Alike location course twin) (turn other : Session.Turn)
    (goal : turn.after.goal = .check) (after : other.after = turn.after.aimed (.hover location))
    (plains : plainsIn other.notes = plainsIn turn.notes) :
    Alike location (course.goes turn) (twin.goes other) := by
  refine ⟨goal, after, alike.passed, ?_⟩
  simp only [Course.goes, plainsIn_append, alike.plains, plains]

/-- Every step of a check is one of its twin, unless it takes the compile result. -/
theorem Alike.step (alike : Alike location course twin) {next : Course} (step : AnyStep course next) :
    (∃ other, AnyStep twin other ∧ Alike location next other) ∨
      ∃ disk result, course.session.HasResult result ∧
        next = course.goes (course.session.proceed disk) := by
  obtain ⟨_, _, before⟩ := twin
  obtain ⟨goal, rfl, rfl, plains⟩ := id alike
  have own : course.session = course.session.aimed .check := congrArg (course.session.aimed ·) goal
  cases step with
  | walked disk files =>
    refine Or.inl ⟨_, Step.walked _ disk files trivial, alike.goes _ _ ?_ (Session.walked_aimed _ _ _ _) ?_⟩
    · rw [own, Session.walked_aimed]
      rfl
    · rw [Session.walked_plainsIn, Session.walked_plainsIn]
  | relay disk order rest running left =>
    refine Or.inl ⟨_, Step.relay _ disk order rest running left, goal, rfl, rfl, ?_⟩
    simp only [passes, plainsIn_append, plains]
    rfl
  | hear disk text running =>
    refine Or.inl ⟨_, Step.hear _ disk text running, goal, rfl, rfl, ?_⟩
    simp only [passes, plainsIn_append, plains]
    rfl
  | fail fault => exact Or.inl ⟨_, Step.fail _ fault, alike.goes _ _ goal rfl rfl⟩
  | close => exact Or.inl ⟨_, Step.close _, alike.goes _ _ goal rfl rfl⟩
  | interrupt =>
    have same := Session.interrupt_aimed (.hover location) course.session
    refine Or.inl ⟨_, Step.interrupt _, alike.goes _ _ ?_ ?_ ?_⟩
    · rw [own, Session.interrupt_aimed]
      rfl
    · exact congrArg Session.Turn.after same
    · exact congrArg (fun turn => plainsIn turn.notes) same
  | proceed disk =>
    by_cases takes : ∃ result, course.session.HasResult result
    · obtain ⟨result, takes⟩ := takes
      exact Or.inr ⟨disk, result, takes, rfl⟩
    · have none (result : CompileResult) : ¬ course.session.HasResult result :=
        fun has => takes ⟨result, has⟩
      have same := Session.proceed_aimed (.hover location) course.session disk none
      have keeps := Session.proceed_aimed .check course.session disk none
      rw [← own] at keeps
      refine Or.inl ⟨_, Step.proceed _ disk, alike.goes _ _ ?_ ?_ ?_⟩
      · rw [keeps]
        rfl
      · exact congrArg Session.Turn.after same
      · exact congrArg (fun turn => plainsIn turn.notes) same

/-- A station that does not run, and at which no compile result lies. -/
structure Spent (station : Station) : Prop where
  stopped : station.phase ≠ .running
  empty : ∀ result, .compiled result ∉ station.messages

section Spending

variable {session : Session}

theorem stop_spent {station : Station} (spent : Spent station) : Spent station.stop := by
  rwa [station.stop_stopped spent.stopped]

theorem send_spent (spent : Spent session.station) (order : Order) (stage : Stage) :
    Spent (session.send order stage).station := by
  rw [Session.send]
  split
  · exact ⟨spent.stopped, spent.empty⟩
  · exact stop_spent spent

theorem notice_spent (spent : Spent session.station) : Spent session.notice.after.station := by
  rw [Session.notice]
  split
  · exact stop_spent spent
  · exact stop_spent spent
  · exact spent

theorem proceed_spent (spent : Spent session.station) (disk : Disk) :
    Spent (session.proceed disk).after.station := by
  cases posted : session.station.messages with
  | nil =>
    cases stage : session.stage with
    | walking | ended =>
      simp only [Session.proceed, stage]
      exact spent
    | compiling | asking =>
      simp only [Session.proceed, stage, posted]
      exact notice_spent spent
  | cons message rest =>
    have left : Spent { session.station with messages := rest } := by
      refine ⟨spent.stopped, fun result member => spent.empty result ?_⟩
      exact posted ▸ List.mem_cons_of_mem message member
    cases message with
    | compiled result => exact absurd (posted ▸ List.mem_cons_self) (spent.empty result)
    | asked id =>
      cases stage : session.stage <;> simp only [Session.proceed, stage, posted, Session.answered] <;>
        assumption
    | tooltip result =>
      cases stage : session.stage with
      | walking | ended =>
        simp only [Session.proceed, stage]
        exact spent
      | compiling =>
        simp only [Session.proceed, stage, posted]
        exact left
      | asking display =>
        simp only [Session.proceed, stage, posted, Session.answered]
        split
        · exact stop_spent left
        · exact left

/-- A station stays so in every step. -/
theorem step_spent {next : Course} (spent : Spent course.session.station) (step : AnyStep course next) :
    Spent next.session.station := by
  cases step with
  | relay disk order rest running left => exact absurd running spent.stopped
  | hear disk text running => exact absurd running spent.stopped
  | proceed disk => exact proceed_spent spent disk
  | walked disk files =>
    simp only [goes, Session.walked]
    split
    · exact send_spent spent _ _
    · exact spent
  | fail fault =>
    simp only [goes, Session.fail, Session.follow, Station.fail]
    split
    · exact ⟨by simp, spent.empty⟩
    · exact spent
  | close =>
    simp only [goes, Session.close, Session.follow, Station.close]
    split
    · exact ⟨by simp, spent.empty⟩
    · exact spent
  | interrupt =>
    simp only [goes, Session.interrupt]
    split
    · exact stop_spent (stop_spent spent)
    · exact stop_spent spent

end Spending

/-- A check goes on by itself when its twin does, if no compile result is left to be taken. -/
theorem Alike.goesOn (alike : Alike location course twin) (spent : Spent course.session.station)
    (moves : GoesOn twin.session) : GoesOn course.session := by
  have none (result : CompileResult) : ¬ course.session.HasResult result := by
    rintro ⟨-, rest, posted⟩
    exact spent.empty result (posted ▸ List.mem_cons_self)
  rw [alike.session] at moves
  rcases moves with walks | closes | proceeds
  · refine Or.inl fun disk files same => walks disk files ?_
    rw [Session.walked_aimed, same]
  · refine Or.inr (Or.inl fun same => closes ?_)
    exact congrArg (Session.aimed _) same
  · refine Or.inr (Or.inr fun disk same => proceeds disk ?_)
    rw [Session.proceed_aimed _ _ _ none]
    exact congrArg (Session.aimed _) same

/-- A check fails when its twin does, if no compile result is left to be taken. -/
theorem Alike.fails (alike : Alike location course twin) (spent : Spent course.session.station)
    (fails : Fails twin) : Fails course := by
  induction fails generalizing course with
  | ended twin fault finished silent =>
    rw [alike.session] at finished
    exact Fails.ended course fault finished (alike.plains ▸ silent)
  | onward twin moves every inductionHypothesis =>
    refine Fails.onward course (alike.goesOn spent moves) ?_
    intro next step moved
    obtain ⟨other, matched, again⟩ | ⟨disk, result, ⟨-, rest, posted⟩, -⟩ := alike.step step
    · refine inductionHypothesis other matched ?_ again (step_spent spent step)
      intro same
      apply moved
      rw [again.own, alike.own, same]
    · exact absurd (posted ▸ List.mem_cons_self) (spent.empty result)

end Course
end BuildWatch
