import BuildWatch.Proofs.Session.Alike
import BuildWatch.Proofs.Session.Hover
import BuildWatch.Proofs.Walk.Coverage
import BuildWatch.Proofs.Walk.Sources

/-!
# The verdict of a check

A check writes one line at most, the compile request for the files that a walk of the project's roots
found. What it comes to hangs on the first line that is heard and is not blank. If this line says the
result of the request and came after it, the check shows the diagnostics of that result and succeeds
when none of them is an error, whatever the worker does afterwards. In all other cases no diagnostic
is shown, and the check fails as soon as its station has heard a line or does not run any more.

As long as the result was not taken, a check is followed through its twin, a session that asks about
a place. The talk of the twin with its worker is known, and so it is known when the result is there.
-/

namespace BuildWatch

open Terminal (plainsIn plainsIn_append)

/-- Files are those that a project compiles, after some walk of its roots that answers. -/
def Project.Compiles (project : Project) (files : List Path) : Prop :=
  ∃ happenings, project.sourcesAfter happenings = some files

namespace CompileLog

/-- A text names a number of errors and one of warnings. -/
inductive Counts : Nat → Nat → String → Prop where
  | none : Counts 0 0 "no problems"
  | errors (number : Nat) (some : number ≠ 0) : Counts number 0 (Text.count number "error")
  | warnings (number : Nat) (some : number ≠ 0) : Counts 0 number (Text.count number "warning")
  | both (errors warnings : Nat) (some : errors ≠ 0) (more : warnings ≠ 0) :
      Counts errors warnings (Text.count errors "error" ++ ", " ++ Text.count warnings "warning")

variable (log : CompileLog)

/-- The summary names how many errors and warnings there are. -/
theorem summary_counts : Counts log.errorCount log.warningCount log.summary := by
  cases errors : log.errorCount with
  | zero =>
    cases warnings : log.warningCount with
    | zero => simpa [summary, errors, warnings] using Counts.none
    | succ more => simpa [summary, errors, warnings] using Counts.warnings (more + 1) (by omega)
  | succ some =>
    cases warnings : log.warningCount with
    | zero => simpa [summary, errors, warnings] using Counts.errors (some + 1) (by omega)
    | succ more =>
      simpa [summary, errors, warnings] using Counts.both (some + 1) (more + 1) (by omega) (by omega)

/-- Every diagnostic is an error or a warning. -/
theorem count_add : log.errorCount + log.warningCount = log.diagnostics.length := by
  have warnings : log.ofSeverity .warning =
      log.diagnostics.filter fun diagnostic => decide ¬ decide (diagnostic.severity = .error) = true := by
    refine List.filter_congr fun diagnostic _ => ?_
    cases diagnostic.severity <;> rfl
  rw [errorCount, warningCount, warnings, ofSeverity, ← List.countP_eq_length_filter,
    ← List.countP_eq_length_filter]
  exact (List.length_eq_countP_add_countP _).symm

theorem errorCount_zero_iff :
    log.errorCount = 0 ↔ ∀ diagnostic ∈ log.diagnostics, diagnostic.severity ≠ .error := by
  simp [errorCount, ofSeverity]

end CompileLog

namespace Course

open Files (Disk)
open Passage (talkIn split_of_talkIn linesIn linesIn_append linesIn_talkIn linesIn_wrote answersIn
  answersIn_append answersIn_talkIn)

/-- The first line that was heard and is not blank says the result of the compile request, and a line
was written before. -/
def Decided (passed : List Passage) (result : CompileResult) : Prop :=
  ∃ before text after, passed = before ++ .heard text :: after ∧ answersIn before = [] ∧
    linesIn before ≠ [] ∧ Response.read text = .ok (.compile result) ∧ result.id = 1

/-- A check has ended and has shown a log. -/
structure Shown (root : Path) (log : CompileLog) (course : Course) : Prop where
  /-- The lines of output are those of the diagnostics, in order. -/
  lines : plainsIn course.told = log.diagnostics.map (Diagnostic.line root)
  /-- Without an error it has succeeded, and told the summary. -/
  succeeds : (∀ diagnostic ∈ log.diagnostics, diagnostic.severity ≠ .error) →
    course.session.stage = .ended (.ok ()) ∧ .log "check" log.summary ∈ course.told
  /-- With an error it has failed with the summary. -/
  fails : (∃ diagnostic ∈ log.diagnostics, diagnostic.severity = .error) →
    course.session.stage = .ended (.error (.checkFailed log.summary))
  /-- The summary names how many errors and warnings there are, and these are all diagnostics. -/
  counts : CompileLog.Counts log.errorCount log.warningCount log.summary ∧
    log.errorCount + log.warningCount = log.diagnostics.length

/-- At most one line is written: the compile request, with number 1, for files of the project. -/
def Requested (project : Project) (passed : List Passage) : Prop :=
  linesIn passed = [] ∨
    ∃ disk files, project.Compiles files ∧ linesIn passed = [compileLine project disk files]

/-- What is true of a check at any time. -/
structure Verdict (project : Project) (course : Course) : Prop where
  /-- It writes at most the compile request. -/
  writes : Requested project course.passed
  /-- Once it is decided it has shown the log, or its next step shows the log. -/
  shows : ∀ result, Decided course.passed result →
    Shown project.root result.log course ∨
      (∀ outcome, course.session.stage ≠ .ended outcome) ∧ plainsIn course.told = [] ∧
        ∀ disk, Shown project.root result.log (course.goes (course.session.proceed disk))
  /-- As long as it is not decided it shows nothing and does not succeed. -/
  silent : (∀ result, ¬ Decided course.passed result) →
    plainsIn course.told = [] ∧ course.session.stage ≠ .ended (.ok ())
  /-- It fails when it cannot be decided any more. -/
  fails : (∀ result, ¬ Decided course.passed result) →
    answersIn course.passed ≠ [] ∨ course.session.station.phase ≠ .running → Fails course

/-- A line that decides is the first that is not blank. -/
theorem Decided.first {passed : List Passage} {result : CompileResult} (decided : Decided passed result) :
    ∃ text rest, answersIn passed = text :: rest ∧ Response.read text = .ok (.compile result) ∧
      result.id = 1 ∧ linesIn passed ≠ [] := by
  obtain ⟨before, text, after, rfl, silent, begun, read, same⟩ := decided
  have spoken := Response.read_spoken text _ read
  refine ⟨text, answersIn after, ?_, read, same, ?_⟩
  · have heard : answersIn (.heard text :: after) = text :: answersIn after := by
      simp [answersIn, spoken]
    rw [answersIn_append, silent, heard]
    rfl
  · rw [linesIn_append]
    exact List.append_ne_nil_of_left_ne_nil begun _

/-- A check is decided in one way. -/
theorem Decided.unique {passed : List Passage} {result other : CompileResult}
    (decided : Decided passed result) (again : Decided passed other) : result = other := by
  obtain ⟨text, rest, first, read, -⟩ := decided.first
  obtain ⟨_, _, second, reads, -⟩ := again.first
  rw [first] at second
  obtain ⟨rfl, -⟩ := List.cons.inj second
  rw [read] at reads
  exact Response.compile.inj (Except.ok.inj reads)

/-- What decides in the talk decides in what passed. -/
theorem Decided.of_talk {passed talk stray : List Passage} {result : CompileResult}
    (talks : talkIn passed = talk ++ stray) (decided : Decided talk result) : Decided passed result := by
  obtain ⟨before, text, after, rfl, silent, begun, reply⟩ := decided
  rw [List.append_assoc, List.cons_append] at talks
  obtain ⟨earlier, later, same, rfl⟩ := split_of_talkIn passed before _ _ talks
  rw [answersIn_talkIn] at silent
  rw [linesIn_talkIn] at begun
  exact ⟨earlier, text, later, same, silent, begun, reply⟩

variable {project : Project} {location : Location}

namespace Point

variable {talk : List Passage} {printed : List String} {dispatcher : Dispatcher} {orders : List Order}
  {messages : List Display.Message} {stage : Stage}

/-- Before the question was left, nothing is shown unless a session ends. -/
theorem quiet (point : Point project location talk printed dispatcher orders messages stage)
    (unasked : ∀ display, stage ≠ .asking display) (unshown : stage ≠ .ended (.ok ())) :
    printed = [] := by
  cases point with
  | questioned | asking | answered => exact absurd rfl (unasked _)
  | shown => exact absurd rfl unshown
  | _ => rfl

/-- Before the question was left, the compile result is there when it was heard. -/
theorem posted (point : Point project location talk printed dispatcher orders messages stage)
    (unasked : ∀ display, stage ≠ .asking display) (lives : ∀ outcome, stage ≠ .ended outcome) :
    answersIn talk = [] ∧ messages = [] ∨
      ∃ result, Decided talk result ∧ stage = .compiling ∧ messages = [.compiled result] := by
  cases point with
  | walking | ordered | compiling => exact Or.inl ⟨rfl, rfl⟩
  | compiled disk files text result read same =>
    exact Or.inr ⟨result, ⟨[_], text, [], rfl, rfl, List.cons_ne_nil _ _, read, same⟩, rfl, rfl⟩
  | questioned | asking | answered => exact absurd rfl (unasked _)
  | shown | failed => exact absurd rfl (lives _)

/-- Before the question was left, an order is the first one, for the compile request. -/
theorem order (point : Point project location talk printed dispatcher orders messages stage)
    (unasked : ∀ display, stage ≠ .asking display) (lives : ∀ outcome, stage ≠ .ended outcome)
    (left : orders ≠ []) :
    talk = [] ∧ dispatcher = { flags := project.settings.worker.flags } ∧
      ∃ files, orders = [.compile files] := by
  cases point with
  | ordered files => exact ⟨rfl, rfl, files, rfl⟩
  | walking | compiling | compiled => exact absurd rfl left
  | questioned | asking | answered => exact absurd rfl (unasked _)
  | shown | failed => exact absurd rfl (lives _)

end Point

/-- A check that has not taken the compile result. It has a twin, and has not ended when it is
decided. -/
structure Waiting (project : Project) (location : Location) (course : Course) : Prop where
  twin : ∃ twin, Reaches project location twin ∧ Alike location course twin
  unasked : ∀ display, course.session.stage ≠ .asking display
  unshown : course.session.stage ≠ .ended (.ok ())
  kept : ∀ result outcome, Decided course.passed result → course.session.stage ≠ .ended outcome

/-- A check that has taken the compile result, and has ended with it. -/
structure Taken (project : Project) (course : Course) : Prop where
  ended : ∃ outcome, course.session.stage = .ended outcome
  stopped : course.session.station.phase ≠ .running
  shows : ∃ result, Decided course.passed result ∧ Shown project.root result.log course

variable {course next : Course} {result : CompileResult}

namespace Waiting

/-- What was proved of the twin, read as a statement about the check. -/
theorem sound (waiting : Waiting project location course) :
    ∃ talk stray, Sound project location talk stray
      { course with session := course.session.aimed (.hover location) } := by
  obtain ⟨⟨twin, reaches, alike⟩, -⟩ := waiting
  obtain ⟨talk, stray, tied, point, lives⟩ := reaches_sound twin reaches
  obtain ⟨session, passed, told⟩ := twin
  obtain ⟨-, rfl, rfl, plains⟩ := alike
  exact ⟨talk, stray, tied, plains ▸ point, lives⟩

/-- Nothing was shown. -/
theorem silent (waiting : Waiting project location course) : plainsIn course.told = [] := by
  obtain ⟨talk, stray, -, point, -⟩ := waiting.sound
  exact point.quiet waiting.unasked waiting.unshown

/-- A check that cannot be decided any more fails. -/
theorem fails (waiting : Waiting project location course)
    (undecided : ∀ result, ¬ Decided course.passed result)
    (hopeless : answersIn course.passed ≠ [] ∨ course.session.station.phase ≠ .running) : Fails course := by
  obtain ⟨talk, stray, tied, point, -⟩ := waiting.sound
  by_cases finished : ∃ outcome, course.session.stage = .ended outcome
  · obtain ⟨outcome, ended⟩ := finished
    cases outcome with
    | ok done => exact absurd ended waiting.unshown
    | error fault => exact Fails.ended course fault ended waiting.silent
  · have lives (outcome : Except Failure Unit) : course.session.stage ≠ .ended outcome :=
      fun ended => finished ⟨outcome, ended⟩
    obtain ⟨unheard, empty⟩ | ⟨result, decided, -⟩ := point.posted waiting.unasked lives
    · have stopped : course.session.station.phase ≠ .running := by
        rcases hopeless with heard | stopped
        · intro running
          apply heard
          rw [← answersIn_talkIn, tied.talks, (tied.running running).1, List.append_nil]
          exact unheard
        · exact stopped
      have none (message : Display.Message) : message ∉ course.session.station.messages := by
        rw [show course.session.station.messages = [] from empty]
        exact List.not_mem_nil
      obtain ⟨⟨twin, reaches, alike⟩, -⟩ := waiting
      apply alike.fails ⟨stopped, fun result => none _⟩
      apply doomed_fails project location twin reaches
      rw [alike.session]
      exact ⟨⟨location, rfl⟩, stopped, fun result => none _, lives _⟩
    · exact absurd (decided.of_talk tied.talks) (undecided result)

end Waiting

section Steps

/-- Only a station that runs lets something pass, and the session still waits for the same. -/
theorem step_passed (step : AnyStep course next) :
    next.passed = course.passed ∨
      course.session.station.phase = .running ∧ next.session.stage = course.session.stage := by
  cases step with
  | relay disk order rest running left => exact Or.inr ⟨running, rfl⟩
  | hear disk text running => exact Or.inr ⟨running, rfl⟩
  | walked | fail | close | proceed | interrupt => exact Or.inl rfl

/-- The lines of output of notes that are all such lines. -/
theorem plainsIn_map (lines : List String) : plainsIn (lines.map .plain) = lines := by
  simp [plainsIn]

/-- A check that takes the compile result shows its log and ends. -/
theorem proceed_shown (goal : course.session.goal = .check) (silent : plainsIn course.told = [])
    (has : course.session.HasResult result) (disk : Disk) :
    Shown course.session.project.root result.log (course.goes (course.session.proceed disk)) ∧
      (∃ outcome, (course.session.proceed disk).after.stage = .ended outcome) ∧
        (course.session.proceed disk).after.station.phase ≠ .running := by
  obtain ⟨stage, rest, posted⟩ := has
  have counts := And.intro result.log.summary_counts result.log.count_add
  have errors := result.log.errorCount_zero_iff
  have takes : course.session.proceed disk =
      { course.session with
        station := { course.session.station with messages := rest } }.showCheck result.log := by
    simp only [Session.proceed, stage, posted, Session.compiled, goal]
  have stopped := (stop_keeps { course.session.station with messages := rest }).2.2.2
  rw [takes, Session.showCheck]
  split_ifs with bad
  · refine ⟨⟨?_, fun good => absurd (errors.mpr good) bad, fun _ => rfl, counts⟩, ⟨_, rfl⟩, stopped⟩
    simp only [goes, plainsIn_append, plainsIn_map, silent]
    rfl
  · rw [not_not] at bad
    refine ⟨⟨?_, fun _ => ⟨rfl, ?_⟩, ?_, counts⟩, ⟨_, rfl⟩, stopped⟩
    · simp only [goes, plainsIn_append, plainsIn_map, silent]
      exact List.append_nil _
    · simp [goes]
    · rintro ⟨diagnostic, member, error⟩
      exact absurd error (errors.mp bad diagnostic member)

/-- A check that has not taken the compile result, and can, ends with it in the step that takes it. -/
theorem Waiting.shows (waiting : Waiting project location course) (has : course.session.HasResult result)
    (disk : Disk) :
    Shown project.root result.log (course.goes (course.session.proceed disk)) ∧
      (∃ outcome, (course.session.proceed disk).after.stage = .ended outcome) ∧
        (course.session.proceed disk).after.station.phase ≠ .running := by
  obtain ⟨talk, stray, tied, -⟩ := waiting.sound
  obtain ⟨twin, -, alike⟩ := waiting.twin
  have root : course.session.project = project := tied.project
  rw [← root]
  exact proceed_shown alike.goal waiting.silent has disk

/-- What a step of a session changes that has ended and whose station does not run: nothing of what it
waits for, and nothing is shown. -/
theorem step_ended {outcome : Except Failure Unit} (ended : course.session.stage = .ended outcome)
    (stopped : course.session.station.phase ≠ .running) (step : AnyStep course next) :
    next.session.stage = .ended outcome ∧ next.session.station.phase ≠ .running ∧
      ∃ notes, next.told = course.told ++ notes ∧ plainsIn notes = [] := by
  cases step with
  | relay disk order rest running left => exact absurd running stopped
  | hear disk text running => exact absurd running stopped
  | walked disk files =>
    have idle : course.session.walked disk files = { after := course.session } := by
      rw [Session.walked, ended]
    rw [idle]
    exact ⟨ended, stopped, [], rfl, rfl⟩
  | proceed disk =>
    have idle : course.session.proceed disk = { after := course.session } := by
      simp only [Session.proceed, ended]
    rw [idle]
    exact ⟨ended, stopped, [], rfl, rfl⟩
  | interrupt =>
    have stops : course.session.interrupt.after =
        { course.session with station := course.session.station.stop } := by
      simp only [Session.interrupt, ended]
    refine ⟨?_, ?_, _, rfl, rfl⟩
    · exact (congrArg Session.stage stops).trans ended
    · rw [goes, stops]
      exact (stop_keeps course.session.station).2.2.2
  | fail fault =>
    have idle : course.session.station.fail fault = { after := course.session.station } := by
      rw [Station.fail]
      split
      · exact absurd ‹_› stopped
      · rfl
    rw [Session.fail, idle]
    exact ⟨ended, stopped, [], rfl, rfl⟩
  | close =>
    refine ⟨ended, ?_, _, rfl, ?_⟩
    · simp only [goes, Session.close, Session.follow, Station.close]
      split
      · exact StationPhase.noConfusion
      · exact stopped
    · simp only [Session.close, Session.follow, Station.close]
      split <;> rfl

/-- What was shown stays so. -/
theorem Taken.step (taken : Taken project course) (step : AnyStep course next) : Taken project next := by
  obtain ⟨⟨outcome, ended⟩, stopped, result, decided, shown⟩ := taken
  obtain ⟨still, halted, notes, told, quiet⟩ := step_ended ended stopped step
  have stage : next.session.stage = course.session.stage := still.trans ended.symm
  have passed : next.passed = course.passed := by
    rcases step_passed step with same | ⟨running, -⟩
    · exact same
    · exact absurd running stopped
  refine ⟨⟨outcome, still⟩, halted, result, passed ▸ decided, ?_, ?_, ?_, shown.counts⟩
  · rw [told, plainsIn_append, quiet, List.append_nil]
    exact shown.lines
  · intro good
    obtain ⟨succeeded, summary⟩ := shown.succeeds good
    rw [told]
    exact ⟨stage.trans succeeded, List.mem_append_left notes summary⟩
  · intro bad
    exact stage.trans (shown.fails bad)

end Steps

end Course
end BuildWatch
