import BuildWatch.Proofs.Session.Failing

/-!
# The protocol of a session that asks about a place

Whatever the worker writes and whenever, such a session writes the compile request and then the
question, and the question only after an answer to the request was read. That answer is kept until
the session has gone on to ask, and no answer is ever dropped for a later request. The only line of
output is what the answer to the question says; and any other line that is not blank, if it comes
before that answer, ends the session without success and without output.

What passed the station agrees with the talk of the session, and a talk has one of five shapes. So
each statement is proved of the talk, and carried over by finding the place in it.
-/

namespace BuildWatch

namespace Passage

/-- A place in what passed is also a place in the talk, if its passage counts. -/
theorem talkIn_split (before after : List Passage) (passage : Passage) (counted : passage.counts = true) :
    talkIn (before ++ passage :: after) = talkIn before ++ passage :: talkIn after := by
  rw [talkIn_append, talkIn, talkIn, talkIn, List.filter_cons_of_pos counted]

/-- A place in the talk comes from a place in what passed. -/
theorem split_of_talkIn (passed before after : List Passage) (passage : Passage)
    (split : talkIn passed = before ++ passage :: after) :
    ∃ earlier later, passed = earlier ++ passage :: later ∧ talkIn earlier = before := by
  obtain ⟨first, rest, rfl, talked, others⟩ := List.filter_eq_append_iff.mp split
  obtain ⟨skipped, later, rfl, none, -, -⟩ := List.filter_eq_cons_iff.mp others
  refine ⟨first ++ skipped, later, (List.append_assoc ..).symm, ?_⟩
  have nothing : talkIn skipped = [] := List.filter_eq_nil_iff.mpr none
  rw [talkIn_append, nothing, List.append_nil]
  exact talked

end Passage

namespace Course

open Files (Disk)
open Terminal (plainsIn)
open Passage (talkIn talkIn_split split_of_talkIn linesIn linesIn_append linesIn_talkIn IsDue
  isDue_talkIn)

/-- After the second line was written, a line was heard that answers the question. -/
def Answered (passed : List Passage) (result : TooltipResult) : Prop :=
  ∃ before text after, passed = before ++ .heard text :: after ∧ (linesIn before).length = 2 ∧
    SaysTooltip text result

/-- Before an answer to the question, a line was heard that is neither blank nor the answer that was
due when it came. -/
def Strayed (passed : List Passage) : Prop :=
  ∃ before text after, passed = before ++ .heard text :: after ∧ Text.isAllBlank text = false ∧
    ¬ IsDue before text ∧ ∀ result, ¬ Answered before result

/-- The protocol of a session that asks about a place. -/
structure Protocol (project : Project) (location : Location) (course : Course) : Prop where
  /-- It writes at most the compile request, with number 1, and the question, with number 2. -/
  writes : ∃ disk files later earlier, linesIn course.passed <+:
    [compileLine project disk files, questionLine project location later earlier]
  /-- It writes the second line only after an answer to the compile request was read. -/
  waits : ∀ before disk line after, course.passed = before ++ .wrote disk line :: after →
    linesIn before ≠ [] → ∃ text, .heard text ∈ before ∧ SaysCompiled text
  /-- Nothing that its worker may answer is dropped for a later request. -/
  drops : ∀ text discarded sent,
    (course.session.station.link.dispatcher.respondLine .always text).result ≠
      .ok (.superseded discarded sent)
  /-- A compile result that was due is there until it is taken and the question is left. -/
  keeps : ∀ before text after result, course.passed = before ++ .heard text :: after →
    IsDue before text → Response.read text = .ok (.compile result) →
      .compiled result ∈ course.session.station.messages ∨
        (∃ display, course.session.stage = .asking display) ∨
          ∃ outcome, course.session.stage = .ended outcome
  /-- The only line of output is what an answer to the question says. -/
  shows : plainsIn course.told = [] ∨
    ∃ result, Answered course.passed result ∧ plainsIn course.told = [result.shown project.root]
  /-- With a stray line before the answer, it ends without success and without output. -/
  fails : Strayed course.passed → plainsIn course.told = [] ∧ Fails course

variable {project : Project} {location : Location}

/-- An answer to the question in the talk was heard. -/
theorem Answered.of_talkIn {passed : List Passage} {result : TooltipResult}
    (answered : Answered (talkIn passed) result) : Answered passed result := by
  obtain ⟨before, text, after, split, lines, answers⟩ := answered
  obtain ⟨earlier, later, same, rfl⟩ := split_of_talkIn passed before after _ split
  rw [linesIn_talkIn] at lines
  exact ⟨earlier, text, later, same, lines, answers⟩

namespace Point

variable {talk : List Passage} {printed : List String} {dispatcher : Dispatcher} {orders : List Order}
  {messages : List Display.Message} {stage : Stage}

/-- The lines that are written in a talk. -/
theorem writes (point : Point project location talk printed dispatcher orders messages stage) :
    ∃ disk files later earlier, linesIn talk <+:
      [compileLine project disk files, questionLine project location later earlier] := by
  induction point with
  | walking | ordered => exact ⟨Disk.bare, [], Disk.bare, Disk.bare, List.nil_prefix⟩
  | compiling disk files | compiled disk files | questioned disk files =>
    exact ⟨disk, files, Disk.bare, Disk.bare, _, rfl⟩
  | asking disk files text reply later earlier | answered disk files text reply later earlier
  | shown disk files text reply later earlier =>
    exact ⟨disk, files, later, earlier, List.prefix_rfl⟩
  | failed talk dispatcher orders others messages rest stage point fault inductionHypothesis =>
    exact inductionHypothesis

/-- Before any line but the first was written in a talk, an answer to the compile request was heard. -/
theorem waits (point : Point project location talk printed dispatcher orders messages stage)
    {before after : List Passage} {disk : Disk} {line : String}
    (split : talk = before ++ .wrote disk line :: after) (begun : linesIn before ≠ []) :
    ∃ text, .heard text ∈ before ∧ SaysCompiled text := by
  -- The line stands behind the first answer, since it is neither the first line nor that answer.
  have behind (first : Passage) (text : String) (rest : List Passage) (reply : SaysCompiled text)
      (place : first :: .heard text :: rest = before ++ .wrote disk line :: after) :
      ∃ text, .heard text ∈ before ∧ SaysCompiled text := by
    rcases before with _ | ⟨head, _ | ⟨second, others⟩⟩
    · exact absurd rfl begun
    · simp at place
    · simp only [List.cons_append, List.cons.injEq] at place
      exact ⟨text, by simp [← place.2.1], reply⟩
  induction point with
  | walking | ordered => simp at split
  | compiling first files =>
    cases before with
    | nil => exact absurd rfl begun
    | cons head others => simp at split
  | compiled first files text result read same => exact behind _ _ _ ⟨result, read, same⟩ split
  | questioned first files text reply | asking first files text reply
  | answered first files text reply | shown first files text reply =>
    exact behind _ _ _ reply split
  | failed talk dispatcher orders others messages rest stage point fault inductionHypothesis =>
    exact inductionHypothesis split

/-- The answer to the compile request is due behind its line, and any other line that is heard comes
later. -/
theorem opening {before after rest : List Passage} {disk : Disk} {line reply text : String}
    (answers : SaysCompiled reply)
    (split : .wrote disk line :: .heard reply :: rest = before ++ .heard text :: after) :
    IsDue before text ∨ ∃ others, before = .wrote disk line :: .heard reply :: others ∧
      rest = others ++ .heard text :: after := by
  rcases before with _ | ⟨head, _ | ⟨second, others⟩⟩
  · simp at split
  · simp only [List.cons_append, List.nil_append, List.cons.injEq, Passage.heard.injEq] at split
    obtain ⟨rfl, rfl, -⟩ := split
    obtain ⟨result, read, same⟩ := answers
    exact Or.inl ⟨_, read, by simp [Passage.dueAfter, linesIn, Passage.writtenIn, Passage.answersIn,
      Response.id, Response.kind, same]⟩
  · simp only [List.cons_append, List.cons.injEq] at split
    obtain ⟨rfl, rfl, others⟩ := split
    exact Or.inr ⟨_, rfl, others⟩

/-- The answer to the question is due behind both lines. -/
theorem closing {before after : List Passage} {disk later : Disk}
    {line reply asked answer text : String} {result : TooltipResult} (first : SaysCompiled reply)
    (answers : SaysTooltip answer result)
    (split : [.wrote disk line, .heard reply, .wrote later asked, .heard answer] =
      before ++ .heard text :: after) : IsDue before text := by
  obtain due | ⟨others, rfl, rest⟩ := opening first split
  · exact due
  · rcases others with _ | ⟨head, _ | ⟨second, more⟩⟩
    · simp at rest
    · simp only [List.cons_append, List.nil_append, List.cons.injEq, Passage.heard.injEq] at rest
      obtain ⟨rfl, rfl, -⟩ := rest
      obtain ⟨compiled, read, -⟩ := first
      have spoken := Response.read_spoken reply _ read
      exact ⟨_, answers.1, by simp [Passage.dueAfter, linesIn, Passage.writtenIn, Passage.answersIn,
        spoken, Response.id, Response.kind, answers.2]⟩
    · simp at rest

/-- Every line that is heard in a talk is due. -/
theorem dues (point : Point project location talk printed dispatcher orders messages stage)
    {before after : List Passage} {text : String} (split : talk = before ++ .heard text :: after) :
    IsDue before text := by
  induction point with
  | walking | ordered => simp at split
  | compiling => cases before <;> simp at split
  | compiled disk files reply result read same =>
    obtain due | ⟨others, -, rest⟩ := opening ⟨result, read, same⟩ split
    · exact due
    · simp at rest
  | questioned disk files reply answers =>
    obtain due | ⟨others, -, rest⟩ := opening answers split
    · exact due
    · simp at rest
  | asking disk files reply answers =>
    obtain due | ⟨others, -, rest⟩ := opening answers split
    · exact due
    · cases others <;> simp at rest
  | answered disk files reply first later earlier answer result answers
  | shown disk files reply first later earlier answer result answers =>
    exact closing first answers split
  | failed talk dispatcher orders others messages rest stage point fault inductionHypothesis =>
    exact inductionHypothesis split

/-- A compile result that was heard is there until it is taken. -/
theorem keeps (point : Point project location talk printed dispatcher orders messages stage)
    {before after : List Passage} {text : String} {result : CompileResult}
    (split : talk = before ++ .heard text :: after)
    (read : Response.read text = .ok (.compile result)) :
    .compiled result ∈ messages ∨ (∃ display, stage = .asking display) ∨
      ∃ outcome, stage = .ended outcome := by
  cases point with
  | walking | ordered => simp at split
  | compiling => cases before <;> simp at split
  | compiled first files reply kept decoded same =>
    have heard : reply = text := by
      rcases before with _ | ⟨head, _ | ⟨second, others⟩⟩
      · simp at split
      · simp only [List.cons_append, List.nil_append, List.cons.injEq, Passage.heard.injEq] at split
        exact split.2.1
      · simp at split
    rw [heard, read] at decoded
    simp only [Except.ok.injEq, Response.compile.injEq] at decoded
    exact Or.inl (by simp [decoded])
  | questioned | asking | answered => exact Or.inr (Or.inl ⟨_, rfl⟩)
  | shown | failed => exact Or.inr (Or.inr ⟨_, rfl⟩)

/-- The line of output of a talk is what an answer to the question says. -/
theorem shows (point : Point project location talk printed dispatcher orders messages stage) :
    printed = [] ∨ ∃ result, Answered talk result ∧ printed = [result.shown project.root] := by
  cases point with
  | shown disk files text reply later earlier answer result answers =>
    exact Or.inr ⟨result, ⟨[_, _, _], answer, [], rfl, rfl, answers⟩, rfl⟩
  | _ => exact Or.inl rfl

/-- Before an answer to the question was heard, a session has not succeeded, and no such answer is
among the messages that it may still take. -/
theorem unanswered (point : Point project location talk printed dispatcher orders messages stage)
    (none : ∀ result, ¬ Answered talk result) :
    (∃ fault, stage = .ended (.error fault)) ∨
      stage ≠ .ended (.ok ()) ∧ ∀ result, .tooltip result ∉ messages := by
  cases point with
  | failed talk dispatcher orders others messages rest stage point fault => exact Or.inl ⟨fault, rfl⟩
  | answered disk files text reply later earlier answer result answers
  | shown disk files text reply later earlier answer result answers =>
    exact absurd ⟨[_, _, _], answer, [], rfl, rfl, answers⟩ (none result)
  | asking disk files text reply later earlier display messages announced =>
    cases announced <;> exact Or.inr ⟨by simp, by simp⟩
  | _ => exact Or.inr ⟨by simp, by simp⟩

end Point

/-- A place in what passed is a place in the talk, or that of the stray line behind it. -/
theorem Tied.places {talk stray before after : List Passage} {session : Session} {passage : Passage}
    (tied : Tied project location talk stray session (before ++ passage :: after))
    (counted : passage.counts = true) :
    (∃ rest, talk = talkIn before ++ passage :: rest) ∨ talkIn before = talk ∧ stray = [passage] := by
  have talks := tied.talks
  rw [talkIn_split before after passage counted] at talks
  rcases tied.strays with _ | ⟨text, spoken, undue⟩
  · rw [List.append_nil] at talks
    exact Or.inl ⟨_, talks.symm⟩
  · obtain ⟨rest, same, others⟩ | ⟨rest, same, others⟩ := List.append_eq_append_iff.mp talks
    · cases rest with
      | nil =>
        obtain ⟨rfl, -⟩ := List.cons.inj others
        exact Or.inr ⟨by rw [same, List.append_nil], rfl⟩
      | cons head more =>
        obtain ⟨rfl, -⟩ := List.cons.inj others
        exact Or.inl ⟨more, same⟩
    · cases rest with
      | nil =>
        obtain ⟨rfl, -⟩ := List.cons.inj others
        exact Or.inr ⟨by rw [same, List.append_nil], rfl⟩
      | cons head more => simp at others

/-- A session that heard a stray line before the answer ends without success and without output.

Proof: the stray line is none of the talk, where every line is due, so it stands behind it. Only a
station that has failed has heard such a line; and the talk, which is all that came before, has no
answer to the question. So no answer is among the messages, and the session is doomed. -/
theorem Sound.fails {talk stray : List Passage} {course : Course}
    (sound : Sound project location talk stray course) (reaches : Reaches project location course)
    (strayed : Strayed course.passed) : plainsIn course.told = [] ∧ Fails course := by
  obtain ⟨tied, point, -⟩ := sound
  obtain ⟨session, passed, told⟩ := course
  obtain ⟨before, text, after, rfl, spoken, undue, unanswered⟩ := strayed
  obtain ⟨rest, place⟩ | ⟨place, alone⟩ := tied.places (by simp [Passage.counts, spoken])
  · exact absurd ((isDue_talkIn before text).mp (point.dues place)) undue
  · have none (result : TooltipResult) : ¬ Answered talk result := by
      intro answered
      exact unanswered result (Answered.of_talkIn (place ▸ answered))
    have silent : plainsIn told = [] := by
      obtain silent | ⟨result, answered, -⟩ := point.shows
      · exact silent
      · exact absurd answered (none result)
    refine ⟨silent, ?_⟩
    obtain ⟨fault, ended⟩ | ⟨unfinished, messages⟩ := point.unanswered none
    · exact Fails.ended _ fault ended silent
    · have stopped : session.station.phase ≠ .running := by
        intro running
        have heard := (tied.running running).1
        rw [alone] at heard
        exact absurd heard (List.cons_ne_nil _ _)
      exact doomed_fails project location _ reaches
        ⟨⟨location, tied.goal⟩, stopped, messages, unfinished⟩

/-- **A session that asks about a place keeps to its protocol.** Whatever the worker writes, whenever
it fails, and however the steps of the session, its station and the user interleave.

Proof: every session that is reached is sound, so that what passed its station is a talk with at most
one stray line behind it. A place in what passed is a place in the talk, or that of the stray line,
which is neither written nor due. -/
theorem sessions_follow_protocol (course : Course) (reaches : Reaches project location course) :
    Protocol project location course := by
  obtain ⟨talk, stray, sound⟩ := reaches_sound course reaches
  obtain ⟨tied, point, -⟩ := id sound
  obtain ⟨session, passed, told⟩ := course
  have recorded {result : TooltipResult} (answered : Answered talk result) : Answered passed result := by
    obtain ⟨before, text, after, rfl, answers⟩ := answered
    apply Answered.of_talkIn
    rw [tied.talks]
    exact ⟨before, text, after ++ stray, by simp, answers⟩
  constructor
  case writes =>
    have lines : linesIn passed = linesIn talk := by
      rw [← linesIn_talkIn, tied.talks, linesIn_append]
      cases tied.strays <;> simp [linesIn, Passage.writtenIn]
    rw [lines]
    exact point.writes
  case waits =>
    rintro before disk line after rfl begun
    rw [← linesIn_talkIn] at begun
    obtain ⟨rest, place⟩ | ⟨-, place⟩ := tied.places rfl
    · obtain ⟨text, heard, answers⟩ := point.waits place begun
      exact ⟨text, List.mem_of_mem_filter heard, answers⟩
    · have strays := tied.strays
      rw [place] at strays
      cases strays
  case drops =>
    intro text
    exact Dispatcher.respondLine_alone _ text point.alone
  case keeps =>
    rintro before text after result rfl due read
    have spoken := Response.read_spoken text _ read
    obtain ⟨rest, place⟩ | ⟨place, alone⟩ := tied.places (by simp [Passage.counts, spoken])
    · exact point.keeps place read
    · have strays := tied.strays
      rw [alone] at strays
      cases strays with
      | one _ _ undue => exact absurd ((isDue_talkIn before text).mpr due) (place ▸ undue)
  case shows =>
    obtain silent | ⟨result, answered, printed⟩ := point.shows
    · exact Or.inl silent
    · exact Or.inr ⟨result, recorded answered, printed⟩
  case fails =>
    intro strayed
    exact sound.fails reaches strayed

/-- The place that the session below asks about. -/
def place : Location := ⟨⟨"/p/a.sk"⟩, 1, 1⟩

/-- The project of the session below. -/
def hoverProject : Project where
  arguments := { job := .hover place }
  settings := {}
  root := ⟨"/p"⟩
  settingsPath := ⟨"/p/kiln.toml"⟩

/-- A session that is answered shows the answer, which came after both of its lines. -/
theorem answer_shown :
    ∃ course result, Reaches hoverProject place course ∧ plainsIn course.told = ["int"] ∧
      Answered course.passed result := by
  have fresh : Reaches hoverProject place _ := Reaches.start
  have walked := Reaches.step _ _ fresh (Step.walked _ Disk.bare [] trivial)
  have ordered := Reaches.step _ _ walked (Step.relay _ Disk.bare _ _ rfl rfl)
  have heard := Reaches.step _ _ ordered
    (Step.hear _ Disk.bare (Response.written (.compile ⟨1, {}⟩)) rfl)
  have questioned := Reaches.step _ _ heard (Step.proceed _ Disk.bare)
  have asked := Reaches.step _ _ questioned (Step.relay _ Disk.bare _ _ rfl rfl)
  have answered := Reaches.step _ _ asked
    (Step.hear _ Disk.bare (Response.written (.tooltip ⟨2, none, some "int"⟩)) rfl)
  have announced := Reaches.step _ _ answered (Step.proceed _ Disk.bare)
  have shown := Reaches.step _ _ announced (Step.proceed _ Disk.bare)
  obtain silent | ⟨result, answers, -⟩ := (sessions_follow_protocol _ shown).shows
  · exact absurd silent (List.cons_ne_nil "int" [])
  · exact ⟨_, result, shown, rfl, answers⟩

end Course
end BuildWatch
