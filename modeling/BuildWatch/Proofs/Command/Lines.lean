import BuildWatch.Command
import BuildWatch.Proofs.Location.Grammar

/-!
# What typed lines ask for

What a line asks for is decided by what is left of it without the blank characters at its ends.
If that is one word, it may be one for rebuilding. If it begins with a word for a question, what
follows is read as a location. All other lines are errors, except blank ones, which ask for
nothing. A question that is put together from a location is read as being about that location.
-/

namespace BuildWatch.Command

open Text (AllBlank EndsSolid OpensSolid OpensWith Trims firstWord isBlank trimmed)

/-- The words for a question. -/
def IsHoverWord (word : List Char) : Prop := word = "hover".toList ∨ word = "h".toList

instance (word : List Char) : Decidable (IsHoverWord word) := inferInstanceAs (Decidable (_ ∨ _))

/-- The words for rebuilding. -/
def IsRebuildWord (word : List Char) : Prop := word = "rebuild".toList ∨ word = "r".toList

instance (word : List Char) : Decidable (IsRebuildWord word) := inferInstanceAs (Decidable (_ ∨ _))

/-- A text asks about a location: its first word is one for a question, and what follows, without
the blank characters at its ends, is read as the location. -/
def AsksAbout (core : List Char) (location : Location) : Prop :=
  ∃ word rest inner, OpensWith core word rest ∧ IsHoverWord word ∧ Trims rest inner ∧
    Location.read (String.ofList inner) = .ok location

/-- What comes of a line with a word for a question, given what is left of it behind the word. -/
def question (text : List Char) : Except CommandError (Option Command) :=
  match Location.readTrimmed text with
  | .ok location => .ok (some (.hover location))
  | .error cause => .error (.location cause)

theorem question_ok_iff (text : List Char) (command : Option Command) :
    question text = .ok command ↔
      ∃ location, Location.readTrimmed text = .ok location ∧ command = some (.hover location) := by
  rw [question]
  cases Location.readTrimmed text <;> simp [eq_comm]

section

variable {core word rest : List Char}

/-- What follows the first word of a text without blank characters at its end is not blank. -/
theorem rest_blank_iff (ends : EndsSolid core) (opens : OpensWith core word rest) :
    trimmed rest = [] ↔ rest = [] := by
  rw [Text.trimmed_eq_nil_iff]
  constructor
  · intro blank
    by_contra more
    have last := List.getLast?_eq_some_getLast more
    have solid := ends (rest.getLast more) (by
      rw [opens.text, List.getLast?_append_of_ne_nil _ more, last]
      rfl)
    rw [blank _ (List.getLast_mem more)] at solid
    exact absurd solid (by decide)
  · rintro rfl
    exact .nil

theorem rebuildWord_solid (word : List Char) (rebuilds : IsRebuildWord word) :
    OpensWith word word [] ∧ word ≠ [] ∧ ¬ IsHoverWord word := by
  rcases rebuilds with rfl | rfl <;> exact ⟨⟨by simp, by simp [isBlank], by simp⟩, by decide, by decide⟩

/-- A text is one word for rebuilding when its first word is one and nothing follows that. -/
theorem rebuilds_iff (ends : EndsSolid core) (opens : OpensWith core word rest) :
    IsRebuildWord word ∧ trimmed rest = [] ↔ IsRebuildWord core := by
  rw [rest_blank_iff ends opens]
  constructor
  · rintro ⟨rebuilds, rfl⟩
    rwa [opens.text, List.append_nil]
  · intro rebuilds
    have whole := (Text.opensWith_iff _ _ _).mp (rebuildWord_solid core rebuilds).1
    rw [(Text.opensWith_iff _ _ _).mp opens, Prod.mk.injEq] at whole
    obtain ⟨rfl, rfl⟩ := whole
    exact ⟨rebuilds, rfl⟩

/-- A line is read by what is left of it and by the first word of that. -/
theorem read_eq (line : String) (trims : Trims line.toList core) (opens : OpensWith core word rest) :
    read line =
      if core = [] then .ok none
      else if IsHoverWord word then question (trimmed rest)
      else if IsRebuildWord core then .ok (some .rebuild)
      else .error (.unknown (String.ofList core)) := by
  have rebuilds := rebuilds_iff trims.ends opens
  obtain rfl := (Text.trims_iff _ _).mp trims
  have cut := (Text.opensWith_iff _ _ _).mp opens
  simp only [read, cut, ← rebuilds, question, List.isEmpty_iff, Bool.or_eq_true, Bool.and_eq_true,
    decide_eq_true_eq]
  rfl

end

variable (line : String)

theorem read_blank_iff (core : List Char) (trims : Trims line.toList core) :
    read line = .ok none ↔ core = [] := by
  rw [read_eq line trims ((Text.opensWith_iff _ _ _).mpr rfl)]
  split_ifs <;> simp_all [question_ok_iff]

theorem read_rebuild_iff (core : List Char) (trims : Trims line.toList core) :
    read line = .ok (some .rebuild) ↔ IsRebuildWord core := by
  have opens : OpensWith core (firstWord core).1 (firstWord core).2 := (Text.opensWith_iff _ _ _).mpr rfl
  have apart (rebuilds : IsRebuildWord core) : core ≠ [] ∧ ¬ IsHoverWord (firstWord core).1 := by
    obtain ⟨whole, nonempty, noHover⟩ := rebuildWord_solid core rebuilds
    refine ⟨nonempty, ?_⟩
    rwa [(Text.opensWith_iff _ _ _).mp whole]
  rw [read_eq line trims opens]
  split_ifs <;> simp_all [question_ok_iff]

theorem read_hover_iff (core : List Char) (trims : Trims line.toList core) (location : Location) :
    read line = .ok (some (.hover location)) ↔ AsksAbout core location := by
  have opens : OpensWith core (firstWord core).1 (firstWord core).2 := (Text.opensWith_iff _ _ _).mpr rfl
  have asks : AsksAbout core location ↔ IsHoverWord (firstWord core).1 ∧
      Location.readTrimmed (trimmed (firstWord core).2) = .ok location := by
    constructor
    · rintro ⟨word, rest, inner, first, hovers, left, read⟩
      obtain rfl := (Text.trims_iff _ _).mp left
      rw [(Text.opensWith_iff _ _ _).mp first]
      rw [Location.read, String.toList_ofList, Text.trimmed_trimmed] at read
      exact ⟨hovers, read⟩
    · rintro ⟨hovers, read⟩
      refine ⟨_, _, _, opens, hovers, Text.trims_trimmed _, ?_⟩
      rw [Location.read, String.toList_ofList, Text.trimmed_trimmed, read]
  have nonempty (hovers : IsHoverWord (firstWord core).1) : core ≠ [] := by
    rintro rfl
    revert hovers
    decide
  rw [read_eq line trims opens, asks]
  split_ifs <;> simp_all [question_ok_iff]

/-- Blank characters around a line make no difference. -/
theorem read_around (before after : String) (blank : AllBlank before.toList)
    (blank' : AllBlank after.toList) : read (before ++ line ++ after) = read line := by
  have same : trimmed (before ++ line ++ after).toList = trimmed line.toList := by
    rw [String.toList_append, String.toList_append, Text.trimmed_around _ _ _ blank blank']
  rw [read, read, same]

/-- A word for a question, blank characters and the written form of a location ask about it, and
neither begin nor end blank. -/
theorem asks_written (location : Location) (word between : List Char) (hovers : IsHoverWord word)
    (blank : AllBlank between) (apart : between ≠ []) (path : String) (text : location.path = ⟨path⟩)
    (there : path.toList ≠ []) (opens : OpensSolid path.toList) (lines : location.line ≠ 0)
    (columns : location.column ≠ 0) :
    AsksAbout (word ++ (between ++ location.written.toList)) location ∧
      Trims (word ++ (between ++ location.written.toList))
        (word ++ (between ++ location.written.toList)) := by
  have own := Location.Pieces.ofPlace_trims _ location.line location.column there opens
  have reads := Location.readTrimmed_place _ location.line location.column there lines columns
  have written : location.written =
      path ++ ":" ++ toString location.line ++ ":" ++ toString location.column := by
    rw [Location.written, text, Path.text, Text.shown_bytes]
  rw [← Location.Pieces.ofPlace_text, ← written] at own reads
  have nonempty : location.written.toList ≠ [] := by simp [Location.written]
  have solid : word ≠ [] ∧ ∀ c ∈ word, isBlank c = false := by
    rcases hovers with rfl | rfl <;> simp [isBlank]
  have first : OpensWith (word ++ (between ++ location.written.toList)) word
      (between ++ location.written.toList) := by
    refine ⟨rfl, solid.2, fun c member => blank c ?_⟩
    rw [List.head?_append_of_ne_nil _ apart] at member
    exact List.mem_of_head? member
  have left : Trims (between ++ location.written.toList) location.written.toList := by
    have around := own.within blank .nil
    rwa [List.append_nil] at around
  constructor
  · refine ⟨_, _, _, first, hovers, left, ?_⟩
    rw [Location.read, String.toList_ofList, ← (Text.trims_iff _ _).mp own, reads, ← text]
  · have begins : OpensSolid word := fun c member => solid.2 c (List.mem_of_head? member)
    have ends : EndsSolid (between ++ location.written.toList) := own.ends.append nonempty between
    exact .own (begins.append solid.1 _) (ends.append (List.append_ne_nil_of_left_ne_nil apart _) _)

/-- A question that is put together from a location is read as being about it. -/
theorem read_question (location : Location) (word before between after : String)
    (hovers : IsHoverWord word.toList) (blank : AllBlank before.toList)
    (blank' : AllBlank between.toList) (apart : between.toList ≠ []) (blank'' : AllBlank after.toList)
    (path : String) (text : location.path = ⟨path⟩) (there : path.toList ≠ [])
    (opens : OpensSolid path.toList) (lines : location.line ≠ 0) (columns : location.column ≠ 0) :
    read (before ++ word ++ between ++ location.written ++ after) = .ok (some (.hover location)) := by
  obtain ⟨asks, core⟩ :=
    asks_written location _ _ hovers blank' apart path text there opens lines columns
  have cut : (word ++ between ++ location.written).toList =
      word.toList ++ (between.toList ++ location.written.toList) := by
    rw [String.toList_append, String.toList_append, List.append_assoc]
  rw [← cut] at core
  have whole := read_around (word ++ between ++ location.written) before after blank blank''
  simp only [← String.append_assoc] at whole
  rw [whole]
  exact (read_hover_iff _ _ core location).mpr (cut ▸ asks)

/-- **What a typed line asks for.** A word for a question, blank characters and the written form of
a location ask about that location, with any blank characters around them, if the path is a text
that begins with a character that is not blank and both numbers count from one.

A line asks for nothing exactly when it is blank. Take what is left of it without the blank
characters at its ends. It asks for rebuilding exactly when that is a word for it, and about a
location exactly when the first word is one for a question and what follows is read as the
location. It is an error exactly when it is none of these, and blank characters around it make
no difference. -/
theorem typed_lines_classified :
    (∀ (location : Location) (word before between after : String), IsHoverWord word.toList →
      AllBlank before.toList → AllBlank between.toList → between.toList ≠ [] → AllBlank after.toList →
      ∀ path : String, location.path = ⟨path⟩ → path.toList ≠ [] → OpensSolid path.toList →
      location.line ≠ 0 → location.column ≠ 0 →
        read (before ++ word ++ between ++ location.written ++ after) = .ok (some (.hover location))) ∧
    ∀ line : String, ∃ core, Trims line.toList core ∧
      (read line = .ok none ↔ AllBlank line.toList) ∧
      (read line = .ok (some .rebuild) ↔ IsRebuildWord core) ∧
      (∀ location, read line = .ok (some (.hover location)) ↔ AsksAbout core location) ∧
      ((∃ cause, read line = .error cause) ↔
        ¬ AllBlank line.toList ∧ ¬ IsRebuildWord core ∧ ∀ location, ¬ AsksAbout core location) ∧
      ∀ before after : String, AllBlank before.toList → AllBlank after.toList →
        read (before ++ line ++ after) = read line := by
  refine ⟨read_question, fun line => ?_⟩
  have trims := Text.trims_trimmed line.toList
  have nothing : read line = .ok none ↔ AllBlank line.toList := by
    rw [read_blank_iff line _ trims, Text.trimmed_eq_nil_iff]
  have rebuilds := read_rebuild_iff line _ trims
  have asks := read_hover_iff line _ trims
  refine ⟨_, trims, nothing, rebuilds, asks, ?_, read_around line⟩
  rw [← nothing, ← rebuilds]
  simp only [← asks]
  cases read line with
  | error cause => simp
  | ok command =>
    cases command with
    | none => simp
    | some command => cases command <;> simp

end BuildWatch.Command
