import BuildWatch.Location
import BuildWatch.Proofs.Text.Numeral

/-!
# Which texts are locations

A location is written as a path, a line and a column, with a colon between two of them. Numerals
hold no colons, so the last two colons of a text are the only place where it can be cut, even
though a path may hold more. Hence a text is written in at most one way, and what it is read as
is decided by that: a location, a place with a zero in it, or nothing of the kind.
-/

namespace BuildWatch.Location

open Text (Numeral Trims trimmed)

/-- The three texts that a location is written with. -/
structure Pieces where
  path : List Char
  line : List Char
  column : List Char
  deriving DecidableEq

namespace Pieces

/-- The pieces with colons between them. -/
def text (pieces : Pieces) : List Char :=
  pieces.path ++ ':' :: (pieces.line ++ ':' :: pieces.column)

/-- The pieces say a line and a column of 32 bits, and there is a path. -/
structure Say (pieces : Pieces) (line column : UInt32) : Prop where
  path : pieces.path ≠ []
  line : Numeral pieces.line line.toNat
  column : Numeral pieces.column column.toNat

/-- A text is cut at its last two colons. -/
theorem cut?_iff (text : List Char) (pieces : Pieces) :
    cut? text = some (pieces.path, pieces.line, pieces.column) ↔
      text = pieces.text ∧ ':' ∉ pieces.line ∧ ':' ∉ pieces.column := by
  constructor
  · intro cut
    rw [cut?] at cut
    split at cut
    · simp at cut
    · rename_i front column last
      split at cut
      · simp at cut
      · rename_i path line middle
        simp only [Option.some.injEq, Prod.mk.injEq] at cut
        obtain ⟨rfl, rfl, rfl⟩ := cut
        obtain ⟨rfl, noColon⟩ := (Path.cutLast_eq_some_iff _ _ _ _).mp last
        obtain ⟨rfl, noColon'⟩ := (Path.cutLast_eq_some_iff _ _ _ _).mp middle
        exact ⟨by simp [Pieces.text], noColon', noColon⟩
  · rintro ⟨rfl, noColon', noColon⟩
    have last : Path.cutLast ':' pieces.text =
        some (pieces.path ++ ':' :: pieces.line, pieces.column) :=
      (Path.cutLast_eq_some_iff _ _ _ _).mpr ⟨by simp [Pieces.text], noColon⟩
    have middle : Path.cutLast ':' (pieces.path ++ ':' :: pieces.line) =
        some (pieces.path, pieces.line) :=
      (Path.cutLast_eq_some_iff _ _ _ _).mpr ⟨rfl, noColon'⟩
    simp only [cut?, last, middle]

variable {pieces other : Pieces} {line column line' column' : UInt32}

theorem Say.cut (say : pieces.Say line column) :
    cut? pieces.text = some (pieces.path, pieces.line, pieces.column) :=
  (cut?_iff _ pieces).mpr ⟨rfl, say.line.noColon, say.column.noColon⟩

/-- A text is written in at most one way. -/
theorem Say.unique (say : pieces.Say line column) (say' : other.Say line' column')
    (same : pieces.text = other.text) : pieces = other ∧ line = line' ∧ column = column' := by
  have cut := say.cut
  rw [same, say'.cut, Option.some.injEq, Prod.mk.injEq, Prod.mk.injEq] at cut
  obtain ⟨path, lines, columns⟩ := cut
  obtain rfl : pieces = other := by
    cases pieces
    cases other
    simp_all
  exact ⟨rfl, UInt32.toNat_inj.mp (say.line.unique say'.line),
    UInt32.toNat_inj.mp (say.column.unique say'.column)⟩

/-- What the pieces say is read. -/
theorem Say.read (say : pieces.Say line column) :
    readTrimmed pieces.text =
      if line = 0 ∨ column = 0 then .error (.zero (String.ofList pieces.text))
      else .ok ⟨⟨String.ofList pieces.path⟩, line, column⟩ := by
  have lines := (Text.word32?_iff _ _).mpr say.line
  have columns := (Text.word32?_iff _ _).mpr say.column
  rw [readTrimmed, say.cut]
  simp only [List.isEmpty_iff, say.path, if_false, lines, columns]

/-- The text ends with a character of a numeral. -/
theorem Say.ends (say : pieces.Say line column) : Text.EndsSolid pieces.text := by
  have solid : Text.EndsSolid pieces.column := fun c member =>
    say.column.solid c (List.mem_of_getLast? member)
  have cut : pieces.text = (pieces.path ++ ':' :: (pieces.line ++ [':'])) ++ pieces.column := by
    simp [text]
  rw [cut]
  exact solid.append say.column.nonempty _

end Pieces

/-- A text that says no place is malformed. -/
theorem readTrimmed_malformed (text : List Char)
    (silent : ∀ pieces : Pieces, ∀ line column, text = pieces.text → ¬ pieces.Say line column) :
    readTrimmed text = .error (.malformed (String.ofList text)) := by
  rw [readTrimmed]
  cases cut : cut? text with
  | none => rfl
  | some parts =>
    obtain ⟨path, line, column⟩ := parts
    have whole := ((Pieces.cut?_iff text ⟨path, line, column⟩).mp cut).1
    by_cases empty : path.isEmpty = true
    · simp only [empty, if_true]
    · simp only [empty, Bool.false_eq_true, if_false]
      split
      · rename_i one other lines columns
        have say : Pieces.Say ⟨path, line, column⟩ one other :=
          ⟨by simpa using empty, (Text.word32?_iff _ _).mp lines, (Text.word32?_iff _ _).mp columns⟩
        exact absurd say (silent _ _ _ whole)
      · rfl

/-- A text is written as a place, or says none. -/
theorem says_or_silent (text : List Char) :
    (∃ pieces : Pieces, ∃ line column, text = pieces.text ∧ pieces.Say line column) ∨
      ∀ pieces : Pieces, ∀ line column, text = pieces.text → ¬ pieces.Say line column := by
  rw [or_iff_not_imp_left]
  intro none pieces line column whole say
  exact none ⟨pieces, line, column, whole, say⟩

theorem readTrimmed_ok_iff (text : List Char) (location : Location) :
    readTrimmed text = .ok location ↔
      ∃ pieces : Pieces, text = pieces.text ∧ location.path = ⟨String.ofList pieces.path⟩ ∧
        pieces.Say location.line location.column ∧ location.line ≠ 0 ∧ location.column ≠ 0 := by
  constructor
  · intro read
    rcases says_or_silent text with ⟨pieces, line, column, rfl, say⟩ | silent
    · rw [say.read] at read
      split at read
      · simp at read
      · rename_i positive
        obtain rfl := Except.ok.inj read
        obtain ⟨lines, columns⟩ := not_or.mp positive
        exact ⟨pieces, rfl, rfl, say, lines, columns⟩
    · simp [readTrimmed_malformed text silent] at read
  · rintro ⟨pieces, rfl, path, say, lines, columns⟩
    rw [say.read, if_neg (not_or.mpr ⟨lines, columns⟩), ← path]

theorem readTrimmed_zero_iff (text : List Char) (carried : String) :
    readTrimmed text = .error (.zero carried) ↔ carried.toList = text ∧
      ∃ pieces : Pieces, ∃ line column, text = pieces.text ∧ pieces.Say line column ∧
        (line = 0 ∨ column = 0) := by
  constructor
  · intro read
    rcases says_or_silent text with ⟨pieces, line, column, rfl, say⟩ | silent
    · rw [say.read] at read
      split at read
      · rename_i zero
        simp only [Except.error.injEq, LocationError.zero.injEq] at read
        obtain rfl := read
        exact ⟨String.toList_ofList, pieces, line, column, rfl, say, zero⟩
      · simp at read
    · simp [readTrimmed_malformed text silent] at read
  · rintro ⟨rfl, pieces, line, column, whole, say, zero⟩
    rw [whole, say.read, if_pos zero, ← whole, String.ofList_toList]

theorem readTrimmed_malformed_iff (text : List Char) (carried : String) :
    readTrimmed text = .error (.malformed carried) ↔ carried.toList = text ∧
      ∀ pieces : Pieces, ∀ line column, text = pieces.text → ¬ pieces.Say line column := by
  constructor
  · intro read
    rcases says_or_silent text with ⟨pieces, line, column, rfl, say⟩ | silent
    · rw [say.read] at read
      split at read <;> simp at read
    · rw [readTrimmed_malformed text silent, Except.error.injEq, LocationError.malformed.injEq] at read
      exact ⟨read ▸ String.toList_ofList, silent⟩
  · rintro ⟨rfl, silent⟩
    rw [readTrimmed_malformed _ silent, String.ofList_toList]

/-- The pieces that a place is written with. -/
def Pieces.ofPlace (path : String) (line column : UInt32) : Pieces :=
  ⟨path.toList, (toString line).toList, (toString column).toList⟩

theorem Pieces.ofPlace_say (path : String) (line column : UInt32) (there : path.toList ≠ []) :
    (Pieces.ofPlace path line column).Say line column :=
  ⟨there, Text.numeral_written _, Text.numeral_written _⟩

theorem Pieces.ofPlace_text (path : String) (line column : UInt32) :
    (path ++ ":" ++ toString line ++ ":" ++ toString column).toList =
      (Pieces.ofPlace path line column).text := by
  simp [Pieces.ofPlace, Pieces.text]

/-- What a place is written as is read as the place, when both numbers count from one. -/
theorem readTrimmed_place (path : String) (line column : UInt32) (there : path.toList ≠ [])
    (lines : line ≠ 0) (columns : column ≠ 0) :
    readTrimmed (Pieces.ofPlace path line column).text = .ok ⟨⟨path⟩, line, column⟩ := by
  have written : path = String.ofList path.toList := String.ofList_toList.symm
  exact (readTrimmed_ok_iff _ _).mpr ⟨_, rfl, congrArg (Path.mk ∘ Text.bytes) written,
    Pieces.ofPlace_say path line column there, lines, columns⟩

/-- What a place is written as neither begins nor ends blank, if its path does not begin so. -/
theorem Pieces.ofPlace_trims (path : String) (line column : UInt32) (there : path.toList ≠ [])
    (opens : Text.OpensSolid path.toList) :
    Trims (Pieces.ofPlace path line column).text (Pieces.ofPlace path line column).text :=
  .own (opens.append there _) (Pieces.ofPlace_say path line column there).ends

/-- **What a text is read as.** Take the text without the blank characters at its ends. It is a
location exactly when it is written as a path, a line and a column of 32 bits, none of them zero.
It is refused for a zero exactly when it is written so with a zero, and is malformed when it is
not written so at all; both errors carry it. There is at most one way in which it is written. -/
theorem read_as_written (text : String) :
    ∃ core, Trims text.toList core ∧ (∀ other, Trims text.toList other → other = core) ∧
      (∀ location, read text = .ok location ↔
        ∃ pieces : Pieces, core = pieces.text ∧ location.path = ⟨String.ofList pieces.path⟩ ∧
          pieces.Say location.line location.column ∧ location.line ≠ 0 ∧ location.column ≠ 0) ∧
      (∀ carried, read text = .error (.zero carried) ↔ carried.toList = core ∧
        ∃ pieces : Pieces, ∃ line column, core = pieces.text ∧ pieces.Say line column ∧
          (line = 0 ∨ column = 0)) ∧
      (∀ carried, read text = .error (.malformed carried) ↔ carried.toList = core ∧
        ∀ pieces : Pieces, ∀ line column, core = pieces.text → ¬ pieces.Say line column) ∧
      ∀ pieces other : Pieces, ∀ line column line' column', core = pieces.text →
        core = other.text → pieces.Say line column → other.Say line' column' →
          pieces = other ∧ line = line' ∧ column = column' :=
  ⟨trimmed text.toList, Text.trims_trimmed _, fun _ trims => (Text.trims_iff _ _).mp trims,
    readTrimmed_ok_iff _, readTrimmed_zero_iff _, readTrimmed_malformed_iff _,
    fun _ _ _ _ _ _ one two say say' => say.unique say' (one.symm.trans two)⟩

end BuildWatch.Location
