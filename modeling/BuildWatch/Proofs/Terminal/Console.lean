import BuildWatch.Terminal.Screen
import Mathlib.Data.List.Basic

/-!
# What a terminal makes of printed text

An ideal terminal has rows of any length and any number of them. A character is written where the
cursor stands, and a line feed moves the cursor to the start of the next row. Of the control
sequences three have an effect on the rows: the cursor moves up, the rows from the cursor on are
cleared, or the rest of the row is. All others, which change how later characters look, and all
other control characters have none.

What is typed to the end of the rows adds to them: a text that ends with a line feed adds its lines.
-/

namespace BuildWatch.Terminal

/-- The characters of a row. -/
abbrev Row := List Char

/-- Whether a character is a control character. -/
def isControl (mark : Char) : Bool := mark.toNat < 32 || 127 ≤ mark.toNat && mark.toNat < 160

/-- The rows of a terminal, with the cursor in one of them. -/
structure Grid where
  above : List Row
  row : Row := []
  column : Nat := 0
  below : List Row := []
  deriving DecidableEq, Repr

namespace Grid

/-- Write a character in the place of the one where the cursor stands. -/
def write (grid : Grid) (mark : Char) : Grid :=
  { grid with
    row := grid.row.take grid.column ++ List.replicate (grid.column - grid.row.length) ' ' ++
      mark :: grid.row.drop (grid.column + 1)
    column := grid.column + 1 }

/-- Move the cursor to the start of the next row. -/
def feed (grid : Grid) : Grid :=
  ⟨grid.above ++ [grid.row], grid.below.headD [], 0, grid.below.tail⟩

/-- Move the cursor up in its column, to the first row at most. -/
def up (count : Nat) (grid : Grid) : Grid :=
  let rows := grid.above ++ grid.row :: grid.below
  let position := grid.above.length - count
  ⟨rows.take position, (rows.drop position).headD [], grid.column, (rows.drop position).tail⟩

/-- Clear all from the cursor on. -/
def clearDown (grid : Grid) : Grid := { grid with row := grid.row.take grid.column, below := [] }

/-- Clear the rest of the row. -/
def clearRight (grid : Grid) : Grid := { grid with row := grid.row.take grid.column }

/-- Take a character that belongs to no control sequence. -/
def put (grid : Grid) (mark : Char) : Grid :=
  if mark = '\n' then grid.feed else if isControl mark then grid else grid.write mark

/-- Take a control sequence with its parameters. A movement by no rows is one by a single row. -/
def obey (grid : Grid) (parameters : List Char) : Char → Grid
  | 'A' => grid.up (max 1 (Nat.ofDigitChars 10 parameters 0))
  | 'J' => if parameters.isEmpty then grid.clearDown else grid
  | 'K' => if parameters.isEmpty then grid.clearRight else grid
  | _ => grid

end Grid

/-- What a terminal takes the next character for: text, the start of a control sequence, or a part
of one after some parameters. -/
inductive Mode where
  | text
  | escape
  | sequence (parameters : List Char)
  deriving DecidableEq, Repr

/-- A terminal. -/
structure Console where
  grid : Grid
  mode : Mode := .text
  deriving DecidableEq, Repr

namespace Console

/-- Take a character. A control sequence ends with the first letter or similar mark. -/
def receive (console : Console) (mark : Char) : Console :=
  match console.mode with
  | .text =>
    if mark = Char.ofNat 0x1B then { console with mode := .escape }
    else { console with grid := console.grid.put mark }
  | .escape => { console with mode := if mark = '[' then .sequence [] else .text }
  | .sequence parameters =>
    if 0x40 ≤ mark.toNat ∧ mark.toNat < 0x7F then ⟨console.grid.obey parameters mark, .text⟩
    else { console with mode := .sequence (parameters ++ [mark]) }

/-- Take a text. -/
def receiveAll (console : Console) (text : String) : Console := text.toList.foldl receive console

theorem receiveAll_empty (console : Console) : console.receiveAll "" = console := rfl

theorem receiveAll_append (console : Console) (text more : String) :
    console.receiveAll (text ++ more) = (console.receiveAll text).receiveAll more := by
  rw [receiveAll, String.toList_append, List.foldl_append]
  rfl

/-- Digits are parameters of a control sequence. -/
theorem receive_digits (grid : Grid) (taken digits : List Char)
    (all : ∀ mark ∈ digits, mark.isDigit = true) :
    digits.foldl receive ⟨grid, .sequence taken⟩ = ⟨grid, .sequence (taken ++ digits)⟩ := by
  induction digits generalizing taken with
  | nil => simp
  | cons digit rest inductionHypothesis =>
    obtain ⟨here, later⟩ := List.forall_mem_cons.mp all
    have low : ¬ (0x40 ≤ digit.toNat ∧ digit.toNat < 0x7F) := by
      have bounds : digit.toNat ≤ 57 := by
        simp only [Char.isDigit, Bool.and_eq_true, decide_eq_true_eq] at here
        exact here.2
      omega
    have step : receive ⟨grid, .sequence taken⟩ digit = ⟨grid, .sequence (taken ++ [digit])⟩ := by
      simp only [receive, low, if_false]
    rw [List.foldl_cons, step, inductionHypothesis (taken ++ [digit]) later, List.append_assoc,
      List.singleton_append]

/-- A control sequence is obeyed, and text goes on after it. -/
theorem receiveAll_control (grid : Grid) (sequence : String) (digits : List Char) (final : Char)
    (written : sequence.toList = digits ++ [final]) (all : ∀ mark ∈ digits, mark.isDigit = true)
    (ends : 0x40 ≤ final.toNat ∧ final.toNat < 0x7F) :
    receiveAll ⟨grid, .text⟩ (control sequence) = ⟨grid.obey digits final, .text⟩ := by
  have spelled : (control sequence).toList = Char.ofNat 0x1B :: '[' :: (digits ++ [final]) := by
    rw [control, String.toList_append, String.toList_append, written]
    rfl
  have opened : receive (receive ⟨grid, .text⟩ (Char.ofNat 0x1B)) '[' = ⟨grid, .sequence []⟩ := rfl
  rw [receiveAll, spelled, List.foldl_cons, List.foldl_cons, opened, List.foldl_append,
    receive_digits grid [] digits all, List.foldl_cons, List.foldl_nil]
  simp only [receive, ends, and_self, if_true, List.nil_append]

/-- Some output has the effect of typing some characters. -/
def Types (output : String) (typed : List Char) : Prop :=
  ∀ grid, receiveAll ⟨grid, .text⟩ output = ⟨typed.foldl Grid.put grid, .text⟩

theorem Types.append {output more : String} {typed others : List Char} (first : Types output typed)
    (second : Types more others) : Types (output ++ more) (typed ++ others) := by
  intro grid
  rw [receiveAll_append, first grid, second, List.foldl_append]

/-- A change of the looks types nothing. -/
theorem types_style (sequence : String) (digits : List Char)
    (written : sequence.toList = digits ++ ['m']) (all : digits.all Char.isDigit = true) :
    Types (control sequence) [] := by
  intro grid
  exact receiveAll_control grid sequence digits 'm' written (List.all_eq_true.mp all) (by decide)

end Console

/-- A text without control characters, line feeds apart. -/
def Plain (text : String) : Prop := ∀ mark ∈ text.toList, mark = '\n' ∨ isControl mark = false

instance (text : String) : Decidable (Plain text) :=
  List.decidableBAll (fun mark => mark = '\n' ∨ isControl mark = false) text.toList

theorem Plain.append {text more : String} (first : Plain text) (second : Plain more) :
    Plain (text ++ more) := by
  intro mark member
  rw [String.toList_append, List.mem_append] at member
  exact member.elim (first mark) (second mark)

/-- A text without control characters is typed as it is. -/
theorem Plain.types {text : String} (plain : Plain text) : Console.Types text text.toList := by
  intro grid
  have typed (marks : List Char) (all : ∀ mark ∈ marks, mark = '\n' ∨ isControl mark = false) :
      ∀ grid, marks.foldl Console.receive ⟨grid, .text⟩ = ⟨marks.foldl Grid.put grid, .text⟩ := by
    induction marks with
    | nil => exact fun _ => rfl
    | cons mark rest inductionHypothesis =>
      intro grid
      obtain ⟨here, later⟩ := List.forall_mem_cons.mp all
      have ordinary : mark ≠ Char.ofNat 0x1B := by
        rintro rfl
        exact absurd here (by decide)
      have step : Console.receive ⟨grid, .text⟩ mark = ⟨grid.put mark, .text⟩ := by
        simp only [Console.receive, ordinary, if_false]
      rw [List.foldl_cons, step, inductionHypothesis later, List.foldl_cons]
  exact typed text.toList plain grid

/-- A text without any control character. -/
def Inline (text : String) : Prop := ∀ mark ∈ text.toList, isControl mark = false

instance (text : String) : Decidable (Inline text) :=
  List.decidableBAll (fun mark => isControl mark = false) text.toList

theorem Inline.plain {text : String} (inline : Inline text) : Plain text := by
  intro mark member
  exact Or.inr (inline mark member)

theorem Inline.append {text more : String} (first : Inline text) (second : Inline more) :
    Inline (text ++ more) := by
  intro mark member
  rw [String.toList_append, List.mem_append] at member
  exact member.elim (first mark) (second mark)

/-- What stands in front of a text in its first line adds no line to it. -/
theorem Inline.height {text : String} (inline : Inline text) (more : String) :
    height (text ++ more) = height more := by
  have absent : '\n' ∉ text.toList := by
    intro member
    exact absurd (inline '\n' member) (by decide)
  rw [Terminal.height, Terminal.height, String.toList_append, List.count_append,
    List.count_eq_zero_of_not_mem absent, Nat.zero_add]

/-- Digits are no control characters. -/
theorem inline_number (number : Nat) : Inline (toString number) := by
  intro mark member
  rw [Nat.toString_eq_ofList_toDigits, String.toList_ofList] at member
  have digit := Nat.isDigit_of_mem_toDigits (by decide) (by decide) member
  simp only [Char.isDigit, Bool.and_eq_true, decide_eq_true_eq, ge_iff_le, UInt32.le_iff_toNat_le] at digit
  have bounds : 48 ≤ mark.toNat ∧ mark.toNat ≤ 57 := digit
  simp only [isControl, Bool.or_eq_false_iff, Bool.and_eq_false_iff, decide_eq_false_iff_not]
  omega

/-- The lines of a text. -/
def linesOf (text : String) : List Row := text.toList.splitOn '\n'

namespace Grid

/-- At the end of the rows a character is added to its row. -/
theorem put_end (above : List Row) (row : Row) (mark : Char) (other : mark ≠ '\n')
    (plain : isControl mark = false) :
    put ⟨above, row, row.length, []⟩ mark = ⟨above, row ++ [mark], (row ++ [mark]).length, []⟩ := by
  simp [put, other, plain, write]

/-- At the end of the rows a line feed starts a new one. -/
theorem put_feed (above : List Row) (row : Row) :
    put ⟨above, row, row.length, []⟩ '\n' = ⟨above ++ [row], [], 0, []⟩ := rfl

/-- Typing goes on in the last row, and adds the other lines below it. -/
theorem type_onward (above : List Row) (row : Row) (marks : List Char)
    (plain : ∀ mark ∈ marks, mark = '\n' ∨ isControl mark = false) :
    (marks ++ ['\n']).foldl put ⟨above, row, row.length, []⟩ =
      ⟨above ++ (marks.splitOn '\n').modifyHead (row ++ ·), [], 0, []⟩ := by
  induction marks generalizing above row with
  | nil => simp [put_feed]
  | cons mark rest inductionHypothesis =>
    obtain ⟨here, later⟩ := List.forall_mem_cons.mp plain
    rw [List.cons_append, List.foldl_cons, List.splitOn_cons_eq_if_modifyHead]
    by_cases feeds : mark = '\n'
    · subst feeds
      have next := inductionHypothesis (above ++ [row]) [] later
      have fresh : (rest.splitOn '\n').modifyHead ([] ++ ·) = rest.splitOn '\n' := by
        cases rest.splitOn '\n' <;> rfl
      rw [put_feed]
      rw [fresh] at next
      simpa using next
    · have ordinary : isControl mark = false := here.resolve_left feeds
      rw [put_end above row mark feeds ordinary, inductionHypothesis above (row ++ [mark]) later]
      have differs : (mark == '\n') = false := by simpa using feeds
      rw [differs, if_neg Bool.false_ne_true, List.modifyHead_modifyHead]
      simp [Function.comp_def]

/-- A text that is typed below some rows adds its lines to them. -/
theorem type_lines (above : List Row) (text : String) (plain : Plain text) :
    (text.toList ++ ['\n']).foldl put ⟨above, [], 0, []⟩ = ⟨above ++ linesOf text, [], 0, []⟩ := by
  have typed := type_onward above [] text.toList plain
  have fresh : (text.toList.splitOn '\n').modifyHead ([] ++ ·) = linesOf text := by
    rw [linesOf]
    cases text.toList.splitOn '\n' <;> rfl
  rwa [fresh] at typed

/-- Moving up over the last rows and clearing from there on leaves the rows above them. -/
theorem erase_rows (above rows : List Row) :
    clearDown (up rows.length ⟨above ++ rows, [], 0, []⟩) = ⟨above, [], 0, []⟩ := by
  simp [up, clearDown]

end Grid

/-- A text has as many lines as its height says. -/
theorem length_linesOf (text : String) : (linesOf text).length = height text := by
  have lines (marks : List Char) : (marks.splitOn '\n').length = marks.count '\n' + 1 := by
    induction marks with
    | nil => rfl
    | cons mark rest inductionHypothesis =>
      rw [List.splitOn_cons_eq_if_modifyHead, List.count_cons]
      by_cases feeds : mark = '\n' <;> simp [feeds, inductionHypothesis]
  exact lines text.toList

end BuildWatch.Terminal
