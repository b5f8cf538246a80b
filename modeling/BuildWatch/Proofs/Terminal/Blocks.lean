import BuildWatch.Proofs.Terminal.Console

/-!
# A status block erases itself and nothing else

A status block that is replaced is erased by moving the cursor up over its lines, which were
counted when it was printed. A log line detaches the block above it, so the count is only used
while the block is the last thing on the terminal. What is left on a terminal by any calls is
therefore the lines of every log call and of every status block that no other one followed
directly, in their order.
-/

namespace BuildWatch.Terminal

/-- What is really printed: a log line, or a status block at some second of the day. -/
inductive Call where
  | line (topic text : String)
  | block (second : Nat) (mark : Mark) (text : String)
  deriving DecidableEq, Repr

/-- The symbol of a status block without its colour. -/
def Mark.sign : Mark → String
  | .success => "✓"
  | .failure => "✗"
  | .caution => "⚠"

namespace Call

/-- What a call shows. -/
def shown : Call → String
  | .line topic text => "[" ++ topic ++ "] " ++ text
  | .block second mark text => "[" ++ Text.clock second ++ "] " ++ mark.sign ++ " " ++ text

/-- The lines that a call shows. -/
def rows (call : Call) : List Row := linesOf call.shown

/-- Whether the first of some calls is a status block. -/
def blockFirst : List Call → Bool
  | .block .. :: _ => true
  | _ => false

/-- The calls without the status blocks that are directly followed by another one. -/
def kept : List Call → List Call
  | [] => []
  | .line topic text :: rest => .line topic text :: kept rest
  | .block second mark text :: rest =>
    if blockFirst rest then kept rest else .block second mark text :: kept rest

@[simp] theorem blockFirst_line (topic text : String) (rest : List Call) :
    blockFirst (.line topic text :: rest) = false := rfl

@[simp] theorem blockFirst_block (second : Nat) (mark : Mark) (text : String) (rest : List Call) :
    blockFirst (.block second mark text :: rest) = true := rfl

end Call

/-- What some notes print, given the second at which each of them is told. Details are left out
unless they are asked for. -/
def callsOf (verbose : Bool) : List (Nat × Note) → List Call
  | [] => []
  | (_, .log topic text) :: rest => .line topic text :: callsOf verbose rest
  | (_, .detail topic text) :: rest =>
    if verbose then .line topic text :: callsOf verbose rest else callsOf verbose rest
  | (_, .verbosity on) :: rest => callsOf on rest
  | (second, .status mark text) :: rest => .block second mark text :: callsOf verbose rest
  | (_, .plain _) :: rest => callsOf verbose rest

/-- A note that is told through log lines and status blocks only. Its texts have no control
characters but line feeds, and the cursor can move up over it at once. -/
def Note.Fits : Note → Prop
  | .log topic text => Plain topic ∧ Plain text
  | .detail topic text => Plain topic ∧ Plain text
  | .verbosity _ => True
  | .status _ text => Plain text ∧ height text ≤ reach
  | .plain _ => False

instance : (note : Note) → Decidable note.Fits
  | .log topic text => inferInstanceAs (Decidable (Plain topic ∧ Plain text))
  | .detail topic text => inferInstanceAs (Decidable (Plain topic ∧ Plain text))
  | .verbosity _ => inferInstanceAs (Decidable True)
  | .status _ text => inferInstanceAs (Decidable (Plain text ∧ height text ≤ reach))
  | .plain _ => inferInstanceAs (Decidable False)

namespace Screen

/-- Print notes in order, each at its own second. -/
def printEach (screen : Screen) : List (Nat × Note) → String
  | [] => ""
  | (second, note) :: rest =>
    let turn := screen.print (Text.clock second) note
    turn.2 ++ printEach turn.1 rest

/-- Notes that are printed at one time are printed each at that second. -/
theorem printAll_eq (screen : Screen) (second : Nat) (notes : List Note) :
    (screen.printAll (Text.clock second) notes).2 = screen.printEach (notes.map (second, ·)) := by
  induction notes generalizing screen with
  | nil => rfl
  | cons note rest inductionHypothesis =>
    rw [List.map_cons, printEach, ← inductionHypothesis]
    rfl

end Screen

theorem inline_clock (second : Nat) : Inline (Text.clock second) := by
  have digits (value : Nat) : Inline (Text.twoDigits value) := by
    rw [Text.twoDigits]
    split
    · exact Inline.append (by decide) (inline_number value)
    · exact inline_number value
  have colon : Inline ":" := by decide
  exact ((((digits _).append colon).append (digits _)).append colon).append (digits _)

theorem Mark.inline_sign (mark : Mark) : Inline mark.sign := by
  cases mark <;> decide

/-- What a status block shows in front of its text. -/
theorem inline_head (second : Nat) (mark : Mark) :
    Inline ("[" ++ Text.clock second ++ "] " ++ mark.sign ++ " ") := by
  have opening : Inline "[" := by decide
  have closing : Inline "] " := by decide
  have blank : Inline " " := by decide
  exact (((opening.append (inline_clock second)).append closing).append mark.inline_sign).append blank

/-- The sequence that ends a colour types nothing. -/
theorem types_uncoloured : Console.Types (control "39m") [] :=
  Console.types_style "39m" ['3', '9'] rfl (by decide)

/-- The sequence that ends all styles types nothing. -/
theorem types_unstyled : Console.Types (control "0m") [] :=
  Console.types_style "0m" ['0'] rfl (by decide)

/-- The colours of a symbol type nothing. -/
theorem Mark.types_symbol (mark : Mark) : Console.Types mark.symbol mark.sign.toList := by
  have plain := mark.inline_sign.plain.types
  have framed (colour : String) (styled : Console.Types (control colour) []) :
      Console.Types (control colour ++ mark.sign ++ control "39m") mark.sign.toList := by
    simpa using (styled.append plain).append types_uncoloured
  cases mark with
  | success => exact framed "32m" (Console.types_style "32m" ['3', '2'] rfl (by decide))
  | failure => exact framed "31m" (Console.types_style "31m" ['3', '1'] rfl (by decide))
  | caution => exact framed "33m" (Console.types_style "33m" ['3', '3'] rfl (by decide))

/-- A label types its topic in brackets. -/
theorem types_label (topic : String) (plain : Plain topic) :
    Console.Types (label topic) ("[" ++ topic ++ "]").toList := by
  have colour : Console.Types (control (topicColour topic)) [] := by
    rw [topicColour]
    split <;> exact Console.types_style _ [_, _] rfl (by decide)
  have bold : Console.Types (control "1m") [] := Console.types_style "1m" ['1'] rfl (by decide)
  have opening : Plain "[" := by decide
  have closing : Plain "]" := by decide
  have typed := (((((bold.append colour).append opening.types).append plain.types).append
    closing.types).append types_uncoloured).append types_unstyled
  simpa [label] using typed

/-- A log line that is printed below some rows adds its lines to them. -/
theorem logLine_rows (above : List Row) (topic text : String) (plainTopic : Plain topic)
    (plainText : Plain text) :
    Console.receiveAll ⟨⟨above, [], 0, []⟩, .text⟩ (Screen.logLine topic text) =
      ⟨⟨above ++ (Call.line topic text).rows, [], 0, []⟩, .text⟩ := by
  have cleared : Console.receiveAll ⟨⟨above, [], 0, []⟩, .text⟩ (control "K") =
      ⟨⟨above, [], 0, []⟩, .text⟩ := rfl
  have blank : Plain " " := by decide
  have feed : Plain "\n" := by decide
  have typed := (((types_label topic plainTopic).append blank.types).append plainText.types).append
    feed.types
  have whole : Plain (Call.line topic text).shown := by
    rw [Call.shown]
    exact ((Plain.append (by decide) plainTopic).append (by decide)).append plainText
  have spelled : ("[" ++ topic ++ "]").toList ++ " ".toList ++ text.toList ++ "\n".toList =
      (Call.line topic text).shown.toList ++ ['\n'] := by
    simp [Call.shown]
  rw [spelled] at typed
  have split : Screen.logLine topic text =
      control "K" ++ (label topic ++ " " ++ text ++ "\n") := by
    simp only [Screen.logLine, String.append_assoc]
  rw [split, Console.receiveAll_append, cleared, typed, Grid.type_lines above _ whole]
  rfl

/-- The attached rows are erased, and no others. -/
theorem erase_attached (above attached : List Row) (near : attached.length ≤ reach) :
    Console.receiveAll ⟨⟨above ++ attached, [], 0, []⟩, .text⟩
        (if attached.length = 0 then ""
          else control (toString (min attached.length reach) ++ "A") ++ control "J") =
      ⟨⟨above, [], 0, []⟩, .text⟩ := by
  by_cases none : attached.length = 0
  · rw [if_pos none, List.eq_nil_of_length_eq_zero none, List.append_nil]
    rfl
  · have written : (toString attached.length ++ "A").toList =
        Nat.toDigits 10 attached.length ++ ['A'] := by
      rw [String.toList_append, Nat.toString_eq_ofList_toDigits, String.toList_ofList]
      rfl
    have digits : ∀ mark ∈ Nat.toDigits 10 attached.length, mark.isDigit = true := by
      intro mark member
      exact Nat.isDigit_of_mem_toDigits (by decide) (by decide) member
    have moved := Console.receiveAll_control ⟨above ++ attached, [], 0, []⟩ _ _ 'A' written digits
      (by decide)
    have cleared := Console.receiveAll_control (Grid.up attached.length ⟨above ++ attached, [], 0, []⟩)
      "J" [] 'J' rfl (by simp) (by decide)
    have distance : max 1 (Nat.ofDigitChars 10 (Nat.toDigits 10 attached.length) 0) =
        attached.length := by
      rw [Nat.ofDigitChars_toDigits (by decide) (by decide)]
      omega
    rw [Grid.obey, distance] at moved
    rw [if_neg none, Nat.min_eq_left near, Console.receiveAll_append, moved, cleared]
    exact congrArg (Console.mk · .text) (Grid.erase_rows above attached)

/-- A status block that is printed below some rows takes the place of those that are attached, and
adds its lines to the others. -/
theorem block_rows (above attached : List Row) (near : attached.length ≤ reach) (second : Nat)
    (mark : Mark) (text : String) (plainText : Plain text) :
    Console.receiveAll ⟨⟨above ++ attached, [], 0, []⟩, .text⟩
        (Screen.block attached.length (Text.clock second) mark text) =
      ⟨⟨above ++ (Call.block second mark text).rows, [], 0, []⟩, .text⟩ := by
  have clock := (inline_clock second).plain
  have opening : Plain "[" := by decide
  have closing : Plain "]" := by decide
  have blank : Plain " " := by decide
  have feed : Plain "\n" := by decide
  have dimmed : Console.Types (control "2m") [] := Console.types_style "2m" ['2'] rfl (by decide)
  have typed := ((((((((dimmed.append opening.types).append clock.types).append closing.types).append
    types_unstyled).append blank.types).append mark.types_symbol).append blank.types).append
    plainText.types).append feed.types
  have whole : Plain (Call.block second mark text).shown :=
    (inline_head second mark).plain.append plainText
  have spelled : [] ++ "[".toList ++ (Text.clock second).toList ++ "]".toList ++ [] ++ " ".toList ++
      mark.sign.toList ++ " ".toList ++ text.toList ++ "\n".toList =
        (Call.block second mark text).shown.toList ++ ['\n'] := by
    simp [Call.shown]
  rw [spelled] at typed
  rw [Screen.block]
  simp only [String.append_assoc] at typed ⊢
  rw [Console.receiveAll_append, erase_attached above attached near, typed, Grid.type_lines above _ whole]
  rfl

/-- A status block has as many rows as its text has lines. -/
theorem Call.length_rows (second : Nat) (mark : Mark) (text : String) :
    (Call.block second mark text).rows.length = height text := by
  rw [rows, length_linesOf, shown, (inline_head second mark).height]

/-- The rows of a terminal: those that stay, and those of the block that is still attached. -/
structure Page where
  settled : List Row
  attached : List Row := []

namespace Page

/-- All rows of a page. -/
def rows (page : Page) : List Row := page.settled ++ page.attached

/-- A terminal that shows a page, with the cursor at the start of the row below. -/
def console (page : Page) : Console := ⟨⟨page.rows, [], 0, []⟩, .text⟩

/-- A log line comes below all rows, and a status block in the place of the attached ones. -/
def add (page : Page) : Call → Page
  | .line topic text => ⟨page.rows ++ (Call.line topic text).rows, []⟩
  | .block second mark text => ⟨page.settled, (Call.block second mark text).rows⟩

@[simp] theorem attached_block (page : Page) (second : Nat) (mark : Mark) (text : String) :
    (page.add (.block second mark text)).attached = (Call.block second mark text).rows := by
  rw [add]

/-- What some calls make of a page: the attached rows go if the first call is a block, and below the
rest stand the calls that are kept. -/
theorem rows_addAll (page : Page) (calls : List Call) :
    (calls.foldl add page).rows =
      page.settled ++ (if Call.blockFirst calls then [] else page.attached) ++
        (Call.kept calls).flatMap Call.rows := by
  induction calls generalizing page with
  | nil => simp [rows, Call.blockFirst, Call.kept]
  | cons call rest inductionHypothesis =>
    rw [List.foldl_cons, inductionHypothesis]
    cases call with
    | line topic text => simp [add, rows, Call.kept]
    | block second mark text =>
      -- The new block is kept unless the next call is a block as well.
      cases follows : Call.blockFirst rest with
      | true => simp [add, Call.kept, follows]
      | false => simp [add, Call.kept, follows]

end Page

namespace Screen

/-- What a screen has counted is the height of the block that is attached on a page, and the cursor
can move up over it. -/
structure Counts (screen : Screen) (page : Page) : Prop where
  counted : screen.attached = page.attached.length
  near : page.attached.length ≤ reach

variable {screen : Screen} {page : Page}

/-- A log line is added to a page, and nothing is attached after it. -/
theorem logLine_adds (screen : Screen) (page : Page) (topic text : String) (plainTopic : Plain topic)
    (plainText : Plain text) :
    page.console.receiveAll (logLine topic text) = (page.add (.line topic text)).console ∧
      Counts { screen with attached := 0 } (page.add (.line topic text)) := by
  constructor
  · rw [Page.console, logLine_rows page.rows topic text plainTopic plainText]
    simp [Page.console, Page.add, Page.rows]
  · exact ⟨rfl, Nat.zero_le reach⟩

/-- A status block is added to a page, and attached after it. -/
theorem block_adds (counts : Counts screen page) (second : Nat) (mark : Mark) (text : String)
    (plain : Plain text) (low : height text ≤ reach) :
    page.console.receiveAll (block screen.attached (Text.clock second) mark text) =
        (page.add (.block second mark text)).console ∧
      Counts { screen with attached := height text } (page.add (.block second mark text)) := by
  have tall := Call.length_rows second mark text
  constructor
  · rw [counts.counted, Page.console, Page.rows,
      block_rows page.settled page.attached counts.near second mark text plain]
    simp only [Page.console, Page.add, Page.rows]
  · constructor
    · rw [Page.attached_block, tall]
    · rw [Page.attached_block, tall]
      exact low

/-- Printing notes adds what they print to a page. -/
theorem printEach_adds (counts : Counts screen page) (notes : List (Nat × Note))
    (fits : ∀ entry ∈ notes, entry.2.Fits) :
    page.console.receiveAll (screen.printEach notes) =
      ((callsOf screen.verbose notes).foldl Page.add page).console := by
  induction notes generalizing screen page with
  | nil => rfl
  | cons entry rest inductionHypothesis =>
    obtain ⟨second, note⟩ := entry
    obtain ⟨here, later⟩ := List.forall_mem_cons.mp fits
    rw [printEach, Console.receiveAll_append]
    cases note with
    | log topic text =>
      obtain ⟨added, onward⟩ := logLine_adds screen page topic text here.1 here.2
      simp only [print, callsOf, List.foldl_cons]
      rw [added]
      exact inductionHypothesis onward later
    | detail topic text =>
      obtain ⟨added, onward⟩ := logLine_adds screen page topic text here.1 here.2
      cases asked : screen.verbose with
      | true =>
        simp only [print, callsOf, asked, if_true, List.foldl_cons]
        rw [added, ← asked]
        exact inductionHypothesis onward later
      | false =>
        simp only [print, callsOf, asked, Bool.false_eq_true, if_false, Console.receiveAll_empty]
        rw [← asked]
        exact inductionHypothesis counts later
    | verbosity on =>
      simp only [print, callsOf, Console.receiveAll_empty]
      exact inductionHypothesis ⟨counts.counted, counts.near⟩ later
    | status mark text =>
      obtain ⟨added, onward⟩ := block_adds counts second mark text here.1 here.2
      simp only [print, callsOf, List.foldl_cons]
      rw [added]
      exact inductionHypothesis onward later
    | plain text => exact here.elim

end Screen

/-- **A status block erases itself and nothing else.** Let any notes be printed, each at its own
time, on a terminal with any rows above the cursor: log lines, details, which show only in verbose
mode, and status blocks of any mark and text. No text has control characters other than line feeds,
and no text of a status block has more lines than the cursor can move up at once.

Then the terminal shows the rows that were there before and below them, in the order of the calls,
the lines of every log line and of every status block that is not directly followed by another one.
The cursor is at the start of the row below.

Proof: each note adds to the page what it prints, and leaves the screen with the height of the block
that is attached then: such a block has as many rows as its text has lines, so exactly these are
erased by the next one. What all calls make of a page follows by induction on them. -/
theorem terminal_shows_kept_calls (verbose : Bool) (above : List Row) (notes : List (Nat × Note))
    (fits : ∀ entry ∈ notes, entry.2.Fits) :
    Console.receiveAll ⟨⟨above, [], 0, []⟩, .text⟩ (Screen.printEach { verbose := verbose } notes) =
      ⟨⟨above ++ (Call.kept (callsOf verbose notes)).flatMap Call.rows, [], 0, []⟩, .text⟩ := by
  have counts : Screen.Counts { verbose := verbose } { settled := above } := ⟨rfl, Nat.zero_le reach⟩
  have added := Screen.printEach_adds counts notes fits
  rw [Page.console, Page.console, Page.rows_addAll] at added
  simpa [Page.rows] using added

/-- Compilations and log lines as they are told: a block with an empty detail, one that ends with a
line feed and takes its place, a log line, and two blocks with a hidden detail between them. -/
def reports : List (Nat × Note) :=
  [(0, .status .failure (withDetail "1 error" "")),
    (1, .status .caution (withDetail "1 warning" "a.sk:1:1: warning: x\n")),
    (2, .log "watch" "config reloaded"),
    (3, .status .failure (withDetail "1 error" "a.sk:1:1: error: y")),
    (4, .detail "ui" "compile #4 finished"),
    (4, .status .success "no problems")]

/-- The terminal shows the second block with the log line below it, and the last block. -/
theorem reports_shown :
    (∀ entry ∈ reports, entry.2.Fits) ∧
      (Console.receiveAll ⟨⟨[], [], 0, []⟩, .text⟩ (Screen.printEach {} reports)).grid.above.map
          String.ofList =
        ["[00:00:01] ⚠ 1 warning", "a.sk:1:1: warning: x", "", "[watch] config reloaded",
          "[00:00:04] ✓ no problems"] := by
  have fits : ∀ entry ∈ reports, entry.2.Fits := by decide
  refine ⟨fits, ?_⟩
  rw [terminal_shows_kept_calls false [] reports fits]
  decide

end BuildWatch.Terminal
