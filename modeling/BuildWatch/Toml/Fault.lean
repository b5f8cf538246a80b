import BuildWatch.Toml.Reader

/-!
# Where a settings file cannot be read

Reading gives a value or nothing. When it gave nothing, the file is gone through
once more for the first line that says nothing, and the place in that line is
shown below it.
-/

namespace BuildWatch.Toml

/-- What is wrong at a place. -/
inductive Complaint where
  | header
  | headerEnd
  | separator
  | line
  | clash
  deriving DecidableEq, Repr

namespace Complaint

/-- The wording of a complaint. -/
def message : Complaint → String
  | .header => "invalid table header\nexpected `.`, `]`"
  | .headerEnd => "invalid table header\nexpected newline, `#`"
  | .separator => "expected `.`, `=`"
  | .line => "invalid value"
  | .clash => "duplicate key"

end Complaint

/-- A place in a file, its row and column counted from zero, with the text of the
row and what is wrong there. -/
structure Fault where
  row : Nat
  column : Nat
  text : String
  complaint : Complaint
  deriving DecidableEq, Repr

namespace Fault

/-- The text about a fault, with a mark below the place. -/
def message (fault : Fault) : String :=
  let number := toString (fault.row + 1)
  let margin := String.ofList (List.replicate (number.length + 1) ' ')
  "TOML parse error at line " ++ number ++ ", column " ++ toString (fault.column + 1) ++ "\n" ++
    margin ++ "|\n" ++
    number ++ " | " ++ fault.text ++ "\n" ++
    margin ++ "|" ++ String.ofList (List.replicate (fault.column + 1) ' ') ++ "^\n" ++
    fault.complaint.message ++ "\n"

/-- The fault at the place where so many characters of a text are left. -/
def locate (text : List Char) (left : Nat) (complaint : Complaint) : Fault :=
  let before := text.take (text.length - left)
  let column := (before.reverse.takeWhile (· ≠ '\n')).length
  { row := before.count '\n'
    column := column
    text := String.ofList ((text.drop (before.length - column)).takeWhile (· ≠ '\n'))
    complaint := complaint }

/-- What is wrong behind the opening bracket of a header, and the text from there. -/
def ofHeader (text : List Char) : Complaint × List Char :=
  match key text with
  | some (_, ']' :: rest) => (.headerEnd, dropSpace rest)
  | some (_, rest) => (.header, rest)
  | none => (.line, text)

/-- What is wrong in a line that says nothing, and the text from there. -/
def ofLine (text : List Char) : Complaint × List Char :=
  match dropSpace text with
  | '[' :: rest => ofHeader rest
  | start =>
    match key start with
    | some (_, '=' :: rest) => (.line, dropSpace rest)
    | some (_, rest) => (.separator, rest)
    | none => (.line, start)

/-- The first fault in the last part of a text, looked for in at most so many lines. -/
def firstFrom (text : List Char) : Nat → List Char → Fault
  | 0, rest => locate text rest.length .clash
  | left + 1, rest =>
    match rest, line rest with
    | [], _ => locate text 0 .clash
    | _, some (_, later) => firstFrom text left later
    | _, none => let (complaint, place) := ofLine rest; locate text place.length complaint

/-- The first fault of a text that cannot be read. -/
def first (text : String) : Fault :=
  let chars := dropMark text.toList
  firstFrom chars (chars.length + 1) chars

end Fault

/-- Read a whole file. -/
def read (text : String) : Except Fault Entries :=
  match read? text with
  | some entries => .ok entries
  | none => .error (Fault.first text)

end BuildWatch.Toml
