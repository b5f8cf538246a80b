import BuildWatch.Toml.Scalar

/-!
# Reading settings files

A file is a list of lines: headers in brackets, and values under keys. A key is
a list of parts with dots between them. Only within brackets may a value span
lines, and only there may a comma follow the last item.

Arrays and tables may be nested so many times, and a key may have so many parts,
that what reads them ends by counting down. The length of the text bounds the
number of items and lines.
-/

namespace BuildWatch.Toml

/-- How many arrays and tables may stand inside each other. -/
def nestingLimit : Nat := 79

/-- How many parts a key may have. -/
def partLimit : Nat := 79

/-- A text without the blanks it starts with. -/
def dropSpace (text : List Char) : List Char := text.dropWhile isSpace

/-- A text without the comment it starts with. -/
def dropComment : List Char → List Char
  | '#' :: rest => rest.dropWhile isPlain
  | text => text

/-- A text without the blanks, line ends and comments it starts with. -/
def dropFiller (comment : Bool) : List Char → List Char
  | [] => []
  | '\n' :: rest => dropFiller false rest
  | '\r' :: '\n' :: rest => dropFiller false rest
  | c :: rest =>
    if comment then if isPlain c then dropFiller true rest else c :: rest
    else if isSpace c then dropFiller false rest
    else if c = '#' then dropFiller true rest
    else c :: rest

/-- What follows a line end, or the end of the file. -/
def afterLineEnd? : List Char → Option (List Char)
  | [] => some []
  | '\n' :: rest => some rest
  | '\r' :: '\n' :: rest => some rest
  | _ => none

/-- What follows a line on which nothing more is said. -/
def afterLine? (text : List Char) : Option (List Char) :=
  afterLineEnd? (dropComment (dropSpace text))

/-- Whether a character may stand in a part of a key without quotes. -/
def isBare (c : Char) : Bool := c.isAlphanum || c = '_' || c = '-'

/-- Read one part of a key. -/
def keyPart (text : List Char) : Option (String × List Char) :=
  match text with
  | '"' :: _ => lineText text
  | '\'' :: _ => lineText text
  | _ =>
    let word := text.takeWhile isBare
    if word.isEmpty then none else some (String.ofList word, text.dropWhile isBare)

/-- Read a key of at most so many parts, and the blanks around it. -/
def keyParts : Nat → Scanner (List String)
  | 0, _ => none
  | left + 1, text =>
    match keyPart (dropSpace text) with
    | none => none
    | some (part, rest) =>
      match dropSpace rest with
      | '.' :: rest => (keyParts left rest).map fun (parts, rest) => (part :: parts, rest)
      | rest => some ([part], rest)

/-- Read a key. -/
def key : Scanner (List String) := keyParts partLimit

/-- Read the items of an array behind its opening bracket or a comma. -/
def items (item : Scanner Value) : Nat → Scanner (List Value)
  | 0, _ => none
  | left + 1, text =>
    match dropFiller false text with
    | ']' :: rest => some ([], rest)
    | start =>
      match item start with
      | none => none
      | some (value, rest) =>
        match dropFiller false rest with
        | ',' :: rest => (items item left rest).map fun (values, rest) => (value :: values, rest)
        | ']' :: rest => some ([value], rest)
        | _ => none

/-- Read a key with its value. -/
def pair (value : Scanner Value) (text : List Char) : Option ((List String × Value) × List Char) :=
  match key text with
  | some (path, '=' :: rest) =>
    (value (dropSpace rest)).map fun (value, rest) => ((path, value), rest)
  | _ => none

/-- Read the entries of a table in braces behind its opening brace or a comma. -/
def pairs (value : Scanner Value) : Nat → Scanner (List (List String × Value))
  | 0, _ => none
  | left + 1, text =>
    match pair value text with
    | none => none
    | some (entry, rest) =>
      match dropSpace rest with
      | ',' :: rest => (pairs value left rest).map fun (entries, rest) => (entry :: entries, rest)
      | '}' :: rest => some ([entry], rest)
      | _ => none

/-- Read a table in braces behind its opening brace. -/
def braced (value : Scanner Value) (text : List Char) : Option (Value × List Char) :=
  match dropSpace text with
  | '}' :: rest => some (.table .braces [], rest)
  | start =>
    match pairs value (start.length + 1) start with
    | none => none
    | some (entries, rest) =>
      (Entries.fill entries []).map fun entries => (.table .braces entries, rest)

/-- Read a value with at most so many arrays and tables inside each other. -/
def nested : Nat → Scanner Value
  | depth, text =>
    match text with
    | '"' :: _ => (anyText text).map fun (value, rest) => (.text value, rest)
    | '\'' :: _ => (anyText text).map fun (value, rest) => (.text value, rest)
    | '[' :: rest =>
      match depth with
      | 0 => none
      | depth + 1 =>
        (items (nested depth) (rest.length + 1) rest).map fun (values, rest) => (.list values, rest)
    | '{' :: rest =>
      match depth with
      | 0 => none
      | depth + 1 => braced (nested depth) rest
    | _ => scalar text

/-- Read a value. -/
def value : Scanner Value := nested nestingLimit

/-- The steps and the last part of a key. -/
def steps? (path : List String) : Option (List String × String) :=
  path.getLast?.map fun last => (path.dropLast, last)

/-- Read the line that a text starts with; nothing is said on an empty one. -/
def line (text : List Char) : Option (Option Line × List Char) :=
  match dropSpace text with
  | '[' :: '[' :: rest =>
    match key rest with
    | some (path, ']' :: ']' :: rest) =>
      match steps? path, afterLine? rest with
      | some (steps, last), some rest => some (some (.row steps last), rest)
      | _, _ => none
    | _ => none
  | '[' :: rest =>
    match key rest with
    | some (path, ']' :: rest) =>
      match steps? path, afterLine? rest with
      | some (steps, last), some rest => some (some (.table steps last), rest)
      | _, _ => none
    | _ => none
  | start =>
    match afterLine? start with
    | some rest => some (none, rest)
    | none =>
      match pair value start with
      | none => none
      | some ((path, value), rest) =>
        (afterLine? rest).map fun rest => (some (.entry path value), rest)

/-- Read at most so many lines to the end of the text. -/
def lines : Nat → List Char → Option (List Line)
  | _, [] => some []
  | 0, _ :: _ => none
  | left + 1, text =>
    match line text with
    | none => none
    | some (none, rest) => lines left rest
    | some (some line, rest) => (lines left rest).map (line :: ·)

/-- A text without the mark of its byte order. -/
def dropMark : List Char → List Char
  | c :: rest => if c = Char.ofNat 0xFEFF then rest else c :: rest
  | [] => []

/-- Read a whole file. -/
def read? (text : String) : Option Entries :=
  let chars := dropMark text.toList
  (lines chars.length chars).bind Entries.ofLines

end BuildWatch.Toml
