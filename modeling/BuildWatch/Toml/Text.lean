import BuildWatch.Text.Numeral

/-!
# Texts of a settings file

A text stands between single or double quotes, or between three of either, and
then it may span lines. Only double quotes let a backslash escape characters. A
line end inside a text reads as a single line feed, however it is written.

Every scanner reads from the start of a text and gives what it read together
with what follows.
-/

namespace BuildWatch.Toml

/-- A reader of the start of a text. -/
abbrev Scanner (α : Type) := List Char → Option (α × List Char)

/-- Whether a character is blank inside a line. -/
def isSpace (c : Char) : Bool := c = ' ' || c = '\t'

/-- Whether a character may stand in texts and comments. -/
def isPlain (c : Char) : Bool := c = '\t' || (0x20 ≤ c.toNat && c.toNat != 0x7F)

/-- Put a character in front of a text that was read. -/
def before (c : Char) (read : Option (List Char × List Char)) : Option (List Char × List Char) :=
  read.map fun (text, rest) => (c :: text, rest)

/-- The value of a hexadecimal digit. -/
def hexValue? (c : Char) : Option Nat :=
  if c.isDigit then some (c.toNat - '0'.toNat)
  else if 'a' ≤ c ∧ c ≤ 'f' then some (c.toNat - 'a'.toNat + 10)
  else if 'A' ≤ c ∧ c ≤ 'F' then some (c.toNat - 'A'.toNat + 10)
  else none

/-- The character with a code in hexadecimal digits, unless it is no scalar value. -/
def coded? (digits : List Char) : Option Char :=
  match digits.mapM hexValue? with
  | none => none
  | some values =>
    let code := values.foldl (fun code value => 16 * code + value) 0
    if code.isValidChar then some (Char.ofNat code) else none

/-- The character that a letter behind a backslash stands for. -/
def lettered? : Char → Option Char
  | 'b' => some (Char.ofNat 8)
  | 't' => some '\t'
  | 'n' => some '\n'
  | 'f' => some (Char.ofNat 12)
  | 'r' => some '\r'
  | '"' => some '"'
  | '\\' => some '\\'
  | _ => none

/-- The rest of a text in double quotes. -/
def quotedTail : List Char → Option (List Char × List Char)
  | [] => none
  | '"' :: rest => some ([], rest)
  | '\\' :: 'u' :: a :: b :: c :: d :: rest =>
    (coded? [a, b, c, d]).bind fun coded => before coded (quotedTail rest)
  | '\\' :: 'U' :: a :: b :: c :: d :: e :: f :: g :: h :: rest =>
    (coded? [a, b, c, d, e, f, g, h]).bind fun coded => before coded (quotedTail rest)
  | '\\' :: letter :: rest =>
    (lettered? letter).bind fun escaped => before escaped (quotedTail rest)
  | c :: rest => if isPlain c && c != '\\' then before c (quotedTail rest) else none

/-- The rest of a text in single quotes. -/
def literalTail (text : List Char) : Option (List Char × List Char) :=
  let inside := fun c => isPlain c && c != '\''
  match text.dropWhile inside with
  | '\'' :: rest => some (text.takeWhile inside, rest)
  | _ => none

/-- Where a backslash at the end of a line has led: nowhere, to the blanks in front
of the line end, or behind it. From there all blanks and line ends are dropped. -/
inductive Joining where
  | none
  | opened
  | crossed
  deriving DecidableEq, Repr

/-- Up to two quotes may stand in front of the three that close a text. -/
def closing (quote : Char) : List Char → List Char × List Char
  | [] => ([], [])
  | [c] => if c = quote then ([quote], []) else ([], [c])
  | c :: d :: rest =>
    if c = quote then if d = quote then ([quote, quote], rest) else ([quote], d :: rest)
    else ([], c :: d :: rest)

/-- The rest of a text in three double quotes. -/
def quotedBlockTail (joining : Joining) : List Char → Option (List Char × List Char)
  | [] => none
  | '\r' :: '\n' :: rest =>
    if joining = .none then before '\n' (quotedBlockTail .none rest) else quotedBlockTail .crossed rest
  | '\n' :: rest =>
    if joining = .none then before '\n' (quotedBlockTail .none rest) else quotedBlockTail .crossed rest
  | '"' :: '"' :: '"' :: rest => if joining = .opened then none else some (closing '"' rest)
  | '\\' :: 'u' :: a :: b :: c :: d :: rest =>
    if joining = .opened then none
    else (coded? [a, b, c, d]).bind fun coded => before coded (quotedBlockTail .none rest)
  | '\\' :: 'U' :: a :: b :: c :: d :: e :: f :: g :: h :: rest =>
    if joining = .opened then none
    else (coded? [a, b, c, d, e, f, g, h]).bind fun coded =>
      before coded (quotedBlockTail .none rest)
  | '\\' :: '\r' :: '\n' :: rest => if joining = .opened then none else quotedBlockTail .crossed rest
  | '\\' :: c :: rest =>
    if joining = .opened then none
    else if isSpace c then quotedBlockTail .opened rest
    else if c = '\n' then quotedBlockTail .crossed rest
    else (lettered? c).bind fun escaped => before escaped (quotedBlockTail .none rest)
  | c :: rest =>
    if isSpace c && joining != .none then quotedBlockTail joining rest
    else if joining = .opened then none
    else if isPlain c && c != '\\' then before c (quotedBlockTail .none rest)
    else none

/-- The rest of a text in three single quotes. -/
def literalBlockTail : List Char → Option (List Char × List Char)
  | [] => none
  | '\'' :: '\'' :: '\'' :: rest => some (closing '\'' rest)
  | '\r' :: '\n' :: rest => before '\n' (literalBlockTail rest)
  | c :: rest => if isPlain c || c = '\n' then before c (literalBlockTail rest) else none

/-- A text without the line end it starts with. -/
def dropLineEnd : List Char → List Char
  | '\n' :: rest => rest
  | '\r' :: '\n' :: rest => rest
  | text => text

/-- Read a text within one line, from its opening quote. -/
def lineText : Scanner String
  | '"' :: rest => (quotedTail rest).map fun (text, rest) => (String.ofList text, rest)
  | '\'' :: rest => (literalTail rest).map fun (text, rest) => (String.ofList text, rest)
  | _ => none

/-- Read a text, from its opening quotes. -/
def anyText : Scanner String
  | '"' :: '"' :: '"' :: rest =>
    (quotedBlockTail .none (dropLineEnd rest)).map fun (text, rest) => (String.ofList text, rest)
  | '\'' :: '\'' :: '\'' :: rest =>
    (literalBlockTail (dropLineEnd rest)).map fun (text, rest) => (String.ofList text, rest)
  | text => lineText text

end BuildWatch.Toml
