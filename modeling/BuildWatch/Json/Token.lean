import BuildWatch.Json.Number

/-!
# JSON tokens

A text is cut into tokens by reading its characters one after the other. What is
still open is kept aside: the characters of a literal, or of a string together
with the escape that was begun. A literal is the longest run of characters that
literals are made of, so it is only looked at as a whole, and a run that is
neither a number nor one of the three words fails.

Strings hold no control characters below U+0020. An escape for the first half of
a surrogate pair has to be followed by one for the second half.
-/

namespace BuildWatch.Json

/-- A token. -/
inductive Token where
  | openArray
  | closeArray
  | openObject
  | closeObject
  | comma
  | colon
  | null
  | bool (value : Bool)
  | number (value : Number)
  | text (value : String)
  deriving DecidableEq, Repr

namespace Token

/-- What is open between two characters. Characters are held latest first. -/
inductive Open where
  | nothing
  | literal (read : List Char)
  | string (read : List Char)
  | escape (read : List Char)
  | code (read : List Char) (first : Option Nat) (digits : List Char)
  | secondEscape (read : List Char) (first : Nat)
  | secondMark (read : List Char) (first : Nat)
  deriving DecidableEq, Repr

/-- Where reading stands: what is open, and the tokens read, latest first. -/
structure Scan where
  opened : Open
  tokens : List Token
  deriving DecidableEq, Repr

/-- The start of a text. -/
def Scan.start : Scan := ⟨.nothing, []⟩

/-- The white space between tokens. -/
def isSpace (c : Char) : Bool := c = ' ' || c = '\t' || c = '\n' || c = '\r'

/-- A token of one character. -/
def mark? (c : Char) : Option Token :=
  if c = '[' then some .openArray
  else if c = ']' then some .closeArray
  else if c = '\x7b' then some .openObject
  else if c = '\x7d' then some .closeObject
  else if c = ',' then some .comma
  else if c = ':' then some .colon
  else none

/-- A character that literals are made of. -/
def isLiteral (c : Char) : Bool :=
  c.isDigit || c.isAlpha || c = '-' || c = '+' || c = '.'

/-- The token that a literal stands for. -/
def ofLiteral? (literal : List Char) : Option Token :=
  if literal = ['n', 'u', 'l', 'l'] then some .null
  else if literal = ['t', 'r', 'u', 'e'] then some (.bool true)
  else if literal = ['f', 'a', 'l', 's', 'e'] then some (.bool false)
  else (Number.read? literal).map .number

/-- The value of a hexadecimal digit. -/
def hexValue? (c : Char) : Option Nat :=
  if c.isDigit then some (c.toNat - '0'.toNat)
  else if 'a' ≤ c ∧ c ≤ 'f' then some (c.toNat - 'a'.toNat + 10)
  else if 'A' ≤ c ∧ c ≤ 'F' then some (c.toNat - 'A'.toNat + 10)
  else none

/-- The value of four hexadecimal digits. -/
def codeOf? (digits : List Char) : Option Nat :=
  digits.foldlM (fun value digit => (hexValue? digit).map (16 * value + ·)) 0

/-- The character of an escape with one letter. -/
def escaped? (c : Char) : Option Char :=
  if c = '"' || c = '\\' || c = '/' then some c
  else if c = 'b' then some '\x08'
  else if c = 'f' then some '\x0c'
  else if c = 'n' then some '\n'
  else if c = 'r' then some '\r'
  else if c = 't' then some '\t'
  else none

/-- Whether a code is the first half of a surrogate pair. -/
def isFirstHalf (code : Nat) : Bool := 0xD800 ≤ code && code < 0xDC00

/-- Whether a code is the second half of a surrogate pair. -/
def isSecondHalf (code : Nat) : Bool := 0xDC00 ≤ code && code < 0xE000

/-- Go on after the four digits of a code were read. -/
def closeCode (read : List Char) (first : Option Nat) (code : Nat) : Option Open :=
  match first with
  | none =>
    if isFirstHalf code then some (.secondEscape read code)
    else if isSecondHalf code then none
    else some (.string (Char.ofNat code :: read))
  | some high =>
    if isSecondHalf code then
      some (.string (Char.ofNat (0x10000 + (high - 0xD800) * 0x400 + (code - 0xDC00)) :: read))
    else none

/-- Read a character outside of literals and strings. -/
def beginToken (tokens : List Token) (c : Char) : Option Scan :=
  if isSpace c then some ⟨.nothing, tokens⟩
  else if c = '"' then some ⟨.string [], tokens⟩
  else if isLiteral c then some ⟨.literal [c], tokens⟩
  else (mark? c).map fun token => ⟨.nothing, token :: tokens⟩

/-- Read one character. -/
def step (scan : Scan) (c : Char) : Option Scan :=
  match scan.opened with
  | .nothing => beginToken scan.tokens c
  | .literal read =>
    if isLiteral c then some { scan with opened := .literal (c :: read) }
    else (ofLiteral? read.reverse).bind fun token => beginToken (token :: scan.tokens) c
  | .string read =>
    if c = '"' then some ⟨.nothing, .text (String.ofList read.reverse) :: scan.tokens⟩
    else if c = '\\' then some { scan with opened := .escape read }
    else if c.toNat < 0x20 then none
    else some { scan with opened := .string (c :: read) }
  | .escape read =>
    if c = 'u' then some { scan with opened := .code read none [] }
    else (escaped? c).map fun character => { scan with opened := .string (character :: read) }
  | .code read first digits =>
    let digits := digits ++ [c]
    match codeOf? digits with
    | none => none
    | some code =>
      if digits.length < 4 then some { scan with opened := .code read first digits }
      else (closeCode read first code).map fun opened => { scan with opened := opened }
  | .secondEscape read first =>
    if c = '\\' then some { scan with opened := .secondMark read first } else none
  | .secondMark read first =>
    if c = 'u' then some { scan with opened := .code read (some first) [] } else none

/-- The tokens at the end of a text. -/
def Scan.finish (scan : Scan) : Option (List Token) :=
  match scan.opened with
  | .nothing => some scan.tokens.reverse
  | .literal read => (ofLiteral? read.reverse).map fun token => (token :: scan.tokens).reverse
  | _ => none

/-- Cut a text into tokens. -/
def tokens? (text : List Char) : Option (List Token) :=
  (text.foldlM step Scan.start).bind Scan.finish

end Token
end BuildWatch.Json
