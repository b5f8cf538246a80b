import BuildWatch.Json.Reader

/-!
# The grammar of JSON texts

What a text is and which value it stands for, said without a reader: a string is a row
of characters and escapes between quotes, a number has a sign, an integer part, a
fraction and an exponent, an array or an object holds the texts of its items or fields
with commas between them, and around every value there may be white space.

The grammar is that of RFC 8259 with the limits of the reader. A surrogate that is not
one half of a pair stands for no character, arrays and objects nest to a limited depth,
and a number must not be too large for a floating point number of 64 bits. A key that
is written again keeps its place and takes the new value.
-/

namespace BuildWatch.Json

/-- White space, or nothing. -/
def Blank (text : List Char) : Prop := ∀ c ∈ text, Token.isSpace c = true

namespace Number

/-- At least one digit. -/
def Digits (digits : List Char) : Prop := digits ≠ [] ∧ ∀ c ∈ digits, c.isDigit = true

/-- The text of an exponent, if there is one, and its value. -/
inductive ExponentText : List Char → Option Int → Prop where
  | absent : ExponentText [] none
  | unsigned (mark : Char) (digits : List Char) (marks : mark = 'e' ∨ mark = 'E')
      (run : Digits digits) : ExponentText (mark :: digits) (some (Text.digitsValue 0 digits))
  | plus (mark : Char) (digits : List Char) (marks : mark = 'e' ∨ mark = 'E')
      (run : Digits digits) :
      ExponentText (mark :: '+' :: digits) (some (Text.digitsValue 0 digits))
  | minus (mark : Char) (digits : List Char) (marks : mark = 'e' ∨ mark = 'E')
      (run : Digits digits) :
      ExponentText (mark :: '-' :: digits) (some (-Text.digitsValue 0 digits))

/-- The text of a literal and its parts. An integer part has no zero in front. -/
inductive Literal : List Char → Parts → Prop where
  | parts (negative : Bool) (whole : List Char) (fraction : Option (List Char))
      (exponentText : List Char) (exponent : Option Int) (digits : Digits whole)
      (noZero : whole.head? = some '0' → whole = ['0'])
      (fractionDigits : ∀ digits, fraction = some digits → Digits digits)
      (power : ExponentText exponentText exponent) :
      Literal
        ((if negative then ['-'] else []) ++ whole ++ fraction.elim [] ('.' :: ·) ++ exponentText)
        ⟨negative, whole, fraction, exponent⟩

/-- The number that parts stand for. An integer part alone is an integer when its value
has 64 bits, unsigned or, behind a minus sign, signed and not zero. Anything else is a
decimal, of which the floating point number has to be finite. -/
inductive Means : Parts → Number → Prop where
  | natural (whole : List Char) (bounded : Text.digitsValue 0 whole < UInt64.size) :
      Means ⟨false, whole, none, none⟩ (.integer (Text.digitsValue 0 whole))
  | negative (whole : List Char) (positive : 0 < Text.digitsValue 0 whole)
      (bounded : Text.digitsValue 0 whole ≤ signedBound) :
      Means ⟨true, whole, none, none⟩ (.integer (-Text.digitsValue 0 whole))
  | decimal (parts : Parts) (negative : Bool) (significand : Nat) (exponent : Int)
      (rounds : ofParts parts = .decimal negative significand exponent)
      (finite : (Binary64.scale? significand exponent).isSome = true) :
      Means parts (.decimal negative significand exponent)

end Number

/-- The text inside the quotes of a string, and its characters. -/
inductive Characters : List Char → List Char → Prop where
  | nil : Characters [] []
  | plain (c : Char) (body value : List Char) (visible : 0x20 ≤ c.toNat) (noQuote : c ≠ '"')
      (noSlash : c ≠ '\\') (rest : Characters body value) : Characters (c :: body) (c :: value)
  | letter (letter c : Char) (body value : List Char) (stands : Token.escaped? letter = some c)
      (rest : Characters body value) : Characters ('\\' :: letter :: body) (c :: value)
  | code (digits : List Char) (code : Nat) (body value : List Char) (four : digits.length = 4)
      (hex : Token.codeOf? digits = some code) (single : code < 0xD800 ∨ 0xE000 ≤ code)
      (rest : Characters body value) :
      Characters ('\\' :: 'u' :: digits ++ body) (Char.ofNat code :: value)
  | pair (first second : List Char) (high low : Nat) (body value : List Char)
      (firstFour : first.length = 4) (firstHex : Token.codeOf? first = some high)
      (isHigh : 0xD800 ≤ high ∧ high < 0xDC00)
      (secondFour : second.length = 4) (secondHex : Token.codeOf? second = some low)
      (isLow : 0xDC00 ≤ low ∧ low < 0xE000) (rest : Characters body value) :
      Characters ('\\' :: 'u' :: first ++ '\\' :: 'u' :: second ++ body)
        (Char.ofNat (0x10000 + (high - 0xD800) * 0x400 + (low - 0xDC00)) :: value)

/-- A field of an object as it is written: the text of its key and that of its value. -/
structure Member where
  keyText : List Char
  key : String
  text : List Char
  value : Json

namespace Member

/-- The text of a field. -/
def written (member : Member) : List Char := member.keyText ++ ':' :: member.text

/-- Write a field into those that an object has. -/
def enter (fields : List (String × Json)) (member : Member) : List (String × Json) :=
  putField member.key member.value fields

end Member

/-- The text of a value with arrays and objects nested at most to a depth. -/
inductive Spells : Nat → List Char → Json → Prop where
  | null (depth : Nat) : Spells depth ['n', 'u', 'l', 'l'] .null
  | bool (depth : Nat) (value : Bool) :
      Spells depth (if value then ['t', 'r', 'u', 'e'] else ['f', 'a', 'l', 's', 'e']) (.bool value)
  | number (depth : Nat) (literal : List Char) (parts : Number.Parts) (number : Number)
      (spelled : Number.Literal literal parts) (means : Number.Means parts number) :
      Spells depth literal (.number number)
  | text (depth : Nat) (body value : List Char) (inside : Characters body value) :
      Spells depth ('"' :: body ++ ['"']) (.text (String.ofList value))
  | spaced (depth : Nat) (left text right : List Char) (value : Json) (before : Blank left)
      (behind : Blank right) (inside : Spells depth text value) :
      Spells depth (left ++ text ++ right) value
  | emptyArray (depth : Nat) (space : List Char) (blank : Blank space) :
      Spells (depth + 1) ('[' :: space ++ [']']) (.array [])
  | array (depth : Nat) (first : List Char × Json) (rest : List (List Char × Json))
      (inside : ∀ item ∈ first :: rest, Spells depth item.1 item.2) :
      Spells (depth + 1) ('[' :: first.1 ++ (rest.flatMap fun item => ',' :: item.1) ++ [']'])
        (.array ((first :: rest).map Prod.snd))
  | emptyObject (depth : Nat) (space : List Char) (blank : Blank space) :
      Spells (depth + 1) ('\x7b' :: space ++ ['\x7d']) (.object [])
  | object (depth : Nat) (first : Member) (rest : List Member)
      (keys : ∀ member ∈ first :: rest, Spells depth member.keyText (.text member.key))
      (values : ∀ member ∈ first :: rest, Spells depth member.text member.value) :
      Spells (depth + 1)
        ('\x7b' :: first.written ++ (rest.flatMap fun member => ',' :: member.written) ++ ['\x7d'])
        (.object ((first :: rest).foldl Member.enter []))

/-- A text that is one value, and this value. -/
def Document (text : List Char) (value : Json) : Prop := Spells depthLimit text value

end BuildWatch.Json
