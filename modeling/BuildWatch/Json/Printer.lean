import BuildWatch.Json.Value

/-!
# Writing JSON

Values are written without white space and in one line: quotes, backslashes and
the control characters below U+0020 are escaped, and every other character is
kept as it is.
-/

namespace BuildWatch.Json

/-- A hexadecimal digit in lower case. -/
def hexDigit (value : Nat) : Char :=
  if value < 10 then Char.ofNat ('0'.toNat + value) else Char.ofNat ('a'.toNat + (value - 10))

/-- A character inside a string. -/
def escapeChar (c : Char) : List Char :=
  if c = '"' then ['\\', '"']
  else if c = '\\' then ['\\', '\\']
  else if c = '\x08' then ['\\', 'b']
  else if c = '\x0c' then ['\\', 'f']
  else if c = '\n' then ['\\', 'n']
  else if c = '\r' then ['\\', 'r']
  else if c = '\t' then ['\\', 't']
  else if c.toNat < 0x20 then
    ['\\', 'u', '0', '0', hexDigit (c.toNat / 16), hexDigit (c.toNat % 16)]
  else [c]

/-- A string in quotes. -/
def quote (text : String) : List Char := '"' :: text.toList.flatMap escapeChar ++ ['"']

/-- A number. -/
def Number.written : Number → List Char
  | .integer value => (toString value).toList
  | .decimal negative significand exponent => (decimalText negative significand exponent).toList

mutual

/-- A value. -/
def print : Json → List Char
  | .null => ['n', 'u', 'l', 'l']
  | .bool true => ['t', 'r', 'u', 'e']
  | .bool false => ['f', 'a', 'l', 's', 'e']
  | .number value => value.written
  | .text value => quote value
  | .array [] => ['[', ']']
  | .array (item :: rest) => '[' :: print item ++ printItems rest
  | .object [] => ['\x7b', '\x7d']
  | .object ((key, value) :: rest) => '\x7b' :: quote key ++ ':' :: print value ++ printFields rest

/-- The items after the first one, and the end of the array. -/
def printItems : List Json → List Char
  | [] => [']']
  | item :: rest => ',' :: print item ++ printItems rest

/-- The fields after the first one, and the end of the object. -/
def printFields : List (String × Json) → List Char
  | [] => ['\x7d']
  | (key, value) :: rest => ',' :: quote key ++ ':' :: print value ++ printFields rest

end

/-- The text of a value. -/
def written (value : Json) : String := String.ofList (print value)

end BuildWatch.Json
