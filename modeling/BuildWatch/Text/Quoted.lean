import BuildWatch.Text.Unshown

/-!
# Quoted texts in messages

A text inside a message stands in double quotes. Quotes and backslashes are
escaped, and characters that would not show are written by their code in
hexadecimal digits between braces, apart from the few that have a letter.
-/

namespace BuildWatch.Text

/-- The hexadecimal digits of a number in lower case. -/
def hexDigits (value : Nat) : String := String.ofList (Nat.toDigits 16 value)

/-- A character between double quotes. -/
def quotedChar (c : Char) : String :=
  if c = '"' then "\\\""
  else if c = '\\' then "\\\\"
  else if c = '\n' then "\\n"
  else if c = '\r' then "\\r"
  else if c = '\t' then "\\t"
  else if c = Char.ofNat 0 then "\\0"
  else if isShown c then String.singleton c
  else "\\u\x7b" ++ hexDigits c.toNat ++ "\x7d"

/-- A text in double quotes. -/
def quoted (text : String) : String :=
  "\"" ++ String.join (text.toList.map quotedChar) ++ "\""

end BuildWatch.Text
