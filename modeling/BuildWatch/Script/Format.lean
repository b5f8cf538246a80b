import BuildWatch.Text.Encoding
import BuildWatch.Text.Numeral

/-!
# Formatted output of scripts

A format is put out as often as there are words left for it. Backslashes name
characters by a letter, and bytes by up to three octal digits. A word need not be a
text: its bytes are then kept one by one.
-/

namespace BuildWatch.Script

/-- The character that a byte of no text is read as: beyond ASCII one of the last, which no
text of a script has. -/
def strayChar (byte : UInt8) : Char :=
  if byte < 0x80 then Char.ofNat byte.toNat else Char.ofNat (0x10FF00 + byte.toNat)

/-- The text of bytes; what is no text is read byte by byte. -/
def textOf (bytes : Bytes) : String :=
  (Text.ofBytes? bytes).getD (String.ofList (bytes.map strayChar))

/-- The bytes that a text was read from. -/
def bytesOf (text : String) : Bytes :=
  text.toList.flatMap fun c =>
    if 0x10FF80 ≤ c.toNat then [UInt8.ofNat (c.toNat - 0x10FF00)] else String.utf8EncodeChar c

/-- The value of an octal digit. -/
def octal? (c : Char) : Option Nat :=
  if '0' ≤ c ∧ c ≤ '7' then some (c.toNat - '0'.toNat) else none

/-- The byte that a letter behind a backslash stands for. -/
def letterByte? : Char → Option UInt8
  | 'n' => some 10
  | 't' => some 9
  | 'r' => some 13
  | '\\' => some 92
  | '"' => some 34
  | 'a' => some 7
  | 'b' => some 8
  | 'f' => some 12
  | 'v' => some 11
  | _ => none

/-- Put a byte of octal digits in front of bytes. -/
def octalByte (digits : List Nat) : UInt8 :=
  UInt8.ofNat (digits.foldl (fun value digit => 8 * value + digit) 0)

/-- Where the reading of a format stands: between characters, behind a backslash, or
inside the octal digits of a byte. -/
inductive Escape where
  | closed
  | marked
  | octal (digits : List Nat)

/-- The bytes of a text in which backslashes name bytes, from where the reading stands. -/
def unescapedFrom : Escape → List Char → List UInt8
  | .closed, [] => []
  | .marked, [] => [92]
  | .octal digits, [] => [octalByte digits]
  | .closed, c :: rest =>
    if c = '\\' then unescapedFrom .marked rest
    else bytesOf (String.singleton c) ++ unescapedFrom .closed rest
  | .marked, c :: rest =>
    match letterByte? c, octal? c with
    | some byte, _ => byte :: unescapedFrom .closed rest
    | none, some digit => unescapedFrom (.octal [digit]) rest
    | none, none => 92 :: bytesOf (String.singleton c) ++ unescapedFrom .closed rest
  | .octal digits, c :: rest =>
    match octal? c with
    | some digit =>
      if digits.length = 2 then octalByte (digits ++ [digit]) :: unescapedFrom .closed rest
      else unescapedFrom (.octal (digits ++ [digit])) rest
    | none =>
      octalByte digits ::
        if c = '\\' then unescapedFrom .marked rest
        else bytesOf (String.singleton c) ++ unescapedFrom .closed rest

/-- The bytes of a text in which backslashes name bytes. -/
def unescaped (text : List Char) : List UInt8 := unescapedFrom .closed text

/-- The pieces of a format: bytes as they are, and the letters of its directives. -/
def directives : List Char → List Char → List (List Char × Option Char)
  | taken, [] => [(taken.reverse, none)]
  | taken, '%' :: '%' :: rest => directives ('%' :: taken) rest
  | taken, '%' :: letter :: rest => (taken.reverse, some letter) :: directives [] rest
  | taken, c :: rest => directives (c :: taken) rest

/-- What a directive puts out for a word. -/
def directive (letter : Char) (word : String) : List UInt8 :=
  match letter with
  | 'c' => bytesOf (String.ofList (word.toList.take 1))
  | 'b' => unescaped word.toList
  | 'd' => bytesOf (if word.isEmpty then "0" else word)
  | 'i' => bytesOf (if word.isEmpty then "0" else word)
  | 'u' => bytesOf (if word.isEmpty then "0" else word)
  | _ => bytesOf word

/-- Put a format out once. The words that are left come with it. -/
def formatOnce : List (List Char × Option Char) → List String → List UInt8 × List String
  | [], words => ([], words)
  | (text, none) :: rest, words =>
    let (later, left) := formatOnce rest words
    (unescaped text ++ later, left)
  | (text, some letter) :: rest, words =>
    let (later, left) := formatOnce rest (words.drop 1)
    (unescaped text ++ directive letter (words.head?.getD "") ++ later, left)

/-- Put a format out for all words, at most so many times. -/
def formatted (pieces : List (List Char × Option Char)) : Nat → List String → List UInt8
  | 0, _ => []
  | left + 1, words =>
    let (bytes, rest) := formatOnce pieces words
    if rest.isEmpty || rest.length = words.length then bytes
    else bytes ++ formatted pieces left rest

/-- What a format and its words put out. -/
def format (text : String) (words : List String) : List UInt8 :=
  formatted (directives [] text.toList) (words.length + 1) words

end BuildWatch.Script
