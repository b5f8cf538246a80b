import BuildWatch.Number.Shortest
import BuildWatch.Text.Numeral

/-!
# JSON numbers

A literal without fraction and exponent whose value fits a word of 64 bits is an
integer: signed when it is negative, unsigned otherwise. Every other literal is
a decimal, also minus zero, which no integer keeps. A decimal stands for the
64-bit floating point number it rounds to, and a literal without a finite one is
no number.

Of the digits of a decimal the significand takes those that keep it in 64 bits.
Integer digits that do not fit any more count in the exponent only; of the
fraction the digits that fit are taken and the rest is dropped.
-/

namespace BuildWatch

/-- A number as it was read. -/
inductive Json.Number where
  | integer (value : Int)
  | decimal (negative : Bool) (significand : Nat) (exponent : Int)
  deriving DecidableEq, Repr

namespace Json.Number

/-- The bound of an unsigned 64-bit integer. -/
def unsignedBound : Nat := UInt64.size

/-- The bound of the absolute value of a negative 64-bit integer. -/
def signedBound : Nat := Nat.pow 2 63

/-- Take digits into a significand while it fits 64 bits; the digits left over
start with the first that did not fit. -/
def takeDigits (significand : Nat) : List Char → Nat × List Char
  | [] => (significand, [])
  | digit :: rest =>
    let next := 10 * significand + (digit.toNat - '0'.toNat)
    if next < unsignedBound then takeDigits next rest else (significand, digit :: rest)

/-- The parts of a literal: sign, integer digits, fraction digits and exponent.
The last two are absent when their marks are. -/
structure Parts where
  negative : Bool
  whole : List Char
  fraction : Option (List Char)
  exponent : Option Int
  deriving DecidableEq, Repr

/-- Whether digits are one zero, or start with another digit. -/
def isWhole : List Char → Bool
  | [] => false
  | ['0'] => true
  | first :: rest => first != '0' && (first :: rest).all Char.isDigit

/-- The exponent that a text behind the mark names. -/
def exponentOf? (text : List Char) : Option Int :=
  let (negative, digits) :=
    match text with
    | '+' :: digits => (false, digits)
    | '-' :: digits => (true, digits)
    | digits => (false, digits)
  if digits.isEmpty || !digits.all Char.isDigit then none
  else
    let value : Int := Text.digitsValue 0 digits
    some (if negative then -value else value)

/-- Take a literal apart. -/
def parts? (literal : List Char) : Option Parts :=
  let (negative, unsigned) :=
    match literal with
    | '-' :: rest => (true, rest)
    | rest => (false, rest)
  let whole := unsigned.takeWhile Char.isDigit
  let behind := unsigned.dropWhile Char.isDigit
  let (fraction, tail) :=
    match behind with
    | '.' :: rest => (some (rest.takeWhile Char.isDigit), rest.dropWhile Char.isDigit)
    | rest => (none, rest)
  let wellFormed := isWhole whole && fraction != some []
  match tail with
  | [] => if wellFormed then some ⟨negative, whole, fraction, none⟩ else none
  | mark :: exponent =>
    if wellFormed && (mark = 'e' || mark = 'E') then
      (exponentOf? exponent).map fun exponent => ⟨negative, whole, fraction, some exponent⟩
    else none

/-- The number that the parts of a literal stand for, before its range is looked at. -/
def ofParts (parts : Parts) : Number :=
  let (significand, beyond) := takeDigits 0 parts.whole
  match parts.fraction, parts.exponent with
  | none, none =>
    if beyond.isEmpty && !parts.negative then .integer significand
    else if beyond.isEmpty && significand != 0 && significand ≤ signedBound then
      .integer (-significand)
    else .decimal parts.negative significand beyond.length
  | fraction, exponent =>
    let digits := fraction.getD []
    let (extended, dropped) := takeDigits significand digits
    .decimal parts.negative extended
      ((beyond.length : Int) - (digits.length - dropped.length : Nat) + exponent.getD 0)

/-- Whether a number has a finite floating point number. -/
def isFinite : Number → Bool
  | .integer _ => true
  | .decimal _ significand exponent => (Binary64.scale? significand exponent).isSome

/-- Read a literal. -/
def read? (literal : List Char) : Option Number :=
  match parts? literal with
  | none => none
  | some parts => if (ofParts parts).isFinite then some (ofParts parts) else none

/-- The digits of a decimal with a point in or around them, or in scientific form
when the point would stand far away. -/
def layout (decimal : Binary64.Decimal) : String :=
  let digits := (toString decimal.digits).toList
  let point : Int := digits.length + decimal.exponent
  if 0 ≤ decimal.exponent ∧ point ≤ 16 then
    String.ofList digits ++ String.ofList (List.replicate decimal.exponent.toNat '0') ++ ".0"
  else if 0 < point ∧ point ≤ 16 then
    String.ofList (digits.take point.toNat) ++ "." ++ String.ofList (digits.drop point.toNat)
  else if -5 < point ∧ point ≤ 0 then
    "0." ++ String.ofList (List.replicate point.natAbs '0') ++ String.ofList digits
  else
    let power := point - 1
    String.ofList (digits.take 1) ++
      (if digits.length = 1 then "" else "." ++ String.ofList (digits.drop 1)) ++
      "e" ++ (if power < 0 then "-" else "+") ++ toString power.natAbs

/-- The shortest text of the floating point number that a decimal stands for. -/
def decimalText (negative : Bool) (significand : Nat) (exponent : Int) : String :=
  let sign := if negative then "-" else ""
  match Binary64.scale? significand exponent with
  | none => sign ++ "inf"
  | some number =>
    sign ++ (if number.mantissa = 0 then "0.0" else layout number.shortest)

example : read? "-0".toList = some (.decimal true 0 0) := by decide +kernel
example : read? "01".toList = none ∧ read? "1e400".toList = none := by decide +kernel
example : decimalText false 25 9 = "25000000000.0" := by decide +kernel
example : decimalText true 9223372036854775809 0 = "-9.223372036854776e+18" := by decide +kernel

end Json.Number
end BuildWatch
