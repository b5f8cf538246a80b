/-!
# Decimal numerals

Reading accepts an optional plus sign and at least one ASCII digit, and refuses
a value above the stated bound. Writing pads with zeros to a stated width.
-/

namespace BuildWatch.Text

/-- The value of a digit list read from the left, on top of the value so far. -/
def digitsValue (start : Nat) (digits : List Char) : Nat :=
  digits.foldl (fun value digit => 10 * value + (digit.toNat - '0'.toNat)) start

/-- The digits of a numeral without its optional plus sign. -/
def dropPlus : List Char → List Char
  | '+' :: digits => digits
  | digits => digits

/-- The value of an unsigned numeral that does not exceed the bound. -/
def numeral? (bound : Nat) (text : List Char) : Option Nat :=
  let digits := dropPlus text
  if digits.isEmpty || !digits.all Char.isDigit then none
  else
    let value := digitsValue 0 digits
    if value ≤ bound then some value else none

/-- The value of a numeral that fits 32 bits. -/
def word32? (text : List Char) : Option UInt32 :=
  (numeral? (UInt32.size - 1) text).map UInt32.ofNat

/-- The decimal digits of a number, with zeros in front up to two digits. -/
def twoDigits (value : Nat) : String :=
  if value < 10 then "0" ++ toString value else toString value

/-- The time of day of a number of seconds since midnight of any day. -/
def clock (seconds : Nat) : String :=
  twoDigits (seconds / 3600 % 24) ++ ":" ++ twoDigits (seconds / 60 % 60) ++ ":" ++
    twoDigits (seconds % 60)

/-- A number with its noun; any number but one takes an s. -/
def count (number : Nat) (noun : String) : String :=
  toString number ++ " " ++ noun ++ (if number = 1 then "" else "s")

example : numeral? 255 "+007".toList = some 7 := by decide
example : numeral? 255 "256".toList = none := by decide
example : clock 90061 = "01:01:01" := by decide

end BuildWatch.Text
