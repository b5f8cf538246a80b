import BuildWatch.Number.Binary64
import BuildWatch.Text.Numeral
import BuildWatch.Toml.Text
import BuildWatch.Toml.Value

/-!
# Numbers, dates and words of a settings file

Such a value is a stretch of letters, digits and a few marks, so it is cut out
first and then read as a whole. Digits may be grouped by single underscores.
Integers fit 64 bits with a sign, and a number with a fraction or an exponent
has a finite floating point number, at least when it is not negative. A date
is one of the calendar.
-/

namespace BuildWatch.Toml

/-- Whether a character may stand in a value without quotes or brackets. -/
def isWordPart (c : Char) : Bool :=
  c.isAlphanum || c = '+' || c = '-' || c = '_' || c = '.' || c = ':'

/-- Digits without the underscores between them. -/
def ungrouped? (isDigit : Char → Bool) : List Char → Option (List Char)
  | [] => none
  | [c] => if isDigit c then some [c] else none
  | c :: '_' :: rest => if isDigit c then (ungrouped? isDigit rest).map (c :: ·) else none
  | c :: rest => if isDigit c then (ungrouped? isDigit rest).map (c :: ·) else none

/-- The sign of a number, and what follows it. -/
def signed : List Char → Bool × List Char
  | '-' :: rest => (true, rest)
  | '+' :: rest => (false, rest)
  | text => (false, text)

/-- The digits of a whole number, which does not start with a zero unless it is zero. -/
def wholeDigits? (text : List Char) : Option (List Char) :=
  match ungrouped? Char.isDigit text with
  | some ('0' :: _ :: _) => none
  | digits => digits

/-- The value of digits in a base. -/
def baseValue (base : Nat) (digits : List Char) : Nat :=
  digits.foldl (fun value digit => base * value + (hexValue? digit).getD 0) 0

/-- An integer, if it fits 64 bits with a sign. -/
def fitting? (value : Int) : Option Value :=
  if Int64.minValue.toInt ≤ value ∧ value ≤ Int64.maxValue.toInt then some (.integer value) else none

/-- Read an integer in a base below ten or sixteen. -/
def based? (base : Nat) (isDigit : Char → Bool) (text : List Char) : Option Value :=
  (ungrouped? isDigit text).bind fun digits => fitting? (baseValue base digits)

/-- Read an integer. -/
def integer? : List Char → Option Value
  | '0' :: 'x' :: rest => based? 16 (fun c => (hexValue? c).isSome) rest
  | '0' :: 'o' :: rest => based? 8 (fun c => '0' ≤ c ∧ c ≤ '7') rest
  | '0' :: 'b' :: rest => based? 2 (fun c => c = '0' ∨ c = '1') rest
  | text =>
    let (negative, unsigned) := signed text
    (wholeDigits? unsigned).bind fun digits =>
      let value : Int := baseValue 10 digits
      fitting? (if negative then -value else value)

/-- Whether digits times a power of ten have no finite floating point number. The
length of the digits settles all but the numbers near the border. -/
def isBoundless (digits : List Char) (exponent : Int) : Bool :=
  let significand := baseValue 10 digits
  let width : Int := (toString significand).length + exponent
  if significand = 0 || width < 309 then false
  else if 310 < width then true
  else
    (if 0 ≤ exponent then Binary64.nearest? (significand * Nat.pow 10 exponent.natAbs) 1
      else Binary64.nearest? significand (Nat.pow 10 exponent.natAbs)).isNone

/-- Whether a character is a digit or groups digits. -/
def isGroupPart (c : Char) : Bool := c.isDigit || c = '_'

/-- The exponent that follows its mark. -/
def exponent? : List Char → Option Int
  | [] => some 0
  | mark :: rest =>
    let (negative, unsigned) := signed rest
    if mark = 'e' || mark = 'E' then
      (ungrouped? Char.isDigit unsigned).map fun digits =>
        if negative then -(baseValue 10 digits : Int) else baseValue 10 digits
    else none

/-- Read a number with a fraction, an exponent or both. -/
def decimal? (text : List Char) : Option Value :=
  let (negative, unsigned) := signed text
  let number := fun (whole fraction : List Char) (exponent : Int) =>
    if !negative && isBoundless (whole ++ fraction) (exponent - fraction.length) then none
    else some Value.decimal
  (wholeDigits? (unsigned.takeWhile isGroupPart)).bind fun whole =>
    match unsigned.dropWhile isGroupPart with
    | [] => none
    | '.' :: rest =>
      (ungrouped? Char.isDigit (rest.takeWhile isGroupPart)).bind fun fraction =>
        (exponent? (rest.dropWhile isGroupPart)).bind fun exponent => number whole fraction exponent
    | rest => (exponent? rest).bind fun exponent => number whole [] exponent

/-- Read a number of so many digits. -/
def digits? (count : Nat) (text : List Char) : Option (Nat × List Char) :=
  let digits := text.take count
  if digits.length = count ∧ digits.all Char.isDigit then
    some (baseValue 10 digits, text.drop count)
  else none

/-- What follows a mark at the start of a text. -/
def afterMark? (mark : Char) : List Char → Option (List Char)
  | c :: rest => if c = mark then some rest else none
  | [] => none

/-- How many days a month has. -/
def monthLength (year month : Nat) : Nat :=
  if month = 2 then if year % 4 = 0 ∧ (year % 100 ≠ 0 ∨ year % 400 = 0) then 29 else 28
  else if month = 4 ∨ month = 6 ∨ month = 9 ∨ month = 11 then 30
  else 31

/-- What follows a date of the calendar. -/
def afterDate? (text : List Char) : Option (List Char) := do
  let (year, rest) ← digits? 4 text
  let (month, rest) ← digits? 2 (← afterMark? '-' rest)
  let (day, rest) ← digits? 2 (← afterMark? '-' rest)
  if 1 ≤ month ∧ month ≤ 12 ∧ 1 ≤ day ∧ day ≤ monthLength year month then some rest else none

/-- What follows a fraction of a second. -/
def afterFraction? : List Char → Option (List Char)
  | '.' :: c :: rest => if c.isDigit then some (rest.dropWhile Char.isDigit) else none
  | '.' :: [] => none
  | text => some text

/-- What follows a time of day; a minute may have a leap second. -/
def afterTime? (text : List Char) : Option (List Char) := do
  let (hour, rest) ← digits? 2 text
  let (minute, rest) ← digits? 2 (← afterMark? ':' rest)
  let (second, rest) ← digits? 2 (← afterMark? ':' rest)
  if hour < 24 ∧ minute < 60 ∧ second ≤ 60 then afterFraction? rest else none

/-- Whether a text is an offset from universal time, or empty. -/
def isOffset : List Char → Bool
  | [] => true
  | ['Z'] => true
  | ['z'] => true
  | mark :: rest =>
    (mark = '+' || mark = '-') &&
      match (digits? 2 rest).bind fun (hour, rest) =>
        (afterMark? ':' rest).bind fun rest => (digits? 2 rest).map fun (minute, rest) =>
          (hour, minute, rest) with
      | some (hour, minute, []) => hour < 24 && minute < 60
      | _ => false

/-- Whether a text is a time of day with or without an offset. -/
def isOffsetTime (text : List Char) : Bool :=
  match afterTime? text with
  | some rest => isOffset rest
  | none => false

/-- Read a date, a time, or both. -/
def moment? (text : List Char) : Option Value :=
  let holds :=
    match afterDate? text with
    | some [] => true
    | some (mark :: rest) => (mark = 'T' || mark = 't') && isOffsetTime rest
    | none => afterTime? text = some []
  if holds then some .moment else none

/-- Read a word that is no number. -/
def word? (text : List Char) : Option Value :=
  if text = ['t', 'r', 'u', 'e'] then some (.flag true)
  else if text = ['f', 'a', 'l', 's', 'e'] then some (.flag false)
  else if (signed text).2 = ['i', 'n', 'f'] ∨ (signed text).2 = ['n', 'a', 'n'] then some .decimal
  else none

/-- Read a whole stretch. -/
def ofWord? (word : List Char) : Option Value :=
  (word? word).or ((moment? word).or ((decimal? word).or (integer? word)))

/-- Read a value without quotes or brackets. A blank may stand between a date and
a time. -/
def scalar (text : List Char) : Option (Value × List Char) :=
  let word := text.takeWhile isWordPart
  let rest := text.dropWhile isWordPart
  let alone := (ofWord? word).map fun value => (value, rest)
  match rest with
  | ' ' :: c :: more =>
    if afterDate? word = some [] && c.isDigit then
      let behind := c :: more
      if isOffsetTime (behind.takeWhile isWordPart) then
        some (.moment, behind.dropWhile isWordPart)
      else none
    else alone
  | _ => alone

end BuildWatch.Toml
