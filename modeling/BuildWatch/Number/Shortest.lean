import BuildWatch.Number.Binary64

/-!
# Shortest decimals

Of all decimals that round to a given number, the one with the fewest digits is
chosen, of those the nearest to the number, and of two equally near ones the one
with an even last digit. The decimals that round to a number lie between the
midpoints to its neighbours; the midpoints belong to it when its mantissa is
even. On the grid of a given number of digits only the two neighbours of the
number itself need to be looked at.
-/

namespace BuildWatch.Binary64

/-- A decimal `digits * 10 ^ exponent`. -/
structure Decimal where
  digits : Nat
  exponent : Int
  deriving DecidableEq, Repr

/-- The midpoints to the two neighbours, in quarters of the unit of the last
binary digit. The neighbour below a power of two is nearer. -/
def midpoints (number : Binary64) : Nat × Nat :=
  let below := if number.mantissa = Nat.pow 2 52 ∧ lowest < number.exponent then 1 else 2
  (4 * number.mantissa - below, 4 * number.mantissa + 2)

/-- Compare a decimal with a count of quarters of the unit of a number. -/
def compareQuarters (number : Binary64) (decimal : Decimal) (quarters : Nat) : Ordering :=
  let ten := Nat.pow 10 decimal.exponent.natAbs
  let two := Nat.pow 2 (number.exponent - 2).natAbs
  let left := decimal.digits * (if 0 ≤ decimal.exponent then ten else 1) *
    (if 0 ≤ number.exponent - 2 then 1 else two)
  let right := quarters * (if 0 ≤ number.exponent - 2 then two else 1) *
    (if 0 ≤ decimal.exponent then 1 else ten)
  compare left right

/-- Whether a decimal rounds to a number. -/
def readsBack (number : Binary64) (decimal : Decimal) : Bool :=
  let (low, high) := number.midpoints
  let even := number.mantissa % 2 = 0
  (match number.compareQuarters decimal low with
    | .gt => true
    | .eq => even
    | .lt => false) &&
  (match number.compareQuarters decimal high with
    | .lt => true
    | .eq => even
    | .gt => false)

/-- The multiples of a power of ten on both sides of a number. -/
def gridNeighbours (number : Binary64) (exponent : Int) : Decimal × Decimal :=
  let (numerator, denominator) := number.ratio
  let ten := Nat.pow 10 exponent.natAbs
  let floor :=
    if 0 ≤ exponent then numerator / (denominator * ten) else numerator * ten / denominator
  (⟨floor, exponent⟩, ⟨floor + 1, exponent⟩)

/-- The nearer of the two grid neighbours that round to the number. -/
def onGrid (number : Binary64) (exponent : Int) : Option Decimal :=
  let (low, high) := number.gridNeighbours exponent
  match number.readsBack low, number.readsBack high with
  | false, false => none
  | true, false => some low
  | false, true => some high
  | true, true =>
    let (numerator, denominator) := number.ratio
    let ten := Nat.pow 10 exponent.natAbs
    -- Twice the number against the sum of its neighbours on the grid.
    let twice := 2 * numerator * (if 0 ≤ exponent then 1 else ten)
    let sum := (low.digits + high.digits) * denominator * (if 0 ≤ exponent then ten else 1)
    match compare twice sum with
    | .lt => some low
    | .gt => some high
    | .eq => some (if low.digits % 2 = 0 then low else high)

/-- The exponent of the leading decimal digit, for a number other than zero. -/
def leadingTen (number : Binary64) : Int :=
  let (numerator, denominator) := number.ratio
  let guess : Int := ((Nat.toDigits 10 numerator).length : Int) - (Nat.toDigits 10 denominator).length
  let ten := Nat.pow 10 guess.natAbs
  let reached :=
    if 0 ≤ guess then decide (denominator * ten ≤ numerator)
    else decide (denominator ≤ numerator * ten)
  if reached then guess else guess - 1

/-- Take trailing zeros off the digits of a decimal, at most so many. -/
def stripZeros : Nat → Decimal → Decimal
  | 0, decimal => decimal
  | left + 1, decimal =>
    if decimal.digits % 10 = 0 then stripZeros left ⟨decimal.digits / 10, decimal.exponent + 1⟩
    else decimal

/-- The shortest decimal that rounds to a number other than zero. Seventeen digits
are always enough; the last grid is also the answer should none have held one. -/
def shortest (number : Binary64) : Decimal :=
  let leading := number.leadingTen
  let tried := (List.range 17).findSome? fun (digits : Nat) => number.onGrid (leading - digits)
  stripZeros 20 (tried.getD (number.gridNeighbours (leading - 16)).1)

example : (nearest? 1 10).map shortest = some ⟨1, -1⟩ := by decide +kernel
example : (nearest? 123456789012345678901234567890 1).map shortest =
    some ⟨12345678901234568, 13⟩ := by decide +kernel

end BuildWatch.Binary64
