/-!
# Binary floating point numbers of 64 bits

A finite number without a sign is a mantissa below 2^53 times a power of two
not below 2^-1074. Products and quotients are computed exactly and then rounded
to the nearest such number, a tie going to the even mantissa. What would not lie
below 2^1024 is no finite number.
-/

namespace BuildWatch

/-- A finite number `mantissa * 2 ^ exponent`. -/
structure Binary64 where
  mantissa : Nat
  exponent : Int
  deriving DecidableEq, Repr

namespace Binary64

/-- The quotient rounded to the nearest integer, a tie going to the even one. -/
def roundedQuotient (numerator denominator : Nat) : Nat :=
  let quotient := numerator / denominator
  match compare (2 * (numerator % denominator)) denominator with
  | .lt => quotient
  | .gt => quotient + 1
  | .eq => quotient + quotient % 2

/-- A rational number over a power of two, as numerator and denominator. -/
def scaled (numerator denominator : Nat) (exponent : Int) : Nat × Nat :=
  if exponent < 0 then (numerator * Nat.pow 2 exponent.natAbs, denominator)
  else (numerator, denominator * Nat.pow 2 exponent.natAbs)

/-- The lowest power of two a mantissa is multiplied with. -/
def lowest : Int := -1074

/-- The highest power of two a mantissa is multiplied with. -/
def highest : Int := 971

/-- The power of two at which the quotient has 53 binary digits, or the lowest one. -/
def unitOf (numerator denominator : Nat) : Int :=
  let guess : Int := (numerator.log2 : Int) - denominator.log2 - 53
  let (above, below) := scaled numerator denominator guess
  max lowest (if above / below < Nat.pow 2 53 then guess else guess + 1)

/-- The nearest number to a quotient, if it is finite. -/
def nearest? (numerator denominator : Nat) : Option Binary64 :=
  let exponent := unitOf numerator denominator
  let (above, below) := scaled numerator denominator exponent
  let mantissa := roundedQuotient above below
  let number : Binary64 :=
    if mantissa = Nat.pow 2 53 then ⟨Nat.pow 2 52, exponent + 1⟩ else ⟨mantissa, exponent⟩
  if number.mantissa = 0 then some ⟨0, lowest⟩
  else if number.exponent ≤ highest then some number
  else none

/-- A number as numerator and denominator. -/
def ratio (number : Binary64) : Nat × Nat := scaled number.mantissa 1 (-number.exponent)

/-- The nearest number to a product, if it is finite. -/
def times? (left right : Binary64) : Option Binary64 :=
  nearest? (left.ratio.1 * right.ratio.1) (left.ratio.2 * right.ratio.2)

/-- The nearest number to a quotient, if it is finite. -/
def over? (left right : Binary64) : Option Binary64 :=
  nearest? (left.ratio.1 * right.ratio.2) (left.ratio.2 * right.ratio.1)

/-- The highest power of ten with a finite nearest number. -/
def highestTen : Nat := 308

/-- The nearest number to a power of ten. -/
def powerOfTen? (power : Nat) : Option Binary64 := nearest? (Nat.pow 10 power) 1

/-- Divide by a number so many times, rounding each time; a zero stays. -/
def divided? (divisor number : Binary64) : Nat → Option Binary64
  | 0 => some number
  | times + 1 =>
    if number.mantissa = 0 then some number
    else
      match number.over? divisor with
      | none => none
      | some smaller => divided? divisor smaller times

/-- The number that a significand and a decimal exponent stand for, if it is
finite: one rounded product or quotient of the rounded significand with a rounded
power of ten. Of a negative exponent beyond the highest power, steps of that power
are taken off first, each by a division of its own. -/
def scale? (significand : Nat) (exponent : Int) : Option Binary64 :=
  match nearest? significand 1 with
  | none => none
  | some number =>
    if number.mantissa = 0 then some number
    else
      let steps := (exponent.natAbs - 1) / highestTen
      let rest := exponent.natAbs - steps * highestTen
      match powerOfTen? rest with
      | none => none
      | some power =>
        if 0 ≤ exponent then if steps = 0 then number.times? power else none
        else
          match (powerOfTen? highestTen).bind (divided? · number steps) with
          | none => none
          | some smaller => if smaller.mantissa = 0 then some smaller else smaller.over? power

example : nearest? 1 10 = some ⟨7205759403792794, -56⟩ := by decide +kernel
example : scale? 1 400 = none ∧ scale? 0 400 = some ⟨0, lowest⟩ := by decide +kernel

end Binary64
end BuildWatch
