/-!
# Fractions and decimals

Conversion between decimal and binary notation is exact arithmetic on
quotients of natural numbers.  This file holds those quotients, their rounding
to whole numbers, and decimal numbers.
-/

namespace TemplatedJson

/-- The quotient `numerator / denominator`; the denominator is positive in
every fraction that this library builds. -/
structure Fraction where
  numerator : Nat
  denominator : Nat

namespace Fraction

/-- The fraction times `base ^ power`. -/
def scale (fraction : Fraction) (base : Nat) (power : Int) : Fraction :=
  if 0 ≤ power then ⟨fraction.numerator * Nat.pow base power.toNat, fraction.denominator⟩
  else ⟨fraction.numerator, fraction.denominator * Nat.pow base (-power).toNat⟩

def floor (fraction : Fraction) : Nat :=
  fraction.numerator / fraction.denominator

/-- The nearest whole number; a half goes to the even neighbour. -/
def round (fraction : Fraction) : Nat :=
  let quotient := fraction.floor
  let remainder := fraction.numerator % fraction.denominator
  if 2 * remainder < fraction.denominator then quotient
  else if fraction.denominator < 2 * remainder then quotient + 1
  else quotient + quotient % 2

def digitCount (number : Nat) : Nat :=
  (Nat.toDigits 10 number).length

/-- The exponent of the leading decimal digit of a positive fraction: the
fraction is at least `10` to this power and below the next power.  The lengths
of numerator and denominator leave two candidates. -/
def leadingExponent (fraction : Fraction) : Int :=
  let estimate : Int := digitCount fraction.numerator - digitCount fraction.denominator
  if 1 ≤ (fraction.scale 10 (-estimate)).floor then estimate else estimate - 1

end Fraction

/-- The number `significand * 10 ^ exponent`. -/
structure Decimal where
  significand : Nat
  exponent : Int
deriving DecidableEq, Repr

namespace Decimal

def toFraction (decimal : Decimal) : Fraction :=
  (Fraction.mk decimal.significand 1).scale 10 decimal.exponent

/-- The digits of the significand without the zeros at its end, and the
exponent that the last remaining digit then has. -/
def trimmedDigits (decimal : Decimal) : List Char × Int :=
  let digits := Nat.toDigits 10 decimal.significand
  let kept := (digits.reverse.dropWhile (· = '0')).reverse
  (kept, decimal.exponent + (digits.length - kept.length : Nat))

end Decimal

end TemplatedJson
