import TemplatedJson.Decimal.Fraction

/-!
# Finite numbers of the binary64 format

Numbers that are not 64-bit integers are kept in the binary64 format.  A text
stands for the nearest number of the format, a half going to the even
significand, and a text beyond the range of the format stands for none.
-/

namespace TemplatedJson

/-- The finite number `significand * 2 ^ exponent` with a sign, which zero has
too.  A number has one such form: the significand is below `2 ^ 53`, and it is
at least `2 ^ 52` unless the exponent is the least one, `-1074`. -/
structure Binary64 where
  negative : Bool
  significand : Nat
  exponent : Int
deriving DecidableEq, Repr

namespace Binary64

/-- The exponent of the least positive number, `2 ^ -1074`. -/
def leastExponent : Int := -1074

def greatestExponent : Int := 971

/-- The least significand of 53 bits, `2 ^ 52`. -/
def leastNormal : Nat := 0x10000000000000

/-- The first number beyond 53 bits, `2 ^ 53`. -/
def significandBound : Nat := 0x20000000000000

def zero (negative : Bool) : Binary64 :=
  ⟨negative, 0, leastExponent⟩

def isZero (number : Binary64) : Bool :=
  number.significand = 0

def toFraction (number : Binary64) : Fraction :=
  (Fraction.mk number.significand 1).scale 2 number.exponent

/-- The exponent at which a positive fraction has a significand of 53 bits, or
the least exponent where it has fewer.  The bit lengths of numerator and
denominator leave two candidates. -/
def exponentFor (fraction : Fraction) : Int :=
  let estimate : Int := Nat.log2 fraction.numerator - Nat.log2 fraction.denominator - 53
  let exponent :=
    if (fraction.scale 2 (-estimate)).floor < significandBound then estimate else estimate + 1
  max leastExponent exponent

/-- The number nearest to a positive fraction.  Rounding may carry into a
54th bit, which moves the significand to the next exponent. -/
def ofFraction? (negative : Bool) (fraction : Fraction) : Option Binary64 :=
  let exponent := exponentFor fraction
  let rounded := (fraction.scale 2 (-exponent)).round
  let number : Binary64 :=
    if rounded < significandBound then ⟨negative, rounded, exponent⟩
    else ⟨negative, leastNormal, exponent + 1⟩
  if number.exponent ≤ greatestExponent then some number else none

/-- The number nearest to a decimal, if it is finite.  A decimal of `10 ^ 310`
or more is beyond the range and one below `10 ^ -330` rounds to zero, so powers
of ten stay small however large the exponent in the text is. -/
def ofDecimal? (negative : Bool) (decimal : Decimal) : Option Binary64 :=
  if decimal.significand = 0 then some (zero negative)
  else
    let leading : Int := decimal.exponent + Fraction.digitCount decimal.significand - 1
    if 310 ≤ leading then none
    else if leading < -330 then some (zero negative)
    else ofFraction? negative decimal.toFraction

end Binary64

end TemplatedJson
