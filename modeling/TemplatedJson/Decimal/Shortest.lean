import TemplatedJson.Decimal.Binary64

/-!
# The shortest decimal that reads back

A binary64 number is written with the fewest digits that read back as the same
number.  For one digit, two digits and so on, the decimals of that many digits
next to the number are its two neighbours on a grid; the first grid with a
neighbour that reads back decides how many digits are written.
-/

namespace TemplatedJson.Binary64

/-- Whether a decimal reads back as the given number. -/
def readsFrom (number : Binary64) (decimal : Decimal) : Bool :=
  ofDecimal? number.negative decimal = some number

/-- The neighbour of a number on the grid of multiples of `10 ^ exponent` that
reads back, the nearer one if both do. -/
def onGrid? (number : Binary64) (exponent : Int) : Option Decimal :=
  let scaled := number.toFraction.scale 10 (-exponent)
  let nearer := scaled.round
  let farther := if nearer = scaled.floor then nearer + 1 else scaled.floor
  if number.readsFrom ⟨nearer, exponent⟩ then some ⟨nearer, exponent⟩
  else if number.readsFrom ⟨farther, exponent⟩ then some ⟨farther, exponent⟩
  else none

/-- The shortest decimal that reads back as a number that is not zero, the
nearest one of that length.  Seventeen digits always suffice. -/
def shortest (number : Binary64) : Decimal :=
  let leading := number.toFraction.leadingExponent
  let finest := leading - 16
  let candidate := (List.range 17).findSome? fun (more : Nat) => number.onGrid? (leading - more)
  candidate.getD ⟨(number.toFraction.scale 10 (-finest)).round, finest⟩

end TemplatedJson.Binary64
