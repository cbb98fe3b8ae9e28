import TemplatedJson.Decimal.Shortest

/-!
# Numbers and their text

The text of a number is an optional sign, decimal digits with an optional
point, and an optional power of ten.  Whole numbers within the 64-bit ranges
stay exact; all other texts are read as the nearest finite binary64 number.
-/

namespace TemplatedJson

inductive Number where
  | integer (value : Int)
  | float (value : Binary64)
deriving DecidableEq, Repr

namespace Number

/-- The value of a nonempty run of ASCII digits. -/
def natural? (text : List Char) : Option Nat :=
  if text ≠ [] && text.all Char.isDigit then some (Nat.ofDigitChars 10 text 0) else none

/-- Splits a sign off a text; the flag tells whether it is a minus. -/
def splitSign : List Char → Bool × List Char
  | '-' :: magnitude => (true, magnitude)
  | '+' :: magnitude => (false, magnitude)
  | magnitude => (false, magnitude)

/-- The value of an optional sign followed by ASCII digits. -/
def integer? (text : List Char) : Option Int :=
  let (negative, magnitude) := splitSign text
  (natural? magnitude).map fun value => if negative then -(value : Int) else value

/-- The power of ten written after a number: nothing, or `e` or `E` and a whole
number. -/
def exponent? : List Char → Option Int
  | [] => some 0
  | mark :: power => if mark = 'e' || mark = 'E' then integer? power else none

/-- The decimal that a text denotes, and whether it has a minus sign.  At least
one digit must stand before or after the point. -/
def decimal? (text : List Char) : Option (Bool × Decimal) :=
  let (negative, magnitude) := splitSign text
  let whole := magnitude.takeWhile Char.isDigit
  let (fraction, power) :=
    match magnitude.dropWhile Char.isDigit with
    | '.' :: rest => (rest.takeWhile Char.isDigit, rest.dropWhile Char.isDigit)
    | rest => ([], rest)
  if whole.isEmpty && fraction.isEmpty then none
  else
    (exponent? power).map fun exponent =>
      (negative, ⟨Nat.ofDigitChars 10 (whole ++ fraction) 0, exponent - fraction.length⟩)

/-- Whether a whole number is kept exactly: it is one of the signed or of the
unsigned 64-bit integers, from `-2 ^ 63` up to `2 ^ 64 - 1`. -/
def isExact (value : Int) : Bool :=
  -0x8000000000000000 ≤ value && value < 0x10000000000000000

/-- The nearest finite binary64 number that a text denotes. -/
def float? (text : List Char) : Option Number :=
  (decimal? text).bind fun (negative, decimal) =>
    (Binary64.ofDecimal? negative decimal).map float

/-- The number that a text denotes, if it denotes one that is finite. -/
def ofText? (text : String) : Option Number :=
  match integer? text.toList with
  | some value => if isExact value then some (integer value) else float? text.toList
  | none => float? text.toList

/-- Digits in positional notation, with a digit on both sides of the point.
The last digit stands for a multiple of `10 ^ exponent`. -/
def positional (digits : List Char) (exponent : Int) : List Char :=
  if 0 ≤ exponent then
    digits ++ List.replicate exponent.toNat '0' ++ ['.', '0']
  else
    let places := (-exponent).toNat
    let padded := List.replicate (places + 1 - digits.length) '0' ++ digits
    padded.take (padded.length - places) ++ '.' :: padded.drop (padded.length - places)

/-- Digits with one of them before the point and a power of ten, whose sign is
always written. -/
def scientific (digits : List Char) (leading : Int) : List Char :=
  let sign := if leading < 0 then '-' else '+'
  let power := 'e' :: sign :: Nat.toDigits 10 leading.natAbs
  match digits with
  | first :: second :: more => first :: '.' :: second :: more ++ power
  | single => single ++ power

/-- The text of the absolute value of a binary64 number: the fewest digits that
read back, written positionally from `1e-5` up to `1e16`. -/
def magnitudeText (value : Binary64) : List Char :=
  if value.isZero then ['0', '.', '0']
  else
    let (digits, exponent) := value.shortest.trimmedDigits
    let leading := exponent + digits.length - 1
    if -5 ≤ leading && leading < 16 then positional digits exponent
    else scientific digits leading

def text : Number → String
  | integer value => toString value
  | float value =>
      String.ofList (if value.negative then '-' :: magnitudeText value else magnitudeText value)

end Number

end TemplatedJson
