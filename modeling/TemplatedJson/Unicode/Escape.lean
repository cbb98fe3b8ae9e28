/-!
# Numeric escapes

A character below `U+10000` can be written as `\u` and the four hexadecimal
digits of its code point.
-/

namespace TemplatedJson.Unicode

/-- The lower-case hexadecimal digit at a place of a number.  Place zero holds
the ones. -/
def hexDigitAt (number place : Nat) : Char :=
  Nat.digitChar (number / Nat.pow 16 place % 16)

/-- The escape of a character below `U+10000`, with lower-case digits. -/
def escape (character : Char) : List Char :=
  let code := character.toNat
  ['\\', 'u', hexDigitAt code 3, hexDigitAt code 2, hexDigitAt code 1, hexDigitAt code 0]

end TemplatedJson.Unicode
