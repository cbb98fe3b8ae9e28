/-!
# White space and control characters

Three sets of invisible characters play different roles.  Tokens are separated
by the four blanks of JSON only; the text around a block template may be any
Unicode white space; and printed strings escape control characters.
-/

namespace TemplatedJson.Unicode

/-- The blanks that may stand between two tokens: space, tab, line feed and
carriage return. -/
def isJsonBlank (character : Char) : Bool :=
  character = ' ' || character = '\t' || character = '\n' || character = '\r'

/-- The Unicode property `White_Space`. -/
def isWhiteSpace (character : Char) : Bool :=
  let code := character.toNat
  (9 ≤ code && code ≤ 13) || code = 0x20 || code = 0x85 || code = 0xA0 || code = 0x1680 ||
    (0x2000 ≤ code && code ≤ 0x200A) || code = 0x2028 || code = 0x2029 || code = 0x202F ||
    code = 0x205F || code = 0x3000

/-- The general category `Cc`: the control codes of ASCII and of Latin-1. -/
def isControl (character : Char) : Bool :=
  let code := character.toNat
  code < 0x20 || (0x7F ≤ code && code ≤ 0x9F)

/-- A text without the white space at its two ends. -/
def trim (characters : List Char) : List Char :=
  ((characters.dropWhile isWhiteSpace).reverse.dropWhile isWhiteSpace).reverse

end TemplatedJson.Unicode
