/-!
# Parse errors

A parse error is a cause together with the place where it was met.  Places are
counted in characters from the start of the text that the caller passed in.
-/

namespace TemplatedJson

/-- Why a text was refused. -/
inductive ParseError.Cause where
  /-- A character that begins no token, or that must not stand in a string. -/
  | unexpectedCharacter (character : Char)
  | unterminatedString
  /-- A backslash that the given characters do not complete to an escape. -/
  | invalidEscape (sequence : String)
  /-- A number that is not finite, or not written as its grammar asks. -/
  | invalidNumber (raw : String)
  /-- A token where the grammar asks for something else. -/
  | unexpectedToken (expected found : String)
  | tooDeeplyNested (limit : Nat)
deriving DecidableEq, Repr

/-- A cause and the offset of the character that it concerns. -/
structure ParseError where
  cause : ParseError.Cause
  offset : Nat
deriving DecidableEq, Repr

namespace ParseError

/-- The stable name of a cause. -/
def Cause.kind : Cause → String
  | .unexpectedCharacter _ => "UnexpectedCharacter"
  | .unterminatedString => "UnterminatedString"
  | .invalidEscape _ => "InvalidEscape"
  | .invalidNumber _ => "InvalidNumber"
  | .unexpectedToken _ _ => "SyntaxError"
  | .tooDeeplyNested _ => "TooDeeplyNested"

/-- Whether the cause lies in the spelling of a token rather than in the order
of the tokens. -/
def Cause.isLexical : Cause → Bool
  | .unexpectedCharacter _ | .unterminatedString | .invalidEscape _ | .invalidNumber _ => true
  | .unexpectedToken _ _ | .tooDeeplyNested _ => false

def kind (error : ParseError) : String :=
  error.cause.kind

def isLexical (error : ParseError) : Bool :=
  error.cause.isLexical

def message (error : ParseError) : String :=
  let offset := toString error.offset
  match error.cause with
  | .unexpectedCharacter character =>
      "Unexpected character '" ++ character.toString ++ "' at offset " ++ offset
  | .unterminatedString => "Unterminated string starting at offset " ++ offset
  | .invalidEscape sequence =>
      "Invalid escape sequence '\\" ++ sequence ++ "' at offset " ++ offset
  | .invalidNumber raw => "Invalid number '" ++ raw ++ "' at offset " ++ offset
  | .unexpectedToken expected found =>
      "Syntax error at offset " ++ offset ++ ": expected " ++ expected ++ ", found " ++ found
  | .tooDeeplyNested limit =>
      "Too deeply nested at offset " ++ offset ++ ": limit is " ++ toString limit ++ " levels"

/-- The same cause at another place.  An error inside an embedded expression
moves to the coordinates of the enclosing document this way. -/
def relocate (error : ParseError) (place : Nat → Nat) : ParseError :=
  { error with offset := place error.offset }

end ParseError

end TemplatedJson
