import TemplatedJson.Document
import TemplatedJson.Expr.Parser
import TemplatedJson.Template.Place

/-!
# Reading JSON with templates

The lexer knows more than JSON does, so every difference is checked here: only
double quotes, no leading zeros, a minus sign right before its digits, and only
one word for null.  Strings in value position that hold an expression are read
by the expression parser, and its errors are moved to the place in the document
that they concern.
-/

namespace TemplatedJson

/-- Reads a text as one expression inside `depth` containers, all of which count
towards the limit. -/
def Expr.parseInside (maximum depth : Nat) (text : String) : Except ParseError Expr := do
  let cursor ← Cursor.ofText text depth
  (Parse.runAt (Parse.completeExpression ⟨maximum, depth⟩) cursor).1

namespace Parse

/-- Passes a string in double quotes and yields its content and its token. -/
def jsonString : Parse (String × Token) := do
  let token := (← get).current
  match token.kind with
  | .string content .double =>
      discard advance
      return (content, token)
  | .string _ quote =>
      let found := "string quoted with " ++ quote.character.toString
      throw ⟨.unexpectedToken "double-quoted string" found, token.offset⟩
  | _ => unexpected "double-quoted string"

def hasLeadingZero : List Char → Bool
  | '0' :: next :: _ => next.isDigit
  | _ => false

/-- The literal that digits and a sign before them denote. -/
def jsonNumber (sign digits : String) (offset : Nat) : Parse Node :=
  match Literal.number? (sign ++ digits) with
  | some literal =>
      if hasLeadingZero digits.toList then throw ⟨.invalidNumber (sign ++ digits), offset⟩
      else pure (.literal literal)
  | none => throw ⟨.invalidNumber (sign ++ digits), offset⟩

/-- Reads a minus sign and the digits right after it. -/
def negativeNumber : Parse Node := do
  let minus ← advance
  let digits := (← get).current
  if digits.kind = .number && digits.offset = minus.stop then
    discard advance
    jsonNumber minus.raw digits.raw minus.offset
  else
    unexpected "digits after '-'"

/-- Turns a string into a literal, or into a template if its content is an
expression. -/
def stringValue (maximum : Nat) (content : String) (token : Token) : Parse Node := do
  match Template.detect? content with
  | none => return .literal ⟨.string content, token.raw⟩
  | some embedded =>
      let sighting := ⟨embedded.form, token.offset⟩
      modify fun cursor => { cursor with sightings := cursor.sightings ++ [sighting] }
      match Expr.parseInside maximum (← get).depth embedded.source with
      | .ok expr => return .template expr
      | .error error =>
          throw (error.relocate fun inner =>
            token.offset + Template.rawIndex token.raw (embedded.start + inner))

/-- Reads a value, given the readers for objects and arrays. -/
def value (maximum : Nat) (object array : Parse Node) : Parse Node := do
  let token := (← get).current
  match token.kind with
  | .symbol .leftBrace => object
  | .symbol .leftBracket => array
  | .string _ _ =>
      let (content, token) ← jsonString
      stringValue maximum content token
  | .number =>
      discard advance
      jsonNumber "" token.raw token.offset
  | .symbol .minus => negativeNumber
  | .boolean value =>
      discard advance
      return .literal ⟨.boolean value, token.raw⟩
  | .null =>
      if token.raw = "null" then
        discard advance
        return .literal ⟨.null, token.raw⟩
      else
        unexpected "JSON value"
  | _ => unexpected "JSON value"

def member (value : Parse Node) : Parse (Member Node) := do
  let (key, _) ← jsonString
  expect .colon
  return ⟨key, ← value⟩

def object (value : Parse Node) : Parse Node := do
  expect .leftBrace
  return .object (← listUntil .rightBrace (member value))

def array (value : Parse Node) : Parse Node := do
  expect .leftBracket
  return .array (← listUntil .rightBracket value)

/-- Reads a value whose containers nest at most `levels` deep. -/
def valueWithin (maximum : Nat) : (levels : Nat) → Parse Node
  | 0 => value maximum (deeper (tooDeep maximum)) (deeper (tooDeep maximum))
  | levels + 1 =>
      value maximum
        (deeper (object (valueWithin maximum levels)))
        (deeper (array (valueWithin maximum levels)))

/-- Reads a JSON value that extends to the end of the text. -/
def completeValue (maximum : Nat) : Parse Node := do
  let node ← valueWithin maximum (maximum - (← get).depth)
  expectEnd
  return node

/-- Reads a document: JSON if it begins with an opening brace or bracket, and
an expression otherwise. -/
def document (maximum : Nat) : Parse Document := do
  match ← currentKind with
  | .symbol .leftBrace => return .json (← completeValue maximum)
  | .symbol .leftBracket => return .json (← completeValue maximum)
  | _ => return .expression (← completeExpression ⟨maximum, 0⟩)

end Parse

end TemplatedJson
