import TemplatedJson.Lexer
import TemplatedJson.Template

/-!
# Reading tokens

A cursor stands at a token of a text and knows the answers that the lexer will
give next.  Parsers move it forward.  A parser that fails leaves the cursor
where it stopped, so that a caller may go on from there.

The depth counts the expressions and containers that are being read.  A parser
that succeeds restores it, and one that fails keeps the depth it had reached.
-/

namespace TemplatedJson

/-- The limits that hold while an expression is read: the greatest nesting, and
how many containers around the expression count towards it. -/
structure Limits where
  maximum : Nat
  base : Nat

structure Cursor where
  current : Token
  /-- The answers of the lexer after the current token. -/
  upcoming : TokenStream
  /-- How many expressions and containers are being read. -/
  depth : Nat
  /-- The templates met so far, the first one first. -/
  sightings : List Template.Sighting

namespace Cursor

/-- A cursor at the first token of a text, inside `depth` containers. -/
def ofText (text : String) (depth : Nat) : Except ParseError Cursor :=
  let (first, upcoming) := (Lexer.ofText text).stream.next
  first.map fun token => ⟨token, upcoming, depth, []⟩

/-- A bound on the number of tokens from the current one to the end of the
text. -/
def remaining (cursor : Cursor) : Nat :=
  cursor.upcoming.pending.length + 1

end Cursor

/-- A parser: it moves a cursor and yields a value or fails. -/
abbrev Parse (Value : Type) := EStateM ParseError Cursor Value

namespace Parse

variable {Value : Type}

def runAt (parser : Parse Value) (cursor : Cursor) : Except ParseError Value × Cursor :=
  match parser.run cursor with
  | .ok value after => (.ok value, after)
  | .error error after => (.error error, after)

/-- Steps to the next token and yields the one just passed.  Where the lexer
answers with an error, that answer is used up and the cursor stays. -/
def advance : Parse Token := fun cursor =>
  match cursor.upcoming.next with
  | (.ok token, upcoming) =>
      .ok cursor.current { cursor with current := token, upcoming := upcoming }
  | (.error error, upcoming) => .error error { cursor with upcoming := upcoming }

/-- The token after the current one.  The cursor stays, except that an error is
used up. -/
def peek : Parse Token := fun cursor =>
  match cursor.upcoming.next with
  | (.ok token, _) => .ok token cursor
  | (.error error, upcoming) => .error error { cursor with upcoming := upcoming }

def currentKind : Parse Token.Kind := do
  return (← get).current.kind

def isAt (symbol : Symbol) : Parse Bool := do
  return (← currentKind) = .symbol symbol

def failAt (token : Token) (expected : String) : Parse Value :=
  throw ⟨.unexpectedToken expected token.kind.describe, token.offset⟩

def unexpected (expected : String) : Parse Value := do
  failAt (← get).current expected

def expect (symbol : Symbol) : Parse Unit := do
  if ← isAt symbol then discard advance
  else unexpected symbol.quoted

/-- Passes the mark at the end of the text, which the lexer repeats, or fails where
there is another token. -/
def expectEnd : Parse Unit := do
  if (← currentKind) = .endOfInput then discard advance
  else unexpected Token.Kind.endOfInput.describe

def tooDeep (maximum : Nat) : Parse Value := do
  throw ⟨.tooDeeplyNested maximum, (← get).current.offset⟩

def deeper (body : Parse Value) : Parse Value := do
  modify fun cursor => { cursor with depth := cursor.depth + 1 }
  let value ← body
  modify fun cursor => { cursor with depth := cursor.depth - 1 }
  return value

/-- Reads one item and then every item that follows a comma, at most `more` of
them. -/
def commaSeparated (item : Parse Value) : (more : Nat) → Parse (List Value)
  | 0 => do
      return [← item]
  | more + 1 => do
      let first ← item
      if ← isAt .comma then
        discard advance
        return first :: (← commaSeparated item more)
      else
        return [first]

/-- Reads items between commas, of which there cannot be more than the tokens
that are left, up to the closing symbol.  There may be none at all. -/
def listUntil (closing : Symbol) (item : Parse Value) : Parse (List Value) := do
  if ← isAt closing then
    discard advance
    return []
  else
    let items ← commaSeparated item (← get).remaining
    expect closing
    return items

end Parse

end TemplatedJson
