import TemplatedJson.Node.Parser

/-!
# Parsing a text

A text is parsed either as a document or as a bare expression.  The outcome is
one record for success and failure alike, so that callers can show it as it is.
While a text is parsed, events tell an observer what happens.
-/

namespace TemplatedJson

inductive Mode where
  /-- A JSON document with templates, or an expression. -/
  | document
  /-- An expression, whatever it begins with. -/
  | expression
deriving DecidableEq, Repr

structure ParseOptions where
  /-- The greatest height of a tree, containers included. -/
  maxDepth : Nat := 64
deriving DecidableEq, Repr

inductive Event where
  /-- A text of the given number of bytes is going to be parsed. -/
  | started (mode : Mode) (bytes : Nat) (maxDepth : Nat)
  /-- A string that holds an expression was met. -/
  | template (sighting : Template.Sighting)
  | failed (error : ParseError)
deriving DecidableEq, Repr

/-- The event that tells of a failure, if a result is one. -/
def Event.ofFailure {Tree : Type} : Except ParseError Tree → List Event
  | .ok _ => []
  | .error error => [.failed error]

structure Outcome (Tree : Type) where
  success : Bool
  tree : Option Tree
  error : Option ParseError
deriving DecidableEq, Repr

namespace Outcome

variable {Tree : Type}

def ofExcept : Except ParseError Tree → Outcome Tree
  | .ok tree => ⟨true, some tree, none⟩
  | .error error => ⟨false, none, some error⟩

/-- The result that an outcome shows.  An error counts before a tree, and an
outcome with neither is an error of its own. -/
def toExcept (outcome : Outcome Tree) : Except ParseError Tree :=
  match outcome.tree, outcome.error with
  | _, some error => .error error
  | some tree, none => .ok tree
  | none, none => .error ⟨.unexpectedToken "input" "nothing", 0⟩

theorem toExcept_ofExcept (result : Except ParseError Tree) :
    (ofExcept result).toExcept = result := by
  cases result <;> rfl

end Outcome

/-- The result of parsing a text and the events on the way. -/
structure Observed (Tree : Type) where
  result : Except ParseError Tree
  events : List Event

def Observed.map {Tree Image : Type} (replace : Tree → Image) (observed : Observed Tree) :
    Observed Image :=
  ⟨observed.result.map replace, observed.events⟩

/-- Parses a text from its beginning and collects the events. -/
def observe {Tree : Type} (mode : Mode) (parser : Parse Tree) (text : String)
    (options : ParseOptions) : Observed Tree :=
  let entry := Event.started mode text.utf8ByteSize options.maxDepth
  match Cursor.ofText text 0 with
  | .error error => ⟨.error error, [entry, .failed error]⟩
  | .ok cursor =>
      let (result, final) := Parse.runAt parser cursor
      ⟨result, entry :: final.sightings.map .template ++ Event.ofFailure result⟩

def observeDocument (text : String) (options : ParseOptions) : Observed Document :=
  observe .document (Parse.document options.maxDepth) text options

def observeExpression (text : String) (options : ParseOptions) : Observed Expr :=
  observe .expression (Parse.completeExpression ⟨options.maxDepth, 0⟩) text options

/-- Parses a text as a document. -/
def parseDocument (text : String) (options : ParseOptions) : Outcome Document :=
  .ofExcept (observeDocument text options).result

/-- Parses a text as an expression. -/
def parseExpression (text : String) (options : ParseOptions) : Outcome Expr :=
  .ofExcept (observeExpression text options).result

end TemplatedJson
