import TemplatedJson.Node.Source

/-!
# Documents

A text is read as a document: a JSON object or array, whose string values may
hold expressions, or else a single expression.
-/

namespace TemplatedJson

inductive Document where
  | json (value : Node)
  | expression (expression : Expr)
deriving DecidableEq, Repr

namespace Document

def typeName : Document → String
  | json _ => "json"
  | expression _ => "ExprStmt"

def json? : Document → Option Node
  | json value => some value
  | expression _ => none

def expression? : Document → Option Expr
  | json _ => none
  | expression single => some single

/-- The text of a document without blanks. -/
def source : Document → String
  | json value => value.source
  | expression single => single.source

/-- The text of a document with one member or element on a line. -/
def indentedSource : Document → String
  | json value => value.indentedSource 0
  | expression single => single.source

end Document

end TemplatedJson
