import TemplatedJson.Document

/-!
# Trees

What is read from a text is an expression, a JSON value or a document,
depending on what was asked for.
-/

namespace TemplatedJson

/-- A tree of any kind. -/
inductive Tree where
  | expression (expression : Expr)
  | value (value : Node)
  | document (document : Document)
deriving DecidableEq, Repr

/-- The source text of a tree, indented if it is asked for.  Expressions have no
indented form. -/
def Tree.source (pretty : Bool) : Tree → String
  | .expression single => single.source
  | .value node => if pretty then node.indentedSource 0 else node.source
  | .document whole => if pretty then whole.indentedSource else whole.source

end TemplatedJson
