import TemplatedJson.Expr.Basic

/-!
# The source text of an expression

Literals are written with the text that they were read from.  A fixed name is
selected with a dot, whichever way it was written, and no parentheses are added
to those that the tree records.
-/

namespace TemplatedJson.Expr

mutual

/-- The canonical source text of an expression. -/
def source : Expr → String
  | literal leaf => leaf.raw
  | identifier name => name
  | scope name selector =>
      if name = defaultScope then "$" ++ selectorSource selector
      else "$" ++ name ++ selectorSource selector
  | select base selector => base.source ++ selectorSource selector
  | call callee arguments =>
      callee.source ++ "(" ++ String.intercalate ", " (sources arguments) ++ ")"
  | prefixed operator operand => operator.text ++ operand.source
  | binary operator left right => left.source ++ " " ++ operator.text ++ " " ++ right.source
  | conditional condition consequent alternate =>
      condition.source ++ " ? " ++ consequent.source ++ " : " ++ alternate.source
  | parenthesized inner => "(" ++ inner.source ++ ")"

def selectorSource : Selector Expr → String
  | .name name => "." ++ name
  | .key key => "[" ++ key.source ++ "]"

def sources : List Expr → List String
  | [] => []
  | first :: rest => first.source :: sources rest

end

end TemplatedJson.Expr
