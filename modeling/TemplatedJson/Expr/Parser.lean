import TemplatedJson.Cursor
import TemplatedJson.Expr.Measured

/-!
# Reading expressions

Every level of nesting is one call of the same reader, which is given the
reader for the next level.  The levels that are left bound the recursion, and
the loops within a level run at most once for every token that is left.

A tree can grow tall without nesting, by long chains of operators or selectors.
So the height of every node is checked when the node is built.
-/

namespace TemplatedJson.Parse

/-- Accepts a node unless it is too tall. -/
def build (limits : Limits) (tree : Measured) : Parse Measured :=
  if limits.base + tree.height ≤ limits.maximum then pure tree
  else tooDeep limits.maximum

/-- Reads a property name after a dot.  Keywords are plain names there. -/
def propertyName : Parse String := do
  let token ← advance
  match token.kind with
  | .identifier name => pure name
  | .boolean _ => pure token.raw
  | .null => pure token.raw
  | _ => failAt token "property name after '.'"

/-- Reads the inside of brackets.  A lone identifier is a fixed name, and
everything else computes the key. -/
def bracketKey (expression : Parse Measured) : Parse (Selector Measured) := do
  match ← currentKind with
  | .identifier name =>
      if (← peek).kind = .symbol .rightBracket then
        discard advance
        return .name name
      else
        return .key (← expression)
  | _ => return .key (← expression)

/-- Reads a selector, which begins at the current dot or bracket. -/
def selector (expression : Parse Measured) : Parse (Selector Measured) := do
  if ← isAt .dot then
    discard advance
    return .name (← propertyName)
  else
    expect .leftBracket
    let selector ← bracketKey expression
    expect .rightBracket
    return selector

def isAtSelector : Parse Bool := do
  let kind ← currentKind
  return kind = .symbol .dot || kind = .symbol .leftBracket

def scopeSelector (expression : Parse Measured) : Parse (Selector Measured) := do
  if ← isAtSelector then selector expression
  else unexpected "'.' or '[' after scope"

/-- Reads a literal, a name, a scope with its selector, or an expression in
parentheses. -/
def primary (limits : Limits) (expression : Parse Measured) : Parse Measured := do
  let token ← advance
  match token.kind with
  | .number =>
      match Literal.number? token.raw with
      | some literal => pure (.literal literal)
      | none => throw ⟨.invalidNumber token.raw, token.offset⟩
  | .string content _ => pure (.literal ⟨.string content, token.raw⟩)
  | .boolean value => pure (.literal ⟨.boolean value, token.raw⟩)
  | .null => pure (.literal ⟨.null, token.raw⟩)
  | .identifier name => pure (.identifier name)
  | .scope name => build limits (.scope name (← scopeSelector expression))
  | .symbol .dollar => build limits (.scope Expr.defaultScope (← scopeSelector expression))
  | .symbol .leftParenthesis =>
      let inner ← expression
      expect .rightParenthesis
      build limits (.parenthesized inner)
  | _ => failAt token "expression"

/-- Reads prefix operators, at most `more` of them, the outermost one first. -/
def prefixOperators : (more : Nat) → Parse (List PrefixOperator)
  | 0 => pure []
  | more + 1 => do
      match ← currentKind with
      | .symbol symbol =>
          match PrefixOperator.ofSymbol? symbol with
          | some operator =>
              discard advance
              return operator :: (← prefixOperators more)
          | none => pure []
      | _ => pure []

/-- Reads the calls and selectors that follow an expression, at most `more` of
them. -/
def postfixes (limits : Limits) (expression : Parse Measured) :
    (more : Nat) → Measured → Parse Measured
  | 0, base => pure base
  | more + 1, base => do
      if ← isAt .leftParenthesis then
        discard advance
        let arguments ← listUntil .rightParenthesis expression
        postfixes limits expression more (← build limits (.call base arguments))
      else if ← isAtSelector then
        let selector ← selector expression
        postfixes limits expression more (← build limits (.select base selector))
      else
        pure base

/-- Puts prefix operators before an operand, the innermost one first. -/
def applyPrefixes (limits : Limits) : List PrefixOperator → Measured → Parse Measured
  | [], operand => pure operand
  | operator :: inner, operand => do
      build limits (.prefixed operator (← applyPrefixes limits inner operand))

/-- Reads an operand: prefix operators, then a primary expression with its calls
and selectors, which bind tighter. -/
def operand (limits : Limits) (expression : Parse Measured) : Parse Measured := do
  let operators ← prefixOperators (← get).remaining
  let base ← primary limits expression
  let operand ← postfixes limits expression (← get).remaining base
  applyPrefixes limits operators operand

def currentOperator? : Parse (Option BinaryOperator) := do
  match ← currentKind with
  | .symbol symbol => return BinaryOperator.ofSymbol? symbol
  | _ => return none

/-- Left operands that wait for their right ones, the innermost one first. -/
abbrev Pending := List (Measured × BinaryOperator)

/-- Combines waiting operands with the one to their right, as long as their
operators bind at least as tightly as `least`. -/
def combine (limits : Limits) (least : Nat) :
    Pending → Measured → Parse (Pending × Measured)
  | [], right => pure ([], right)
  | (left, operator) :: outer, right =>
      if least ≤ operator.precedence then do
        combine limits least outer (← build limits (.binary operator left right))
      else
        pure ((left, operator) :: outer, right)

/-- Reads operators and operands, at most `more` of each, after the operand
`right`.  Operands wait while operators that bind tighter follow them. -/
def operatorChain (limits : Limits) (expression : Parse Measured) :
    (more : Nat) → Pending → Measured → Parse Measured
  | 0, pending, right => do
      return (← combine limits 0 pending right).2
  | more + 1, pending, right => do
      match ← currentOperator? with
      | none => return (← combine limits 0 pending right).2
      | some operator =>
          let (outer, left) ← combine limits operator.precedence pending right
          discard advance
          let next ← operand limits expression
          operatorChain limits expression more ((left, operator) :: outer) next

def binary (limits : Limits) (expression : Parse Measured) : Parse Measured := do
  let first ← operand limits expression
  operatorChain limits expression (← get).remaining [] first

/-- Reads one level of an expression: a choice, or operands joined by
operators. -/
def level (limits : Limits) (expression : Parse Measured) : Parse Measured := do
  let condition ← binary limits expression
  if ← isAt .question then
    discard advance
    let consequent ← expression
    expect .colon
    let alternate ← expression
    build limits (.conditional condition consequent alternate)
  else
    pure condition

/-- Reads an expression that nests at most `levels` deep. -/
def expressionWithin (limits : Limits) : (levels : Nat) → Parse Measured
  | 0 => deeper (tooDeep limits.maximum)
  | levels + 1 => deeper (level limits (expressionWithin limits levels))

/-- Reads an expression with the levels that are left at the cursor. -/
def expression (limits : Limits) : Parse Expr := do
  let tree ← expressionWithin limits (limits.maximum - (← get).depth)
  return tree.expr

def completeExpression (limits : Limits) : Parse Expr := do
  let expr ← expression limits
  expectEnd
  return expr

end TemplatedJson.Parse
