import TemplatedJson.Proofs.Template.Walk
import TemplatedJson.Session

/-!
# Parsing with machine words

A machine computes with numbers up to a greatest one.  A sum above it, a difference below
zero and a look-up outside of a text have no result.  Where a machine meets such an
operation it is trapped, and what it does then is left open.

The parsers below are those that read expressions, values and documents, with every such
operation carried out by a machine.  The parts that compute nothing are shared.
-/

namespace TemplatedJson

structure Machine where
  /-- The greatest number of a machine word. -/
  greatest : Nat
  /-- What happens where an operation has no result. -/
  trap : {Value : Type} → Parse Value

namespace Machine

open Parse

variable (machine : Machine) {Value : Type}

/-! ### Operations -/

def add (first second : Nat) : Parse Nat :=
  if first + second ≤ machine.greatest then pure (first + second) else machine.trap

def subtract (first second : Nat) : Parse Nat :=
  if second ≤ first then pure (first - second) else machine.trap

/-- The index in a quoted string of the spelling of a content character. -/
def rawIndex (raw : String) (index : Nat) : Parse Nat :=
  match Template.rawIndex? raw index with
  | some place => pure place
  | none => machine.trap

/-- Counts one level more while the body is read. -/
def deeper (body : Parse Value) : Parse Value := do
  let entered ← machine.add (← get).depth 1
  modify fun cursor => { cursor with depth := entered }
  let value ← body
  let left ← machine.subtract (← get).depth 1
  modify fun cursor => { cursor with depth := left }
  return value

/-- Accepts a node unless it is too tall.  It is one level taller than the tallest of its
parts. -/
def build (limits : Limits) (tree : Measured) : Parse Measured := do
  let height ← machine.add (tree.height - 1) 1
  let total ← machine.add limits.base height
  if total ≤ limits.maximum then pure tree
  else tooDeep limits.maximum

/-! ### Expressions -/

def primary (limits : Limits) (expression : Parse Measured) : Parse Measured := do
  let token ← advance
  match token.kind with
  | .number =>
      match Literal.number? token.raw with
      | some literal => pure (.literal literal)
      | none => throw ⟨.invalidNumber token.raw, token.offset⟩
  | .string content _ => pure (.literal ⟨.string content, token.raw⟩)
  | .boolean value => pure (.literal ⟨.boolean value, token.raw⟩)
  | .null => pure (.literal ⟨.null, token.raw⟩)
  | .identifier name => pure (.identifier name)
  | .scope name => machine.build limits (.scope name (← scopeSelector expression))
  | .symbol .dollar =>
      machine.build limits (.scope Expr.defaultScope (← scopeSelector expression))
  | .symbol .leftParenthesis =>
      let inner ← expression
      expect .rightParenthesis
      machine.build limits (.parenthesized inner)
  | _ => failAt token "expression"

def postfixes (limits : Limits) (expression : Parse Measured) :
    (more : Nat) → Measured → Parse Measured
  | 0, base => pure base
  | more + 1, base => do
      if ← isAt .leftParenthesis then
        discard advance
        let arguments ← listUntil .rightParenthesis expression
        postfixes limits expression more (← machine.build limits (.call base arguments))
      else if ← isAtSelector then
        let selector ← selector expression
        postfixes limits expression more (← machine.build limits (.select base selector))
      else
        pure base

def applyPrefixes (limits : Limits) : List PrefixOperator → Measured → Parse Measured
  | [], operand => pure operand
  | operator :: inner, operand => do
      machine.build limits (.prefixed operator (← applyPrefixes limits inner operand))

def operand (limits : Limits) (expression : Parse Measured) : Parse Measured := do
  let operators ← prefixOperators (← get).remaining
  let base ← machine.primary limits expression
  let operand ← machine.postfixes limits expression (← get).remaining base
  machine.applyPrefixes limits operators operand

def combine (limits : Limits) (least : Nat) : Pending → Measured → Parse (Pending × Measured)
  | [], right => pure ([], right)
  | (left, operator) :: outer, right =>
      if least ≤ operator.precedence then do
        combine limits least outer (← machine.build limits (.binary operator left right))
      else
        pure ((left, operator) :: outer, right)

def operatorChain (limits : Limits) (expression : Parse Measured) :
    (more : Nat) → Pending → Measured → Parse Measured
  | 0, pending, right => do
      return (← machine.combine limits 0 pending right).2
  | more + 1, pending, right => do
      match ← currentOperator? with
      | none => return (← machine.combine limits 0 pending right).2
      | some operator =>
          let (outer, left) ← machine.combine limits operator.precedence pending right
          discard advance
          let next ← machine.operand limits expression
          operatorChain limits expression more ((left, operator) :: outer) next

def binary (limits : Limits) (expression : Parse Measured) : Parse Measured := do
  let first ← machine.operand limits expression
  machine.operatorChain limits expression (← get).remaining [] first

def level (limits : Limits) (expression : Parse Measured) : Parse Measured := do
  let condition ← machine.binary limits expression
  if ← isAt .question then
    discard advance
    let consequent ← expression
    expect .colon
    let alternate ← expression
    machine.build limits (.conditional condition consequent alternate)
  else
    pure condition

def expressionWithin (limits : Limits) : (levels : Nat) → Parse Measured
  | 0 => machine.deeper (tooDeep limits.maximum)
  | levels + 1 => machine.deeper (machine.level limits (expressionWithin limits levels))

def expression (limits : Limits) : Parse Expr := do
  let tree ← machine.expressionWithin limits (limits.maximum - (← get).depth)
  return tree.expr

def completeExpression (limits : Limits) : Parse Expr := do
  let expr ← machine.expression limits
  expectEnd
  return expr

/-! ### Values -/

def parseInside (maximum depth : Nat) (text : String) : Except ParseError Expr := do
  let cursor ← Cursor.ofText text depth
  (runAt (machine.completeExpression ⟨maximum, depth⟩) cursor).1

def stringValue (maximum : Nat) (content : String) (token : Token) : Parse Node := do
  match Template.detect? content with
  | none => return .literal ⟨.string content, token.raw⟩
  | some embedded =>
      let sighting := ⟨embedded.form, token.offset⟩
      modify fun cursor => { cursor with sightings := cursor.sightings ++ [sighting] }
      match machine.parseInside maximum (← get).depth embedded.source with
      | .ok expr => return .template expr
      | .error error =>
          let index ← machine.add embedded.start error.offset
          let place ← machine.rawIndex token.raw index
          let offset ← machine.add token.offset place
          throw ⟨error.cause, offset⟩

def negativeNumber : Parse Node := do
  let minus ← advance
  let digits := (← get).current
  let stop ← machine.add minus.offset minus.raw.length
  if digits.kind = .number && digits.offset = stop then
    discard advance
    jsonNumber minus.raw digits.raw minus.offset
  else
    unexpected "digits after '-'"

def value (maximum : Nat) (object array : Parse Node) : Parse Node := do
  let token := (← get).current
  match token.kind with
  | .symbol .leftBrace => object
  | .symbol .leftBracket => array
  | .string _ _ =>
      let (content, token) ← jsonString
      machine.stringValue maximum content token
  | .number =>
      discard advance
      jsonNumber "" token.raw token.offset
  | .symbol .minus => machine.negativeNumber
  | .boolean value =>
      discard advance
      return .literal ⟨.boolean value, token.raw⟩
  | .null =>
      if token.raw = "null" then
        discard advance
        return .literal ⟨.null, token.raw⟩
      else
        unexpected "JSON value"
  | _ => unexpected "JSON value"

def valueWithin (maximum : Nat) : (levels : Nat) → Parse Node
  | 0 =>
      machine.value maximum (machine.deeper (tooDeep maximum)) (machine.deeper (tooDeep maximum))
  | levels + 1 =>
      machine.value maximum
        (machine.deeper (object (valueWithin maximum levels)))
        (machine.deeper (array (valueWithin maximum levels)))

def completeValue (maximum : Nat) : Parse Node := do
  let node ← machine.valueWithin maximum (maximum - (← get).depth)
  expectEnd
  return node

def document (maximum : Nat) : Parse Document := do
  match ← currentKind with
  | .symbol .leftBrace => return .json (← machine.completeValue maximum)
  | .symbol .leftBracket => return .json (← machine.completeValue maximum)
  | _ => return .expression (← machine.completeExpression ⟨maximum, 0⟩)

/-! ### Sessions -/

def request (maximum : Nat) : Request → Parse Tree
  | .expression => Tree.expression <$> machine.expression ⟨maximum, 0⟩
  | .completeExpression => Tree.expression <$> machine.completeExpression ⟨maximum, 0⟩
  | .value => Tree.value <$> machine.completeValue maximum
  | .document => Tree.document <$> machine.document maximum

/-- The answers of a machine to several requests, and the cursor after them. -/
def answerAll (maximum : Nat) : List Request → Cursor → List (Except ParseError Tree) × Cursor
  | [], cursor => ([], cursor)
  | request :: rest, cursor =>
      let (answer, after) := runAt (machine.request maximum request) cursor
      let (answers, final) := answerAll maximum rest after
      (answer :: answers, final)

end Machine

end TemplatedJson
