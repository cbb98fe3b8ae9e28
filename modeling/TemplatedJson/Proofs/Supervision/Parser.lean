import TemplatedJson.Proofs.Reading.Left
import TemplatedJson.Session

/-!
# Parsing under supervision

A supervisor follows the calls of the parsers that read expressions, values and documents.
It gives every recursion and every loop some fuel, one unit more than there are tokens
left, and it has three checks.  An expression or a container inside of another one is begun
only behind a token that was passed since the outer one began.  A loop goes on only behind
a token that was passed since its last iteration began.  And wherever a part of the grammar
is read, the depth counts the expressions and containers that are being read and is within
the limit.

Where fuel is out or a check fails, what a supervisor does is left open.  The parts that
call no others and have no loops are shared.
-/

namespace TemplatedJson

/-- What is known where a part of the grammar is read. -/
structure Frame where
  /-- The greatest depth. -/
  maximum : Nat
  /-- The depth at which the outermost call began. -/
  start : Nat
  /-- How many expressions and containers are being read. -/
  active : Nat
  /-- How many tokens were left when the innermost of them began. -/
  left : Nat

namespace Frame

/-- Whether a depth is that of the expressions and containers that are being read.  It is
within the limit unless the outermost call began beyond it. -/
structure Counts (frame : Frame) (depth : Nat) : Prop where
  counted : depth = frame.start + frame.active
  within : depth ≤ max frame.maximum frame.start

instance (frame : Frame) (depth : Nat) : Decidable (frame.Counts depth) :=
  decidable_of_iff (depth = frame.start + frame.active ∧ depth ≤ max frame.maximum frame.start)
    ⟨fun ⟨counted, within⟩ => ⟨counted, within⟩, fun ⟨counted, within⟩ => ⟨counted, within⟩⟩

/-- A call that is not inside of others may begin with any token. -/
def outermost (maximum : Nat) (cursor : Cursor) : Frame :=
  ⟨maximum, cursor.depth, 0, cursor.tokensLeft + 1⟩

/-- An expression or a container that begins with `left` tokens left. -/
def inside (frame : Frame) (left : Nat) : Frame :=
  { frame with active := frame.active + 1, left := left }

end Frame

structure Supervisor where
  /-- What happens where fuel is out or a check fails. -/
  trap : {Value : Type} → Parse Value

namespace Supervisor

open Parse

variable (supervisor : Supervisor) {Value : Type}

/-! ### Checks -/

def require (condition : Cursor → Bool) : Parse Unit := do
  if condition (← get) then pure () else supervisor.trap

/-- Reads a part of the grammar, with a check of the depth before and behind it. -/
def watched (frame : Frame) (body : Parse Value) : Parse Value := do
  supervisor.require fun cursor => frame.Counts cursor.depth
  let value ← body
  supervisor.require fun cursor => frame.Counts cursor.depth
  return value

/-- Begins an iteration of a loop with fewer than `bound` tokens left, and yields how many
there are. -/
def iteration (frame : Frame) (bound : Nat) : Parse Nat := do
  supervisor.require fun cursor => frame.Counts cursor.depth
  supervisor.require fun cursor => cursor.tokensLeft < bound
  return (← get).tokensLeft

/-- Reads an expression or a container, one level deeper than what it stands in. -/
def enter (frame : Frame) (body : Frame → Parse Value) : Parse Value := do
  supervisor.require fun cursor => frame.Counts cursor.depth
  supervisor.require fun cursor => cursor.tokensLeft < frame.left
  deeper do
    let cursor ← get
    if frame.maximum < cursor.depth then
      tooDeep frame.maximum
    else
      let inner := frame.inside cursor.tokensLeft
      supervisor.watched inner (body inner)

/-! ### Lists -/

def commaSeparated (frame : Frame) (item : Parse Value) :
    (fuel bound : Nat) → Parse (List Value)
  | 0, _ => supervisor.trap
  | fuel + 1, bound => do
      let left ← supervisor.iteration frame bound
      let first ← item
      if ← isAt .comma then
        discard advance
        return first :: (← commaSeparated frame item fuel left)
      else
        return [first]

def listUntil (frame : Frame) (closing : Symbol) (item : Parse Value) : Parse (List Value) :=
  supervisor.watched frame do
    if ← isAt closing then
      discard advance
      return []
    else
      let bound := (← get).tokensLeft + 1
      let items ← supervisor.commaSeparated frame item bound bound
      expect closing
      return items

/-! ### Expressions -/

def propertyName (frame : Frame) : Parse String :=
  supervisor.watched frame Parse.propertyName

def bracketKey (frame : Frame) (expression : Parse Measured) : Parse (Selector Measured) :=
  supervisor.watched frame (Parse.bracketKey expression)

def selector (frame : Frame) (expression : Parse Measured) : Parse (Selector Measured) :=
  supervisor.watched frame do
    if ← isAt .dot then
      discard advance
      return .name (← supervisor.propertyName frame)
    else
      expect .leftBracket
      let selector ← supervisor.bracketKey frame expression
      expect .rightBracket
      return selector

def scopeSelector (frame : Frame) (expression : Parse Measured) : Parse (Selector Measured) :=
  supervisor.watched frame do
    if ← isAtSelector then supervisor.selector frame expression
    else unexpected "'.' or '[' after scope"

def primary (limits : Limits) (frame : Frame) (expression : Parse Measured) : Parse Measured :=
  supervisor.watched frame do
    let token ← advance
    match token.kind with
    | .number =>
        match Literal.number? token.raw with
        | some literal => pure (.literal literal)
        | none => throw ⟨.invalidNumber token.raw, token.offset⟩
    | .string content _ => pure (.literal ⟨.string content, token.raw⟩)
    | .boolean value => pure (.literal ⟨.boolean value, token.raw⟩)
    | .null => pure (.literal ⟨.null, token.raw⟩)
    | .identifier name => pure (.identifier name)
    | .scope name =>
        build limits (.scope name (← supervisor.scopeSelector frame expression))
    | .symbol .dollar =>
        build limits (.scope Expr.defaultScope (← supervisor.scopeSelector frame expression))
    | .symbol .leftParenthesis =>
        let inner ← expression
        expect .rightParenthesis
        build limits (.parenthesized inner)
    | _ => failAt token "expression"

def prefixOperators (frame : Frame) : (fuel bound : Nat) → Parse (List PrefixOperator)
  | 0, _ => supervisor.trap
  | fuel + 1, bound => do
      let left ← supervisor.iteration frame bound
      match ← currentKind with
      | .symbol symbol =>
          match PrefixOperator.ofSymbol? symbol with
          | some operator =>
              discard advance
              return operator :: (← prefixOperators frame fuel left)
          | none => pure []
      | _ => pure []

def postfixes (limits : Limits) (frame : Frame) (expression : Parse Measured) :
    (fuel bound : Nat) → Measured → Parse Measured
  | 0, _, _ => supervisor.trap
  | fuel + 1, bound, base => do
      let left ← supervisor.iteration frame bound
      if ← isAt .leftParenthesis then
        discard advance
        let arguments ← supervisor.listUntil frame .rightParenthesis expression
        postfixes limits frame expression fuel left (← build limits (.call base arguments))
      else if ← isAtSelector then
        let selector ← supervisor.selector frame expression
        postfixes limits frame expression fuel left (← build limits (.select base selector))
      else
        pure base

def operand (limits : Limits) (frame : Frame) (expression : Parse Measured) : Parse Measured :=
  supervisor.watched frame do
    let bound := (← get).tokensLeft + 1
    let operators ← supervisor.prefixOperators frame bound bound
    let base ← supervisor.primary limits frame expression
    let bound := (← get).tokensLeft + 1
    let operand ← supervisor.postfixes limits frame expression bound bound base
    applyPrefixes limits operators operand

def operatorChain (limits : Limits) (frame : Frame) (expression : Parse Measured) :
    (fuel bound : Nat) → Pending → Measured → Parse Measured
  | 0, _, _, _ => supervisor.trap
  | fuel + 1, bound, pending, right => do
      let left ← supervisor.iteration frame bound
      match ← currentOperator? with
      | none => return (← combine limits 0 pending right).2
      | some operator =>
          let (outer, combined) ← combine limits operator.precedence pending right
          discard advance
          let next ← supervisor.operand limits frame expression
          operatorChain limits frame expression fuel left ((combined, operator) :: outer) next

def binary (limits : Limits) (frame : Frame) (expression : Parse Measured) : Parse Measured :=
  supervisor.watched frame do
    let first ← supervisor.operand limits frame expression
    let bound := (← get).tokensLeft + 1
    supervisor.operatorChain limits frame expression bound bound [] first

def level (limits : Limits) (frame : Frame) (expression : Parse Measured) : Parse Measured := do
  let condition ← supervisor.binary limits frame expression
  if ← isAt .question then
    discard advance
    let consequent ← expression
    expect .colon
    let alternate ← expression
    build limits (.conditional condition consequent alternate)
  else
    pure condition

def expressionWith (limits : Limits) : (fuel : Nat) → Frame → Parse Measured
  | 0, _ => supervisor.trap
  | fuel + 1, frame =>
      supervisor.enter frame fun inner =>
        supervisor.level limits inner (expressionWith limits fuel inner)

def expression (limits : Limits) (frame : Frame) : Parse Expr :=
  supervisor.watched frame do
    let tree ← supervisor.expressionWith limits frame.left frame
    return tree.expr

def completeExpression (limits : Limits) (frame : Frame) : Parse Expr :=
  supervisor.watched frame do
    let expr ← supervisor.expression limits frame
    expectEnd
    return expr

/-! ### Values -/

/-- An expression in a string has a frame of its own, at the depth of the string. -/
def parseInside (maximum depth : Nat) (text : String) : Except ParseError Expr := do
  let cursor ← Cursor.ofText text depth
  (runAt (supervisor.completeExpression ⟨maximum, depth⟩ (.outermost maximum cursor)) cursor).1

def jsonString (frame : Frame) : Parse (String × Token) :=
  supervisor.watched frame Parse.jsonString

def stringValue (frame : Frame) (content : String) (token : Token) : Parse Node :=
  supervisor.watched frame do
    match Template.detect? content with
    | none => return .literal ⟨.string content, token.raw⟩
    | some embedded =>
        let sighting := ⟨embedded.form, token.offset⟩
        modify fun cursor => { cursor with sightings := cursor.sightings ++ [sighting] }
        match supervisor.parseInside frame.maximum (← get).depth embedded.source with
        | .ok expr => return .template expr
        | .error error =>
            throw (error.relocate fun inner =>
              token.offset + Template.rawIndex token.raw (embedded.start + inner))

def value (frame : Frame) (object array : Parse Node) : Parse Node :=
  supervisor.watched frame do
    let token := (← get).current
    match token.kind with
    | .symbol .leftBrace => object
    | .symbol .leftBracket => array
    | .string _ _ =>
        let (content, token) ← supervisor.jsonString frame
        supervisor.stringValue frame content token
    | .number =>
        discard advance
        jsonNumber "" token.raw token.offset
    | .symbol .minus => negativeNumber
    | .boolean value =>
        discard advance
        return .literal ⟨.boolean value, token.raw⟩
    | .null =>
        if token.raw = "null" then
          discard advance
          return .literal ⟨.null, token.raw⟩
        else
          unexpected "JSON value"
    | _ => unexpected "JSON value"

def member (frame : Frame) (value : Parse Node) : Parse (Member Node) := do
  let (key, _) ← supervisor.jsonString frame
  expect .colon
  return ⟨key, ← value⟩

def object (frame : Frame) (value : Parse Node) : Parse Node := do
  expect .leftBrace
  return .object (← supervisor.listUntil frame .rightBrace (supervisor.member frame value))

def array (frame : Frame) (value : Parse Node) : Parse Node := do
  expect .leftBracket
  return .array (← supervisor.listUntil frame .rightBracket value)

def valueWith : (fuel : Nat) → Frame → Parse Node
  | 0, _ => supervisor.trap
  | fuel + 1, frame =>
      supervisor.value frame
        (supervisor.enter frame fun inner => supervisor.object inner (valueWith fuel inner))
        (supervisor.enter frame fun inner => supervisor.array inner (valueWith fuel inner))

def completeValue (frame : Frame) : Parse Node :=
  supervisor.watched frame do
    let node ← supervisor.valueWith frame.left frame
    expectEnd
    return node

def document (frame : Frame) : Parse Document :=
  supervisor.watched frame do
    match ← currentKind with
    | .symbol .leftBrace => return .json (← supervisor.completeValue frame)
    | .symbol .leftBracket => return .json (← supervisor.completeValue frame)
    | _ => return .expression (← supervisor.completeExpression ⟨frame.maximum, 0⟩ frame)

/-! ### Sessions -/

def request (frame : Frame) : Request → Parse Tree
  | .expression => Tree.expression <$> supervisor.expression ⟨frame.maximum, 0⟩ frame
  | .completeExpression =>
      Tree.expression <$> supervisor.completeExpression ⟨frame.maximum, 0⟩ frame
  | .value => Tree.value <$> supervisor.completeValue frame
  | .document => Tree.document <$> supervisor.document frame

/-- The answers to several requests under supervision, and the cursor after them. -/
def answerAll (maximum : Nat) : List Request → Cursor → List (Except ParseError Tree) × Cursor
  | [], cursor => ([], cursor)
  | request :: rest, cursor =>
      let frame := Frame.outermost maximum cursor
      let (answer, after) := runAt (supervisor.request frame request) cursor
      let (answers, final) := answerAll maximum rest after
      (answer :: answers, final)

end Supervisor

end TemplatedJson
