import TemplatedJson.Node.Parser
import TemplatedJson.Tree

/-!
# Sessions

A session sends several requests to one cursor.  Each request goes on from
where the one before it stopped, whether it succeeded or not.
-/

namespace TemplatedJson

inductive Request where
  /-- An expression, whatever follows it. -/
  | expression
  /-- An expression up to the end of the text. -/
  | completeExpression
  | value
  | document
deriving DecidableEq, Repr

namespace Request

def parser (maximum : Nat) : Request → Parse Tree
  | expression => Tree.expression <$> Parse.expression ⟨maximum, 0⟩
  | completeExpression => Tree.expression <$> Parse.completeExpression ⟨maximum, 0⟩
  | value => Tree.value <$> Parse.completeValue maximum
  | document => Tree.document <$> Parse.document maximum

/-- The answers to several requests, and the cursor after them. -/
def answerAll (maximum : Nat) :
    List Request → Cursor → List (Except ParseError Tree) × Cursor
  | [], cursor => ([], cursor)
  | request :: rest, cursor =>
      let (answer, after) := Parse.runAt (request.parser maximum) cursor
      let (answers, final) := answerAll maximum rest after
      (answer :: answers, final)

end Request

/-- The answers to several requests to one cursor at the beginning of a text.
There is no such cursor if the first token cannot be read. -/
def runSession (text : String) (maximum : Nat) (requests : List Request) :
    Except ParseError (List (Except ParseError Tree)) :=
  (Cursor.ofText text 0).map fun cursor => (Request.answerAll maximum requests cursor).1

end TemplatedJson
