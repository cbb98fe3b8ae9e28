import TemplatedJson.Proofs.Expr.Congruence
import TemplatedJson.Session

/-!
# The JSON parser respects relations

The JSON parser is made of steps too, but some of its values take more than one look.
Numbers are refused at a token that was passed before, a minus sign belongs to the
digits right behind it, and strings are read by the expression parser.  A relation
that respects these values is respected by the whole parser, and by every request of a
session if it also respects the depth.
-/

namespace TemplatedJson.Parse

/-! ### Values without containers -/

/-- Reads a number without a sign. -/
def unsignedNumber : Parse Node := do
  let token := (← get).current
  discard advance
  jsonNumber "" token.raw token.offset

/-- Reads a number with a minus sign. -/
def signedNumber : Parse Node := do
  if (← currentKind) = .symbol .minus then negativeNumber
  else unexpected "JSON value"

/-- Reads a string in double quotes, which may hold an expression. -/
def stringNode (maximum : Nat) : Parse Node := do
  let (content, token) ← jsonString
  stringValue maximum content token

section Strings

variable {maximum : Nat} {content : String} {token : Token} {cursor : Cursor}

/-- A string that holds no expression is a literal. -/
theorem runAt_stringValue_of_plain (plain : Template.detect? content = none) :
    runAt (stringValue maximum content token) cursor =
      (.ok (.literal ⟨.string content, token.raw⟩), cursor) := by
  simp only [stringValue, plain]
  rfl

/-- A string that holds an expression is a template, or it fails as the expression
does, at the place in the text that its error concerns. -/
theorem runAt_stringValue_of_embedded {embedded : Template.Embedded}
    (found : Template.detect? content = some embedded) :
    runAt (stringValue maximum content token) cursor =
      (((Expr.parseInside maximum cursor.depth embedded.source).map Node.template).mapError
        fun error => error.relocate fun inner =>
          token.offset + Template.rawIndex token.raw (embedded.start + inner),
        { cursor with sightings := cursor.sightings ++ [⟨embedded.form, token.offset⟩] }) := by
  simp only [stringValue, found, runAt_modify_bind, runAt_get_bind]
  cases Expr.parseInside maximum cursor.depth embedded.source <;> rfl

end Strings

theorem value_eq (maximum : Nat) (object array : Parse Node) :
    value maximum object array = (get >>= fun cursor =>
      match cursor.current.kind with
      | .symbol .leftBrace => object
      | .symbol .leftBracket => array
      | .string _ _ => stringNode maximum
      | .number => unsignedNumber
      | .symbol .minus => signedNumber
      | .boolean value => do
          discard advance
          return .literal ⟨.boolean value, cursor.current.raw⟩
      | .null =>
          if cursor.current.raw = "null" then do
            discard advance
            return .literal ⟨.null, cursor.current.raw⟩
          else unexpected "JSON value"
      | _ => unexpected "JSON value") := by
  funext ⟨⟨kind, raw, offset⟩, upcoming, depth, sightings⟩
  cases kind with
  | symbol symbol => cases symbol <;> rfl
  | _ => rfl

/-- Whether a relation respects the values that take more than one look, under two
limits. -/
structure Congruence.Leaves (congr : Congruence) (maximum otherMaximum : Nat) : Prop where
  unsigned : Alike congr unsignedNumber unsignedNumber
  signed : Alike congr signedNumber signedNumber
  string : Alike congr (stringNode maximum) (stringNode otherMaximum)
  refuses : Alike congr (tooDeep maximum : Parse Node) (tooDeep otherMaximum)

/-- Whether a relation respects values and expressions that take the levels which are
left at the cursor, under two limits. -/
structure Congruence.Framed (congr : Congruence) (maximum otherMaximum : Nat) : Prop where
  value : Alike congr (completeValue maximum) (completeValue otherMaximum)
  expression : Alike congr (expression ⟨maximum, 0⟩) (expression ⟨otherMaximum, 0⟩)

variable {congr : Congruence} {maximum otherMaximum : Nat}

namespace Alike

variable {objects arrays otherObjects otherArrays reader other : Parse Node}

/-- What is made of a string may depend on its token, which is another one for the
other parser. -/
theorem jsonString_bind {Image : Type} {next otherNext : String × Token → Parse Image}
    (rest : ∀ content token other, token.kind = .string content .double →
      congr.meets token other → Alike congr (next (content, token)) (otherNext (content, other))) :
    Alike congr (jsonString >>= next) (jsonString >>= otherNext) := by
  unfold Parse.jsonString
  simp only [bind_assoc]
  apply look
  rintro ⟨⟨kind, raw, offset⟩, upcoming, depth, sightings⟩
    ⟨⟨_, _, otherOffset⟩, otherUpcoming, otherDepth, otherSightings⟩ meets _
  obtain ⟨rfl, rfl⟩ : kind = _ ∧ raw = _ := ⟨congr.kind_eq meets, congr.raw_eq meets⟩
  dsimp only
  split
  · simp only [bind_assoc, pure_bind]
    exact .related (discard_advance.bind fun _ => rest _ _ _ rfl meets)
  · exact .refused trivial
  · have fails : Alike congr (Parse.unexpected "double-quoted string" : Parse Image)
        (Parse.unexpected "double-quoted string") :=
      unexpected _
    exact .related fails

theorem signedNumber (negative : Alike congr negativeNumber negativeNumber) :
    Alike congr signedNumber signedNumber :=
  currentKind.bind fun _ => ite negative (unexpected _)

theorem value (leaves : congr.Leaves maximum otherMaximum)
    (readsObjects : Alike congr objects otherObjects)
    (readsArrays : Alike congr arrays otherArrays) :
    Alike congr (value maximum objects arrays) (value otherMaximum otherObjects otherArrays) := by
  rw [value_eq, value_eq]
  apply look
  intro cursor other meets _
  rw [congr.kind_eq meets, congr.raw_eq meets]
  apply About.related
  split
  · exact readsObjects
  · exact readsArrays
  · exact leaves.string
  · exact leaves.unsigned
  · exact leaves.signed
  · exact discard_advance.bind fun _ => pure _
  · exact ite (discard_advance.bind fun _ => pure _) (unexpected _)
  · exact unexpected _

theorem member (values : Alike congr reader other) :
    Alike congr (member reader) (member other) :=
  jsonString_bind fun _ _ _ _ _ => (expect .colon).bind fun _ => values.bind fun _ => pure _

theorem object (values : Alike congr reader other) :
    Alike congr (Parse.object reader) (Parse.object other) :=
  (expect .leftBrace).bind fun _ => (values.member.listUntil .rightBrace).bind fun _ => pure _

theorem array (values : Alike congr reader other) :
    Alike congr (Parse.array reader) (Parse.array other) :=
  (expect .leftBracket).bind fun _ => (values.listUntil .rightBracket).bind fun _ => pure _

theorem valueWithin (leaves : congr.Leaves maximum otherMaximum) (levels : Nat) :
    Alike congr (valueWithin maximum levels) (valueWithin otherMaximum levels) := by
  induction levels with
  | zero => exact value leaves leaves.refuses.deeper leaves.refuses.deeper
  | succ levels ih => exact value leaves ih.object.deeper ih.array.deeper

/-! ### Requests -/

theorem completeExpression (framed : congr.Framed maximum otherMaximum) :
    Alike congr (completeExpression ⟨maximum, 0⟩) (completeExpression ⟨otherMaximum, 0⟩) :=
  framed.expression.bind fun _ => expectEnd.bind fun _ => pure _

theorem document (framed : congr.Framed maximum otherMaximum) :
    Alike congr (document maximum) (document otherMaximum) := by
  apply currentKind.bind
  intro kind
  split
  · exact framed.value.bind fun _ => pure _
  · exact framed.value.bind fun _ => pure _
  · exact (completeExpression framed).bind fun _ => pure _

theorem request (framed : congr.Framed maximum otherMaximum) (request : Request) :
    Alike congr (request.parser maximum) (request.parser otherMaximum) := by
  cases request with
  | expression => exact framed.expression.map _
  | completeExpression => exact (completeExpression framed).map _
  | value => exact framed.value.map _
  | document => exact (document framed).map _

end Alike

end TemplatedJson.Parse
