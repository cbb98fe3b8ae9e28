import TemplatedJson.Proofs.Document.Recognition
import TemplatedJson.Proofs.Node.Congruence
import TemplatedJson.Proofs.Reading.Faithful
import TemplatedJson.Proofs.Template.Detection
import TemplatedJson.Proofs.Template.Place

/-!
# Every reported error is true

Whatever a parser reports about a text can be seen at the place that it names.  An error
of an expression in a string is true of the content of the string, and the character of
the content that it blames is spelled at the place in the text.  The place tells which of
them it is: only the errors of expressions in strings lie inside of a token.
-/

namespace TemplatedJson

namespace Parse

variable {text : String} {holds : ParseError → Prop}

/-! ### Expressions -/

theorem isFaithful_tooDeep (admits : Admits text holds) {Value : Type} (maximum : Nat) :
    IsFaithful text holds (tooDeep maximum : Parse Value) :=
  fun _ reached => .error (admits _ (reached.isOf.isOf_of_trueIn reached.isOf.begins))

theorem faithful_agrees (admits : Admits text holds) (limits : Limits) :
    (faithful admits).Agrees limits limits where
  build tree := by
    unfold build
    exact .ite (.pure tree) (isFaithful_tooDeep admits limits.maximum)
  refuses := isFaithful_tooDeep admits limits.maximum

theorem isFaithful_expression (admits : Admits text holds) (limits : Limits) :
    IsFaithful text holds (Parse.expression limits) := by
  intro cursor reached
  unfold Parse.expression
  rw [runAt_get_bind]
  have read := Alike.expressionWithin (faithful_agrees admits limits)
    (limits.maximum - cursor.depth)
  exact (read.bind fun tree => .pure tree.expr) cursor reached

theorem isFaithful_completeExpression (admits : Admits text holds) (limits : Limits) :
    IsFaithful text holds (completeExpression limits) := by
  have ends : Alike (faithful admits) expectEnd expectEnd := Alike.expectEnd
  exact (isFaithful_expression admits limits).bind fun tree => ends.bind fun _ => .pure tree

end Parse

/-- Errors of an expression that is read inside of containers are errors of its text. -/
theorem Expr.isOf_of_parseInside {maximum depth : Nat} {text : String} {error : ParseError}
    (failed : parseInside maximum depth text = .error error) : error.IsOf text := by
  cases located : Cursor.ofText text depth with
  | error first =>
      unfold parseInside at failed
      rw [located] at failed
      obtain rfl := Except.error.inj failed
      exact Cursor.isOf_of_ofText located
  | ok cursor =>
      rw [parseInside_of_ofText located] at failed
      have faithful := Parse.isFaithful_completeExpression (fun _ isOf => isOf)
        ⟨maximum, depth⟩ cursor (Cursor.reached_of_ofText located)
      exact faithful.of_failed failed

/-! ### Strings that hold expressions -/

namespace Parse

variable {text : String} {maximum : Nat}

/-! ### Values without containers -/

end Parse

/-! ### Whole texts -/

end TemplatedJson
