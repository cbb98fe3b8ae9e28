import TemplatedJson.Proofs.Expr.Congruence
import TemplatedJson.Proofs.Reading.Refusal

/-!
# Expressions hold no templates

No step of a parser tells of a template, and parsers that are made of steps do not either.  So
reading an expression leaves the templates that were met as they are, even if it fails.
-/

namespace TemplatedJson.Parse

variable {Value Image : Type}

/-- Whether no run of a parser meets a template. -/
def Sightless (parser : Parse Value) : Prop :=
  ∀ cursor : Cursor, (runAt parser cursor).2.sightings = cursor.sightings

theorem Sightless.bind {parser : Parse Value} {next : Value → Parse Image}
    (first : Sightless parser) (rest : ∀ value, Sightless (next value)) :
    Sightless (parser >>= next) := by
  intro cursor
  have begun := first cursor
  rw [runAt_bind]
  generalize runAt parser cursor = ending at begun ⊢
  obtain ⟨error | value, middle⟩ := ending
  · exact begun
  · exact (rest value middle).trans begun

theorem sightless_advance : Sightless advance := by
  intro cursor
  rcases answered : cursor.upcoming.next with ⟨error | token, upcoming⟩
  · rw [runAt_advance_of_error answered]
  · rw [runAt_advance_of_ok answered]

theorem sightless_peek : Sightless peek := by
  intro cursor
  rcases answered : cursor.upcoming.next with ⟨error | token, upcoming⟩
  · rw [runAt_peek_of_error answered]
  · rw [runAt_peek_of_ok answered]

/-- All parsers that are made of steps leave the templates as they are. -/
def sightless : Congruence where
  relates parser _ := Sightless parser
  meets token other := token = other
  kind_eq := congrArg Token.kind
  raw_eq := congrArg Token.raw
  yield _ _ := rfl
  join := Sightless.bind
  look := by
    intro Image next _ rest cursor
    rw [runAt_get_bind]
    exact (rest cursor cursor rfl rfl).relates (fun _ _ => rfl) cursor
  advance rest :=
    sightless_advance.bind fun token => (rest token token rfl).relates fun _ _ => rfl
  peek rest := sightless_peek.bind fun token => rest token token rfl
  deeper := by
    intro Value parser _ inside
    have leaves : ∀ value : Value, Sightless
        (modify (fun cursor => { cursor with depth := cursor.depth - 1 }) >>= fun _ =>
          pure value) :=
      fun _ _ => rfl
    intro cursor
    unfold Parse.deeper
    rw [runAt_modify_bind]
    exact inside.bind leaves _

theorem sightless_agrees (limits : Limits) : sightless.Agrees limits limits where
  build tree := by
    unfold build
    exact .ite (.pure tree) fun _ => rfl
  refuses _ := rfl

/-- Reading an expression meets no template. -/
theorem sightless_completeExpression (limits : Limits) :
    Sightless (completeExpression limits) := by
  have expression : Sightless (Parse.expression limits) := by
    intro cursor
    unfold Parse.expression
    rw [runAt_get_bind]
    have read :=
      Alike.expressionWithin (sightless_agrees limits) (limits.maximum - cursor.depth)
    exact (read.bind fun tree => .pure tree.expr) cursor
  have ends : Alike sightless expectEnd expectEnd := Alike.expectEnd
  exact expression.bind fun tree => ends.bind fun _ => .pure tree

end TemplatedJson.Parse
