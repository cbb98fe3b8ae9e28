import TemplatedJson.Proofs.Expr.Congruence
import TemplatedJson.Proofs.Reading.Order
import TemplatedJson.Proofs.Reading.Refusal

/-!
# What reading keeps

A parser fails where the lexer does, or at a token that it met.  So a property of cursors
that is kept from one token to the next is kept by all parsers, and all errors are those
that the property admits at the cursors on the way.
-/

namespace TemplatedJson

/-- Whether a cause is one that parsers give, and never the lexer. -/
def ParseError.Cause.IsOfParser : Cause → Prop
  | .unexpectedToken _ _ | .invalidNumber _ | .tooDeeplyNested _ => True
  | .unexpectedCharacter _ | .unterminatedString | .invalidEscape _ => False

theorem ParseError.Cause.Blames.isOfParser {token : Token} {cause : Cause}
    (blames : cause.Blames token) : cause.IsOfParser := by
  cases cause with
  | unexpectedToken | invalidNumber | tooDeeplyNested => trivial
  | unexpectedCharacter | unterminatedString | invalidEscape => cases blames

/-- A property of cursors that holds from one token to the next, and a property that all
errors have that are met on the way. -/
structure Invariant where
  holds : Cursor → Prop
  admits : ParseError → Prop
  of_ok : ∀ {cursor token upcoming}, holds cursor →
    cursor.upcoming.next = (.ok token, upcoming) →
      holds { cursor with current := token, upcoming := upcoming }
  of_error : ∀ {cursor error upcoming}, holds cursor →
    cursor.upcoming.next = (.error error, upcoming) → admits error
  of_refused : ∀ {cursor} {cause : ParseError.Cause}, holds cursor → cause.IsOfParser →
    admits ⟨cause, cursor.current.offset⟩
  of_depth : ∀ {cursor} (depth : Nat), holds cursor → holds { cursor with depth := depth }

namespace Parse

variable {inv : Invariant} {Value Image : Type}

/-- Whether a run keeps an invariant, or else fails with an error that it admits. -/
inductive Allowed (inv : Invariant) {Value : Type} : Ending Value → Prop
  | value {value : Value} {after : Cursor} : inv.holds after → Allowed inv (.ok value, after)
  | error {error : ParseError} {after : Cursor} : inv.admits error →
      Allowed inv (.error error, after)

/-- Whether all runs of a parser keep an invariant. -/
def Keeps (inv : Invariant) (parser : Parse Value) : Prop :=
  ∀ cursor : Cursor, inv.holds cursor → Allowed inv (runAt parser cursor)

theorem Allowed.of_failed {ending : Ending Value} (allowed : Allowed inv ending)
    {error : ParseError} (failed : ending.1 = .error error) : inv.admits error := by
  cases allowed with
  | value _ => cases failed
  | error admitted =>
      obtain rfl := Except.error.inj failed
      exact admitted

theorem Keeps.bind {parser : Parse Value} {next : Value → Parse Image} (first : Keeps inv parser)
    (rest : ∀ value, Keeps inv (next value)) : Keeps inv (parser >>= next) := by
  intro cursor holds
  have begun := first cursor holds
  rw [runAt_bind]
  generalize runAt parser cursor = ending at begun ⊢
  cases begun with
  | value holdsNext => exact rest _ _ holdsNext
  | error admitted => exact .error admitted

theorem Keeps.deeper {parser : Parse Value} (inside : Keeps inv parser) :
    Keeps inv (deeper parser) := by
  have leave : ∀ value : Value, Keeps inv
      (modify (fun cursor => { cursor with depth := cursor.depth - 1 }) >>= fun _ => pure value) :=
    fun value after holds => .value (inv.of_depth _ holds)
  intro cursor holds
  unfold Parse.deeper
  rw [runAt_modify_bind]
  exact inside.bind leave _ (inv.of_depth _ holds)

/-- Whether an invariant admits every refusal at a token. -/
def Blamable (inv : Invariant) (token : Token) : Prop :=
  ∀ cause : ParseError.Cause, cause.IsOfParser → inv.admits ⟨cause, token.offset⟩

theorem blamable_of_holds {cursor : Cursor} (holds : inv.holds cursor) :
    Blamable inv cursor.current :=
  fun _ => inv.of_refused holds

theorem keeps_advance {next : Token → Parse Image}
    (rest : ∀ token, Blamable inv token → Keeps inv (next token)) :
    Keeps inv (advance >>= next) := by
  intro cursor holds
  rcases answered : cursor.upcoming.next with ⟨error | token, upcoming⟩
  · rw [runAt_bind_of_error (runAt_advance_of_error answered)]
    exact .error (inv.of_error holds answered)
  · rw [runAt_bind_of_ok (runAt_advance_of_ok answered)]
    exact rest _ (blamable_of_holds holds) _ (inv.of_ok holds answered)

theorem keeps_peek {next : Token → Parse Image}
    (rest : ∀ token, Blamable inv token → Keeps inv (next token)) :
    Keeps inv (peek >>= next) := by
  intro cursor holds
  rcases answered : cursor.upcoming.next with ⟨error | token, upcoming⟩
  · rw [runAt_bind_of_error (runAt_peek_of_error answered)]
    exact .error (inv.of_error holds answered)
  · rw [runAt_bind_of_ok (runAt_peek_of_ok answered)]
    exact rest _ (blamable_of_holds (inv.of_ok holds answered)) _ holds

/-- All parsers that are made of steps keep an invariant. -/
def keeping (inv : Invariant) : Congruence where
  relates parser _ := Keeps inv parser
  meets token other := token = other ∧ Blamable inv token
  kind_eq meets := congrArg Token.kind meets.1
  raw_eq meets := congrArg Token.raw meets.1
  yield value := fun _ holds => .value holds
  join := Keeps.bind
  look := by
    intro Image next otherNext rest cursor holds
    have blamable := blamable_of_holds holds
    rw [runAt_get_bind]
    exact (rest cursor cursor ⟨rfl, blamable⟩ rfl).elim (fun related => related _ holds)
      fun blames => .error (blamable _ blames.isOfParser)
  advance rest := keeps_advance fun token blamable =>
    (rest token token ⟨rfl, blamable⟩).relates fun blames _ _ =>
      .error (blamable _ blames.isOfParser)
  peek rest := keeps_peek fun token blamable => rest token token ⟨rfl, blamable⟩
  deeper := Keeps.deeper

/-! ### Expressions -/

theorem keeps_tooDeep (maximum : Nat) : Keeps inv (tooDeep maximum : Parse Value) :=
  fun _ holds => .error (inv.of_refused holds trivial)

theorem keeping_agrees (inv : Invariant) (limits : Limits) :
    (keeping inv).Agrees limits limits where
  build tree := by
    unfold build
    exact .ite (.pure tree) (keeps_tooDeep limits.maximum)
  refuses := keeps_tooDeep limits.maximum

theorem keeps_completeExpression (inv : Invariant) (limits : Limits) :
    Keeps inv (completeExpression limits) := by
  have expression : Keeps inv (Parse.expression limits) := by
    intro cursor holds
    unfold Parse.expression
    rw [runAt_get_bind]
    have read := Alike.expressionWithin (keeping_agrees inv limits) (limits.maximum - cursor.depth)
    exact (read.bind fun tree => .pure tree.expr) cursor holds
  have ends : Alike (keeping inv) expectEnd expectEnd := Alike.expectEnd
  exact expression.bind fun tree => ends.bind fun _ => .pure tree

end Parse

end TemplatedJson
