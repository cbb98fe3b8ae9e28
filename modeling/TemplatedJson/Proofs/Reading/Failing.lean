import TemplatedJson.Proofs.Reading.Order
import TemplatedJson.Proofs.Reading.Refusal

/-!
# Runs that fail in the order of the tokens

A parser fails with a syntax error where the grammar asks for another token than the one that
stands there.  The lexer never gives such an error, and neither does a limit.  So such an error
tells at which step a composite parser failed, and the steps before it passed their tokens.
-/

namespace TemplatedJson

/-- Whether an error blames a token because the grammar asks for another one. -/
def ParseError.BlamesToken (error : ParseError) (token : Token) : Prop :=
  ∃ expected, error = ⟨.unexpectedToken expected token.kind.describe, token.offset⟩

/-- Whether an error lies in the order of the tokens. -/
def ParseError.IsSyntaxError (error : ParseError) : Prop :=
  ∃ expected found, error.cause = .unexpectedToken expected found

theorem ParseError.not_isSyntaxError {error : ParseError} (lexical : error.isLexical) :
    ¬ error.IsSyntaxError := by
  rintro ⟨expected, found, cause⟩
  simp [ParseError.isLexical, ParseError.Cause.isLexical, cause] at lexical

namespace Cursor

variable {cursor after : Cursor} {tokens : List Token}

theorem Stands.following? (stands : cursor.Stands) (known : cursor.following? = some after) :
    after.Stands := by
  unfold Cursor.following? at known
  split at known
  · next token upcoming answered =>
      obtain rfl := Option.some.inj known
      exact (stands.of_ok answered).1
  · cases known

/-- The lexer answers with no syntax error. -/
theorem Stands.not_isSyntaxError (stands : cursor.Stands) {error : ParseError}
    {upcoming : TokenStream} (answered : cursor.upcoming.next = (.error error, upcoming)) :
    ¬ error.IsSyntaxError := by
  obtain ⟨lexer, standsAt⟩ := stands
  obtain ⟨middle, -, onward⟩ := standsAt.exists_upcoming
  rw [answered] at onward
  exact ParseError.not_isSyntaxError (Lexer.le_offset_of_next_error (Prod.mk.inj onward).1.symm).1

theorem Stands.passes (stands : cursor.Stands) (passed : cursor.Passes tokens after) :
    after.Stands := by
  induction passed with
  | none => exact stands
  | token _ known _ ih => exact ih (stands.following? known)

end Cursor

namespace Parse

variable {Value Image : Type} {cursor after : Cursor} {error : ParseError} {limits : Limits}

/-! ### Failing runs -/

/-- A composite parser fails where one of its parts does. -/
theorem runAt_bind_eq_error {parser : Parse Value} {next : Value → Parse Image} :
    runAt (parser >>= next) cursor = (.error error, after) ↔
      runAt parser cursor = (.error error, after) ∨
        ∃ value middle, runAt parser cursor = (.ok value, middle) ∧
          runAt (next value) middle = (.error error, after) := by
  rcases first : runAt parser cursor with ⟨found | value, middle⟩
  · simp [runAt_bind_of_error first]
  · rw [runAt_bind_of_ok first]
    constructor
    · exact fun failed => .inr ⟨value, middle, rfl, failed⟩
    · rintro (failed | ⟨_, _, same, failed⟩)
      · cases failed
      · cases same
        exact failed

theorem runAt_bind_pure_eq_error {parser : Parse Value} {convert : Value → Image} :
    runAt (parser >>= fun value => pure (convert value)) cursor = (.error error, after) ↔
      runAt parser cursor = (.error error, after) := by
  rw [runAt_bind_eq_error]
  simp

/-- Only the lexer can stop a step, and its errors are no syntax errors. -/
theorem exists_of_advance_error {next : Token → Parse Image} (stands : cursor.Stands)
    (isSyntax : error.IsSyntaxError)
    (failed : runAt (advance >>= next) cursor = (.error error, after)) :
    ∃ middle, cursor.following? = some middle ∧ middle.Stands ∧
      runAt (next cursor.current) middle = (.error error, after) := by
  rcases answered : cursor.upcoming.next with ⟨found | token, upcoming⟩
  · rw [runAt_bind_of_error (runAt_advance_of_error answered)] at failed
    obtain rfl := Except.error.inj (Prod.mk.inj failed).1
    exact absurd isSyntax (stands.not_isSyntaxError answered)
  · rw [runAt_bind_of_ok (runAt_advance_of_ok answered)] at failed
    exact ⟨_, Cursor.following?_of_next answered, (stands.of_ok answered).1, failed⟩

theorem exists_of_discard_error {next : PUnit → Parse Image} (stands : cursor.Stands)
    (isSyntax : error.IsSyntaxError)
    (failed : runAt (discard advance >>= next) cursor = (.error error, after)) :
    ∃ middle, cursor.following? = some middle ∧ middle.Stands ∧
      runAt (next ⟨⟩) middle = (.error error, after) := by
  rw [discard_advance_bind] at failed
  exact exists_of_advance_error stands isSyntax failed

theorem blames_of_unexpected {expected : String}
    (failed : runAt (unexpected expected : Parse Value) cursor = (.error error, after)) :
    error.BlamesToken cursor.current := by
  rw [runAt_unexpected, Prod.mk.injEq, Except.error.injEq] at failed
  exact ⟨expected, failed.1.symm⟩

/-- A step alone gives no syntax error. -/
theorem discard_advance_ne_error (stands : cursor.Stands) (isSyntax : error.IsSyntaxError) :
    runAt (discard advance) cursor ≠ (.error error, after) := by
  intro failed
  rw [← bind_pure (discard advance)] at failed
  obtain ⟨middle, -, -, stopped⟩ := exists_of_discard_error stands isSyntax failed
  cases stopped

/-- A symbol that is asked for either stands there, or the token there is blamed. -/
theorem blames_of_expect {symbol : Symbol} (stands : cursor.Stands)
    (isSyntax : error.IsSyntaxError)
    (failed : runAt (expect symbol) cursor = (.error error, after)) :
    cursor.current.kind ≠ .symbol symbol ∧ error.BlamesToken cursor.current := by
  unfold expect at failed
  rw [runAt_isAt_bind] at failed
  split at failed
  · exact absurd failed (discard_advance_ne_error stands isSyntax)
  · next notThere => exact ⟨by simpa using notThere, blames_of_unexpected failed⟩

theorem blames_of_expectEnd (stands : cursor.Stands) (isSyntax : error.IsSyntaxError)
    (failed : runAt expectEnd cursor = (.error error, after)) :
    cursor.current.kind ≠ .endOfInput ∧ error.BlamesToken cursor.current := by
  unfold expectEnd at failed
  rw [runAt_currentKind_bind] at failed
  split at failed
  · exact absurd failed (discard_advance_ne_error stands isSyntax)
  · next notEnd => exact ⟨notEnd, blames_of_unexpected failed⟩

theorem runAt_deeper_eq_error {body : Parse Value} :
    runAt (deeper body) cursor = (.error error, after) ↔
      runAt body { cursor with depth := cursor.depth + 1 } = (.error error, after) := by
  unfold deeper
  simp only [runAt_modify_bind, runAt_bind_eq_error, runAt_pure, Prod.mk.injEq, reduceCtorEq,
    false_and, and_false, exists_false, or_false]

end Parse

end TemplatedJson
