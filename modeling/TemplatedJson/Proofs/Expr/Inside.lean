import TemplatedJson.Proofs.Expr.Recognition
import TemplatedJson.Proofs.Lexing.Answers
import TemplatedJson.Proofs.Reading.Keeping
import TemplatedJson.Proofs.Session.Family

/-!
# Expressions inside containers

The containers around an expression count towards the limit.  Still reading it inside
of them is reading it alone under what the limit leaves, token by token and error by
error.  Only a refusal to nest any deeper tells the two apart, since it names the
limit.
-/

namespace TemplatedJson

/-- The same error under another limit, which it names if it names one. -/
def ParseError.underLimit (limit : Nat) (error : ParseError) : ParseError :=
  match error.cause.limit? with
  | some _ => ⟨.tooDeeplyNested limit, error.offset⟩
  | none => error

theorem ParseError.underLimit_of_none {error : ParseError} (limit : Nat)
    (noLimit : error.cause.limit? = none) : error.underLimit limit = error := by
  unfold underLimit
  rw [noLimit]

theorem ParseError.offset_underLimit (limit : Nat) (error : ParseError) :
    (error.underLimit limit).offset = error.offset := by
  unfold underLimit
  split <;> rfl

theorem Token.StandsIn.offset_le {text : List Char} {token : Token} (stands : token.StandsIn text) :
    token.offset ≤ text.length := by
  obtain ⟨⟨before, after, rfl, place⟩, -⟩ := stands
  rw [List.length_append]
  omega

namespace Parse

/-- Whether two cursors are at the same place in a text, at whatever depth. -/
structure SamePlace (text : List Char) (cursor other : Cursor) : Prop where
  current : cursor.current = other.current
  upcoming : cursor.upcoming = other.upcoming
  sees : other.Sees (LexerAnswer.Concerns text)

/-- Whether two runs end alike: with one value at one place, or with one error in the
text, which names the given limit in the first run if it names any. -/
inductive Echoes (text : List Char) (limit : Nat) {Value : Type} : Ending Value → Ending Value → Prop
  | value {value : Value} {cursor other : Cursor} :
      SamePlace text cursor other → Echoes text limit (.ok value, cursor) (.ok value, other)
  | error {error : ParseError} {cursor other : Cursor} :
      error.offset ≤ text.length →
        Echoes text limit (.error (error.underLimit limit), cursor) (.error error, other)

/-- Whether two parsers end alike wherever they begin at the same place. -/
def Echo (text : List Char) (limit : Nat) {Value : Type} (parser other : Parse Value) : Prop :=
  ∀ ⦃cursor otherCursor⦄, SamePlace text cursor otherCursor →
    Echoes text limit (runAt parser cursor) (runAt other otherCursor)

variable {text : List Char} {limit : Nat} {Value Image : Type}

theorem Echoes.result {outcome other : Ending Value} (echoes : Echoes text limit outcome other) :
    (∃ value, outcome.1 = .ok value ∧ other.1 = .ok value) ∨
      ∃ error, outcome.1 = .error (error.underLimit limit) ∧ other.1 = .error error ∧
        error.offset ≤ text.length := by
  cases echoes with
  | value _ => exact .inl ⟨_, rfl, rfl⟩
  | error inText => exact .inr ⟨_, rfl, rfl, inText⟩

theorem Echoes.join {parser other : Parse Value} {next otherNext : Value → Parse Image}
    {cursor otherCursor : Cursor}
    (first : Echoes text limit (runAt parser cursor) (runAt other otherCursor))
    (rest : ∀ value, Echo text limit (next value) (otherNext value)) :
    Echoes text limit (runAt (parser >>= next) cursor) (runAt (other >>= otherNext) otherCursor) := by
  rw [runAt_bind, runAt_bind]
  generalize runAt parser cursor = ending, runAt other otherCursor = otherEnding at first ⊢
  cases first with
  | value same => exact rest _ same
  | error inText => exact .error inText

theorem SamePlace.step {cursor other : Cursor} (same : SamePlace text cursor other)
    {answer : LexerAnswer} {upcoming : TokenStream}
    (answered : other.upcoming.next = (answer, upcoming)) :
    cursor.upcoming.next = (answer, upcoming) := by
  rw [same.upcoming, answered]

namespace Echo

variable {parser other : Parse Value} {next otherNext : Value → Parse Image}

theorem throw {error : ParseError} (noLimit : error.cause.limit? = none)
    (inText : error.offset ≤ text.length) :
    Echo text limit (throw error : Parse Value) (throw error) := by
  intro cursor otherCursor _
  have ended : Echoes text limit (.error (error.underLimit limit), cursor)
      ((.error error, otherCursor) : Ending Value) :=
    .error inText
  rwa [ParseError.underLimit_of_none limit noLimit] at ended

/-- What an error of the lexer ends, ends alike. -/
theorem of_lost {error : ParseError} (concerns : LexerAnswer.Concerns text (.error error))
    (cursor otherCursor : Cursor) :
    Echoes text limit ((.error error, cursor) : Ending Value) (.error error, otherCursor) := by
  have noLimit := ParseError.limit?_of_isLexical concerns.1
  have ended : Echoes text limit (.error (error.underLimit limit), cursor)
      ((.error error, otherCursor) : Ending Value) :=
    .error concerns.2
  rwa [ParseError.underLimit_of_none limit noLimit] at ended

theorem advance {next otherNext : Token → Parse Image}
    (rest : ∀ token, token.StandsIn text → Echo text limit (next token) (otherNext token)) :
    Echo text limit (advance >>= next) (advance >>= otherNext) := by
  intro cursor other same
  rcases answered : other.upcoming.next with ⟨error | token, upcoming⟩
  · rw [runAt_bind_of_error (runAt_advance_of_error (same.step answered)),
      runAt_bind_of_error (runAt_advance_of_error answered)]
    exact of_lost (same.sees.of_error answered).1 _ _
  · rw [runAt_bind_of_ok (runAt_advance_of_ok (same.step answered)),
      runAt_bind_of_ok (runAt_advance_of_ok answered)]
    rw [same.current]
    exact rest _ same.sees.1 ⟨rfl, rfl, same.sees.of_ok answered⟩

theorem peek {next otherNext : Token → Parse Image}
    (rest : ∀ token, token.StandsIn text → Echo text limit (next token) (otherNext token)) :
    Echo text limit (peek >>= next) (peek >>= otherNext) := by
  intro cursor other same
  rcases answered : other.upcoming.next with ⟨error | token, upcoming⟩
  · rw [runAt_bind_of_error (runAt_peek_of_error (same.step answered)),
      runAt_bind_of_error (runAt_peek_of_error answered)]
    exact of_lost (same.sees.of_error answered).1 _ _
  · rw [runAt_bind_of_ok (runAt_peek_of_ok (same.step answered)),
      runAt_bind_of_ok (runAt_peek_of_ok answered)]
    exact rest _ (same.sees.of_ok answered).1 same

theorem deeper (inside : Echo text limit parser other) :
    Echo text limit (deeper parser) (deeper other) := by
  intro cursor otherCursor same
  unfold Parse.deeper
  rw [runAt_modify_bind, runAt_modify_bind]
  have enter : SamePlace text { cursor with depth := cursor.depth + 1 }
      { otherCursor with depth := otherCursor.depth + 1 } :=
    ⟨same.current, same.upcoming, same.sees⟩
  apply (inside enter).join
  intro value first second sameInside
  exact .value ⟨sameInside.current, sameInside.upcoming, sameInside.sees⟩

end Echo

/-- Ending alike respects the steps of parsers. -/
def echo (text : List Char) (limit : Nat) : Congruence where
  relates parser other := Echo text limit parser other
  meets token other := token = other ∧ token.StandsIn text
  kind_eq meets := congrArg Token.kind meets.1
  raw_eq meets := congrArg Token.raw meets.1
  yield value := fun _ _ same => .value same
  join first rest := fun _ _ same => (first same).join rest
  look := by
    intro Image next otherNext rest cursor otherCursor same
    rw [runAt_get_bind, runAt_get_bind]
    have remaining : cursor.remaining = otherCursor.remaining := by
      unfold Cursor.remaining
      rw [same.upcoming]
    have stands : cursor.current.StandsIn text := same.current ▸ same.sees.1
    refine (rest cursor otherCursor ⟨same.current, stands⟩ remaining).relates ?_ same
    intro cause blames
    rw [← same.current]
    exact Echo.throw blames.limit?_eq_none stands.offset_le
  advance rest := Echo.advance fun token stands =>
    (rest token token ⟨rfl, stands⟩).relates fun blames =>
      Echo.throw blames.limit?_eq_none stands.offset_le
  peek rest := Echo.peek fun token stands => rest token token ⟨rfl, stands⟩
  deeper := Echo.deeper

/-! ### Limits -/

variable {maximum depth : Nat}

/-- The limit inside of some containers agrees with what it leaves. -/
theorem echo_agrees (room : depth ≤ maximum) :
    (echo text maximum).Agrees ⟨maximum, depth⟩ ⟨maximum - depth, 0⟩ := by
  apply Congruence.Agrees.of_fits
  · intro height
    dsimp only
    omega
  · intro Value cursor otherCursor same
    rw [runAt_tooDeep, runAt_tooDeep, same.current]
    let refusal : ParseError := ⟨.tooDeeplyNested (maximum - depth), otherCursor.current.offset⟩
    have ended : Echoes text maximum (.error (refusal.underLimit maximum), cursor)
        ((.error refusal, otherCursor) : Ending Value) :=
      .error same.sees.1.offset_le
    exact ended

theorem echoes_completeExpression (room : depth ≤ maximum) {cursor other : Cursor}
    (same : SamePlace text cursor other) (inside : cursor.depth = depth)
    (outside : other.depth = 0) :
    Echoes text maximum (runAt (completeExpression ⟨maximum, depth⟩) cursor)
      (runAt (completeExpression ⟨maximum - depth, 0⟩) other) := by
  have read : Echoes text maximum (runAt (Parse.expression ⟨maximum, depth⟩) cursor)
      (runAt (Parse.expression ⟨maximum - depth, 0⟩) other) := by
    have agrees : (echo text maximum).Agrees _ _ := echo_agrees room
    have levels := Alike.expressionWithin agrees (maximum - depth)
    unfold Parse.expression
    rw [runAt_get_bind, runAt_get_bind, inside, outside]
    exact (levels.bind fun tree => .pure tree.expr) same
  have ends : ∀ tree : Expr, Alike (echo text maximum) (expectEnd >>= fun _ => pure tree)
      (expectEnd >>= fun _ => pure tree) :=
    fun tree => Alike.expectEnd.bind fun _ => .pure tree
  exact read.join ends

end Parse

namespace Expr

open Parse

variable {text : String} {maximum depth : Nat}

/-- Reading a text inside of containers and reading it under what the limit leaves
there end alike. -/
theorem echoes_parseInside (text : String) (room : depth ≤ maximum) :
    (∃ tree, parseInside maximum depth text = .ok tree ∧
      parseInside (maximum - depth) 0 text = .ok tree) ∨
    ∃ error, parseInside maximum depth text = .error (error.underLimit maximum) ∧
      parseInside (maximum - depth) 0 text = .error error ∧ error.offset ≤ text.length := by
  rcases answered : (Lexer.ofText text).stream.next with ⟨error | first, upcoming⟩
  · have failed : ∀ maximum depth, parseInside maximum depth text = .error error := by
      intro maximum depth
      unfold parseInside Cursor.ofText
      rw [answered]
      rfl
    have concerns : LexerAnswer.Concerns text.toList (.error error) := by
      have first := (Lexer.standsIn_ofText text).all.next.1
      rwa [answered] at first
    have sameError := error.underLimit_of_none maximum (ParseError.limit?_of_isLexical concerns.1)
    exact .inr ⟨error, by rw [failed, sameError], failed _ _, concerns.2⟩
  · have located : ∀ depth, Cursor.ofText text depth = .ok ⟨first, upcoming, depth, []⟩ := by
      intro depth
      unfold Cursor.ofText
      rw [answered]
      rfl
    have same : SamePlace text.toList ⟨first, upcoming, depth, []⟩ ⟨first, upcoming, 0, []⟩ :=
      ⟨rfl, rfl, Cursor.sees_of_ofText (located 0)⟩
    rw [parseInside_of_ofText (located depth), parseInside_of_ofText (located 0)]
    exact (echoes_completeExpression room same rfl rfl).result

/-- Inside of containers a text is read as it is read alone under what the limit
leaves there. -/
theorem parseInside_eq (text : String) (room : depth ≤ maximum) :
    parseInside maximum depth text =
      (parseInside (maximum - depth) 0 text).mapError (ParseError.underLimit maximum) := by
  rcases echoes_parseInside text room with ⟨tree, inside, alone⟩ | ⟨error, inside, alone, -⟩
  · rw [inside, alone]
    rfl
  · rw [inside, alone]
    rfl

end Expr

/-- A cursor in a text stays there, and what it meets concerns the text. -/
def Invariant.inText (text : List Char) : Invariant where
  holds cursor := cursor.Sees (LexerAnswer.Concerns text)
  admits error := error.offset ≤ text.length
  of_ok sees answered := sees.of_ok answered
  of_error sees answered := (sees.of_error answered).1.2
  of_refused sees _ := Token.StandsIn.offset_le sees.1
  of_depth _ sees := sees

/-- Errors lie in the text or at its end, whatever containers are around it. -/
theorem Expr.offset_le_of_parseInside {maximum depth : Nat} {text : String} {error : ParseError}
    (failed : Expr.parseInside maximum depth text = .error error) : error.offset ≤ text.length := by
  rw [← String.length_toList]
  cases located : Cursor.ofText text depth with
  | error lost =>
      have concerns := (Lexer.standsIn_ofText text).next.1
      rw [Cursor.next_of_ofText_error located] at concerns
      unfold Expr.parseInside at failed
      rw [located] at failed
      obtain rfl := Except.error.inj failed
      exact concerns.2
  | ok cursor =>
      rw [Expr.parseInside_of_ofText located] at failed
      have keeps := Parse.keeps_completeExpression (.inText text.toList) ⟨maximum, depth⟩
      exact (keeps cursor (Cursor.sees_of_ofText located)).of_failed failed

end TemplatedJson
