import TemplatedJson.Proofs.Lexing.Witness
import TemplatedJson.Proofs.Reading.Order
import TemplatedJson.Proofs.Reading.Refusal

/-!
# Errors of parsers are true

A parser fails at a token that it met, or where the lexer does.  As long as the tokens
that it meets are those of the text, every error is therefore true of the text, and it does
not lie inside of a token.
-/

namespace TemplatedJson

/-! ### Tokens of a text -/

/-- Whether a token is one of a text: the lexer answers with it, and with tokens before. -/
def Token.IsOf (text : String) (token : Token) : Prop :=
  ∃ earlier : List Token,
    (Lexer.ofText text).answers (earlier.length + 1) = (earlier ++ [token]).map .ok

/-- Whether a place lies inside of no token of a text.  It may be where one begins. -/
def BetweenTokens (text : String) (place : Nat) : Prop :=
  ∀ token : Token, token.IsOf text → place ≤ token.offset ∨ token.stop ≤ place

/-- Whether a token of a text begins at a place.  The end of the text counts as one. -/
def BeginsToken (text : String) (place : Nat) : Prop :=
  ∃ token : Token, token.IsOf text ∧ token.offset = place ∧
    (token.kind = .endOfInput → place = text.length)

/-- Whether an error is one of a text itself: it lies between the tokens, and it is true. -/
structure ParseError.IsOf (text : String) (error : ParseError) : Prop where
  inText : error.offset ≤ text.length
  between : BetweenTokens text error.offset
  isTrue : error.TrueIn text.toList (BeginsToken text)

/-- The call that answers with a token, behind calls that all answer with tokens. -/
theorem Token.IsOf.exists_call {text : String} {token : Token} (isOf : token.IsOf text) :
    ∃ calls, ((Lexer.ofText text).after calls).next.1 = .ok token ∧
      ∀ earlier < calls, ∃ other, ((Lexer.ofText text).after earlier).next.1 = .ok other := by
  obtain ⟨before, answers⟩ := isOf
  have call : ∀ index < before.length + 1, (before ++ [token])[index]?.map .ok =
      some ((Lexer.ofText text).after index).next.1 := by
    intro index inside
    rw [← List.getElem?_map, ← answers, Lexer.getElem?_answers inside]
  refine ⟨before.length, ?_, fun earlier inside => ?_⟩
  · have last := call before.length (Nat.lt_succ_self _)
    rw [List.getElem?_concat_length] at last
    exact (Option.some.inj last).symm
  · have known := call earlier (Nat.lt_succ_of_lt inside)
    obtain ⟨other, -, same⟩ := Option.map_eq_some_iff.mp known
    exact ⟨other, same.symm⟩

/-- Every error that a call answers with is one of the text. -/
theorem Lexer.isOf_of_after {text : String} (calls : Nat) {error : ParseError}
    (failed : ((ofText text).after calls).next.1 = .error error) : error.IsOf text := by
  have inText := (standsIn_ofText text).after calls
  obtain ⟨inside, isTrue⟩ := inText.trueIn_of_next failed (BeginsToken text)
  rw [String.length_toList] at inside
  refine ⟨inside, fun token isOf => ?_, isTrue⟩
  obtain ⟨call, read, before⟩ := isOf.exists_call
  have behind := (le_offset_of_next_error failed).2
  rcases Nat.lt_trichotomy call calls with earlier | rfl | later
  · exact .inr (Nat.le_trans (stop_le_position read earlier) behind)
  · rw [read] at failed
    cases failed
  · obtain ⟨other, answered⟩ := before calls later
    rw [answered] at failed
    cases failed

/-- Whether a cursor stands at a token of a text, with nothing but tokens before it. -/
def Cursor.Reached (text : String) (cursor : Cursor) : Prop :=
  ∃ earlier : List Token, (Lexer.ofText text).answers earlier.length = earlier.map .ok ∧
    cursor.StandsAt ((Lexer.ofText text).after earlier.length)

namespace Cursor.Reached

variable {text : String} {cursor : Cursor} {token : Token} {upcoming : TokenStream}

theorem isOf (reached : cursor.Reached text) : cursor.current.IsOf text := by
  obtain ⟨earlier, answers, stands⟩ := reached
  obtain ⟨middle, read⟩ := stands.next
  refine ⟨earlier, ?_⟩
  rw [(Lexer.answers_succ earlier.length (Lexer.ofText text)).1, answers, read, List.map_append]
  rfl

theorem of_ok (reached : cursor.Reached text)
    (answered : cursor.upcoming.next = (.ok token, upcoming)) :
    Cursor.Reached text { cursor with current := token, upcoming := upcoming } := by
  obtain ⟨earlier, answers, stands⟩ := reached
  obtain ⟨middle, read, upcomingNext⟩ := stands.exists_upcoming
  rw [answered] at upcomingNext
  obtain ⟨first, rfl⟩ := Prod.mk.inj upcomingNext
  obtain ⟨onward, after⟩ := Lexer.answers_succ earlier.length (Lexer.ofText text)
  rw [read] at onward after
  refine ⟨earlier ++ [cursor.current], ?_, ?_⟩
  · rw [List.length_append, List.length_singleton, onward, answers, List.map_append]
    rfl
  · rw [List.length_append, List.length_singleton, after]
    unfold StandsAt StandsIn
    rw [middle.stream_next, ← first]

theorem of_error (reached : cursor.Reached text) {error : ParseError}
    (answered : cursor.upcoming.next = (.error error, upcoming)) : error.IsOf text := by
  obtain ⟨earlier, -, stands⟩ := reached
  obtain ⟨middle, read, upcomingNext⟩ := stands.exists_upcoming
  rw [answered] at upcomingNext
  apply Lexer.isOf_of_after (earlier.length + 1)
  rw [(Lexer.answers_succ earlier.length (Lexer.ofText text)).2, read]
  exact (Prod.mk.inj upcomingNext).1.symm

end Cursor.Reached

theorem Cursor.reached_of_ofText {text : String} {depth : Nat} {cursor : Cursor}
    (located : ofText text depth = .ok cursor) : cursor.Reached text :=
  ⟨[], rfl, (ofText_eq_ok_iff.mp located).1⟩

/-- Where there is no cursor, the error is one of the text. -/
theorem Cursor.isOf_of_ofText {text : String} {depth : Nat} {error : ParseError}
    (failed : ofText text depth = .error error) : error.IsOf text :=
  Lexer.isOf_of_after 0 (next_of_ofText_error failed)

namespace Token.IsOf

variable {text : String} {token : Token}

theorem exists_next (isOf : token.IsOf text) : ∃ lexer middle : Lexer,
    lexer.StandsIn text.toList ∧ lexer.next = (.ok token, middle) := by
  obtain ⟨calls, read, -⟩ := isOf.exists_call
  exact ⟨_, _, (Lexer.standsIn_ofText text).after calls, Prod.ext read rfl⟩

theorem standsIn (isOf : token.IsOf text) : token.StandsIn text.toList := by
  obtain ⟨lexer, middle, stands, read⟩ := isOf.exists_next
  have concerns := stands.next.1
  rwa [read] at concerns

theorem begins (isOf : token.IsOf text) : BeginsToken text token.offset := by
  refine ⟨token, isOf, rfl, fun ended => ?_⟩
  obtain ⟨lexer, middle, ⟨before, split, position⟩, read⟩ := isOf.exists_next
  have last := Lexer.next_of_blanks (Lexer.blanks_of_next_end read ended)
  rw [read] at last
  obtain rfl := Except.ok.inj (Prod.mk.inj last).1
  have length := congrArg List.length split
  rw [List.length_append, String.length_toList] at length
  dsimp only
  omega

theorem stop_le (isOf : token.IsOf text) : token.stop ≤ text.length := by
  have inText := isOf.standsIn.stop_le
  rwa [String.length_toList] at inText

theorem offset_le (isOf : token.IsOf text) : token.offset ≤ text.length :=
  token.offset_le_of_stop_le isOf.stop_le

/-- No token begins inside of another one. -/
theorem between (isOf : token.IsOf text) : BetweenTokens text token.offset := by
  intro other otherIsOf
  obtain ⟨call, read, -⟩ := isOf.exists_call
  obtain ⟨otherCall, otherRead, -⟩ := otherIsOf.exists_call
  rcases Nat.lt_trichotomy call otherCall with earlier | rfl | later
  · have behind := Lexer.stop_le_position read earlier
    have begins := (Lexer.le_offset_of_next (Prod.ext otherRead rfl)).1
    exact .inl (token.offset_le_of_stop_le (Nat.le_trans behind begins))
  · rw [read] at otherRead
    obtain rfl := Except.ok.inj otherRead
    exact .inl (Nat.le_refl _)
  · have behind := Lexer.stop_le_position otherRead later
    have begins := (Lexer.le_offset_of_next (Prod.ext read rfl)).1
    exact .inr (Nat.le_trans behind begins)

/-- An error at a token is one of the text if it is true. -/
theorem isOf_of_trueIn (isOf : token.IsOf text) {cause : ParseError.Cause}
    (isTrue : ParseError.TrueIn text.toList (BeginsToken text) ⟨cause, token.offset⟩) :
    ParseError.IsOf text ⟨cause, token.offset⟩ :=
  ⟨isOf.offset_le, isOf.between, isTrue⟩

/-- A token is written where it begins. -/
theorem exists_drop (isOf : token.IsOf text) :
    ∃ after, text.toList.drop token.offset = token.raw.toList ++ after ∧
      text.toList.drop token.stop = after := by
  obtain ⟨⟨before, after, split, place⟩, -⟩ := isOf.standsIn
  refine ⟨after, ?_, ?_⟩
  · rw [split, ← place, List.drop_left]
  · unfold Token.stop
    rw [split, ← place, ← String.length_toList, ← List.drop_drop, List.drop_left, List.drop_left]

theorem raw_prefix (isOf : token.IsOf text) :
    token.raw.toList <+: text.toList.drop token.offset := by
  obtain ⟨after, written, -⟩ := isOf.exists_drop
  rw [written]
  exact List.prefix_append _ _

/-- What a parser blames a token for is true. -/
theorem isOf_of_blames (isOf : token.IsOf text) {cause : ParseError.Cause}
    (blames : cause.Blames token) : ParseError.IsOf text ⟨cause, token.offset⟩ := by
  apply isOf.isOf_of_trueIn
  cases cause with
  | unexpectedToken expected found => exact isOf.begins
  | invalidNumber raw =>
      obtain ⟨-, rfl⟩ := blames
      exact isOf.raw_prefix
  | unexpectedCharacter _ | unterminatedString | invalidEscape _ | tooDeeplyNested _ => cases blames

end Token.IsOf

/-! ### Faithful parsers -/

namespace Parse

variable {text : String} {holds : ParseError → Prop} {Value Image : Type}

/-- Whether a run ends at a token of a text, or else with an error that has a property. -/
inductive Faithful (text : String) (holds : ParseError → Prop) {Value : Type} :
    Ending Value → Prop
  | value {value : Value} {after : Cursor} : after.Reached text →
      Faithful text holds (.ok value, after)
  | error {error : ParseError} {after : Cursor} : holds error →
      Faithful text holds (.error error, after)

theorem Faithful.of_failed {ending : Ending Value} (faithful : Faithful text holds ending)
    {error : ParseError} (failed : ending.1 = .error error) : holds error := by
  cases faithful with
  | value _ => cases failed
  | error admitted =>
      obtain rfl := Except.error.inj failed
      exact admitted

/-- Whether a property of errors holds of all errors of a text. -/
def Admits (text : String) (holds : ParseError → Prop) : Prop :=
  ∀ error : ParseError, error.IsOf text → holds error

/-- Whether all runs of a parser are faithful to a text. -/
def IsFaithful (text : String) (holds : ParseError → Prop) {Value : Type} (parser : Parse Value) :
    Prop :=
  ∀ cursor : Cursor, cursor.Reached text → Faithful text holds (runAt parser cursor)

theorem IsFaithful.bind {parser : Parse Value} {next : Value → Parse Image}
    (first : IsFaithful text holds parser) (rest : ∀ value, IsFaithful text holds (next value)) :
    IsFaithful text holds (parser >>= next) := by
  intro cursor reached
  have begun := first cursor reached
  rw [runAt_bind]
  generalize runAt parser cursor = ending at begun ⊢
  cases begun with
  | value reachedNext => exact rest _ _ reachedNext
  | error admitted => exact .error admitted

theorem isFaithful_advance (admits : Admits text holds) {next : Token → Parse Image}
    (rest : ∀ token : Token, token.IsOf text → IsFaithful text holds (next token)) :
    IsFaithful text holds (advance >>= next) := by
  intro cursor reached
  rcases answered : cursor.upcoming.next with ⟨error | token, upcoming⟩
  · rw [runAt_bind_of_error (runAt_advance_of_error answered)]
    exact .error (admits error (reached.of_error answered))
  · rw [runAt_bind_of_ok (runAt_advance_of_ok answered)]
    exact rest _ reached.isOf _ (reached.of_ok answered)

theorem isFaithful_peek (admits : Admits text holds) {next : Token → Parse Image}
    (rest : ∀ token : Token, token.IsOf text → IsFaithful text holds (next token)) :
    IsFaithful text holds (peek >>= next) := by
  intro cursor reached
  rcases answered : cursor.upcoming.next with ⟨error | token, upcoming⟩
  · rw [runAt_bind_of_error (runAt_peek_of_error answered)]
    exact .error (admits error (reached.of_error answered))
  · rw [runAt_bind_of_ok (runAt_peek_of_ok answered)]
    exact rest _ (reached.of_ok answered).isOf _ reached

theorem isFaithful_deeper {parser : Parse Value} (inside : IsFaithful text holds parser) :
    IsFaithful text holds (deeper parser) := by
  have leave : ∀ value : Value, IsFaithful text holds
      (modify (fun cursor => { cursor with depth := cursor.depth - 1 }) >>= fun _ => pure value) :=
    fun value after reached => .value reached
  intro cursor reached
  unfold deeper
  rw [runAt_modify_bind]
  exact inside.bind leave { cursor with depth := cursor.depth + 1 } reached

/-- All parsers that are made of steps are faithful. -/
def faithful (admits : Admits text holds) : Congruence where
  relates parser _ := IsFaithful text holds parser
  meets token other := token = other ∧ token.IsOf text
  kind_eq meets := congrArg Token.kind meets.1
  raw_eq meets := congrArg Token.raw meets.1
  yield value := fun _ reached => .value reached
  join := IsFaithful.bind
  look := by
    intro Image next otherNext rest cursor reached
    rw [runAt_get_bind]
    refine (rest cursor cursor ⟨rfl, reached.isOf⟩ rfl).elim (fun related => related _ reached) ?_
    intro cause blames
    exact .error (admits _ (reached.isOf.isOf_of_blames blames))
  advance rest := isFaithful_advance admits fun token isOf =>
    (rest token token ⟨rfl, isOf⟩).relates fun blames _ _ =>
      .error (admits _ (isOf.isOf_of_blames blames))
  peek rest := isFaithful_peek admits fun token isOf => rest token token ⟨rfl, isOf⟩
  deeper := isFaithful_deeper

end Parse

end TemplatedJson
