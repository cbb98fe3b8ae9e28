import TemplatedJson.Proofs.Expr.Recognition
import TemplatedJson.Proofs.Lexing.Eager
import TemplatedJson.Proofs.Lexing.Tiling
import TemplatedJson.Proofs.Reading.Keeping

/-!
# Reading tokens as they are needed

The parser asks for one token after the other, and it stops at the first fault that it
meets.  What it meets on the way is what the lexer yields to one who reads all tokens at
once.  So a fault in the spelling of any token is reported, unless the parser had reason to
stop at an earlier token.
-/

namespace TemplatedJson

variable {text : String} {tokens : List Token} {token : Token} {error fault : ParseError}

/-! ### Tokens that are met -/

/-- Whether a lexer yields a token of a text, behind calls that all yield tokens. -/
def Token.MetIn (text : String) (token : Token) : Prop :=
  ∃ tokens last after, (Lexer.ofText text).Yields tokens last ∧ last.next = (.ok token, after)

namespace Token.MetIn

/-- If no call fails, the tokens that are met are those that are read all at once. -/
theorem mem_of_tokenize (met : token.MetIn text) (lexed : tokenize text = .ok tokens) :
    token ∈ tokens := by
  obtain ⟨earlier, last, after, yields, read⟩ := met
  by_cases ended : token.kind = .endOfInput
  · have blank := Lexer.blanks_of_next_end read ended
    rw [Lexer.next_of_blanks blank, Prod.mk.injEq, Except.ok.injEq] at read
    rw [tokenize_of_yields yields blank, Except.ok.injEq] at lexed
    rw [← lexed, ← read.1]
    exact List.mem_append_right _ List.mem_cons_self
  · have through := yields.append (.token read ended (.none after))
    unfold tokenize at lexed
    rw [through.stream_tokens] at lexed
    cases later : after.stream.tokens with
    | error failed => simp [later, Except.map] at lexed
    | ok others =>
        simp only [later, Except.map, Except.ok.injEq] at lexed
        simp [← lexed]

/-- If a call fails, the tokens that are met lie before the fault. -/
theorem offset_lt_of_tokenize (met : token.MetIn text) (failed : tokenize text = .error fault) :
    token.offset < fault.offset := by
  obtain ⟨earlier, last, after, yields, read⟩ := met
  by_cases ended : token.kind = .endOfInput
  · rw [tokenize_of_yields yields (Lexer.blanks_of_next_end read ended)] at failed
    cases failed
  · obtain ⟨others, final, later, blank | ⟨found, answered⟩⟩ := after.exists_yields_to_stop
    · have through := yields.append (.token read ended later)
      rw [tokenize_of_yields through blank] at failed
      cases failed
    · have through := yields.append (.token read ended later)
      rw [tokenize_of_failed through answered, Except.error.injEq] at failed
      subst failed
      obtain ⟨-, -, -, written, -, stop⟩ := Lexer.exists_of_next read ended
      have positive := written.length_pos
      rw [String.length_toList] at positive
      calc token.offset < token.stop := Nat.lt_add_of_pos_right positive
        _ = after.position := stop.symm
        _ ≤ final.position := later.position_le
        _ ≤ found.offset := (Lexer.le_offset_of_next_error answered).2

end Token.MetIn

/-! ### Cursors among them -/

/-- Whether a cursor stands where the lexer has yielded nothing but tokens. -/
def Cursor.Met (text : String) (cursor : Cursor) : Prop :=
  ∃ tokens lexer, (Lexer.ofText text).Yields tokens lexer ∧ cursor.StandsAt lexer

namespace Cursor.Met

variable {cursor : Cursor} {upcoming : TokenStream}

theorem metIn (met : cursor.Met text) : cursor.current.MetIn text := by
  obtain ⟨tokens, lexer, yields, stands⟩ := met
  obtain ⟨after, read⟩ := stands.next
  exact ⟨tokens, lexer, after, yields, read⟩

/-- At the end of the text a cursor meets the end again, and before it the next token. -/
theorem of_ok (met : cursor.Met text) (answered : cursor.upcoming.next = (.ok token, upcoming)) :
    Cursor.Met text { cursor with current := token, upcoming := upcoming } := by
  obtain ⟨tokens, lexer, yields, stands⟩ := met
  obtain ⟨middle, read, onward⟩ := stands.exists_upcoming
  rw [answered] at onward
  obtain ⟨next, rfl⟩ := Prod.mk.inj onward
  have answer : middle.next = (.ok token, middle.next.2) := Prod.ext next.symm rfl
  by_cases ended : cursor.current.kind = .endOfInput
  · refine ⟨tokens, lexer, yields, ?_⟩
    have blank := Lexer.blanks_of_next_end read ended
    rw [Lexer.next_of_blanks blank, Prod.mk.injEq, Except.ok.injEq] at read
    obtain ⟨-, rfl⟩ := read
    have again := @Lexer.next_of_blanks ⟨[], lexer.position + lexer.rest.length⟩ blanks_nil
    rw [again, Prod.mk.injEq, Except.ok.injEq] at answer
    unfold StandsAt StandsIn
    rw [lexer.stream_next, Lexer.next_of_blanks blank, again, ← answer.1]
    rfl
  · refine ⟨tokens ++ [cursor.current], middle, yields.append (.token read ended (.none middle)), ?_⟩
    unfold StandsAt StandsIn
    rw [middle.stream_next, answer]

theorem tokenize_of_error (met : cursor.Met text)
    (answered : cursor.upcoming.next = (.error error, upcoming)) : tokenize text = .error error := by
  obtain ⟨tokens, lexer, yields, stands⟩ := met
  obtain ⟨middle, read, onward⟩ := stands.exists_upcoming
  rw [answered] at onward
  have failed : middle.next.1 = .error error := (Prod.mk.inj onward).1.symm
  by_cases ended : cursor.current.kind = .endOfInput
  · have blank := Lexer.blanks_of_next_end read ended
    rw [Lexer.next_of_blanks blank, Prod.mk.injEq] at read
    rw [← read.2, Lexer.next_of_blanks blanks_nil] at failed
    cases failed
  · exact tokenize_of_failed (yields.append (.token read ended (.none middle))) failed

end Cursor.Met

/-! ### Parsing -/

/-- Whether an error is what reading all tokens at once ends with, or else lies at a token that is
met and comes from the parser. -/
def ParseError.AgreesWith (text : String) (error : ParseError) : Prop :=
  tokenize text = .error error ∨
    error.cause.IsOfParser ∧ ∃ token : Token, token.MetIn text ∧ error.offset = token.offset

/-- A cursor only meets tokens that are read all at once too. -/
def lazyReading (text : String) : Invariant where
  holds := Cursor.Met text
  admits := ParseError.AgreesWith text
  of_ok := Cursor.Met.of_ok
  of_error met answered := .inl (met.tokenize_of_error answered)
  of_refused met ofParser := .inr ⟨ofParser, _, met.metIn, rfl⟩
  of_depth _ met := met

theorem agreesWith_of_parseExpression {options : ParseOptions}
    (failed : parseExpression text options = .ofExcept (.error error)) : error.AgreesWith text := by
  rw [parseExpression_eq_parseInside, Outcome.ofExcept_inj] at failed
  cases located : Cursor.ofText text 0 with
  | error first =>
      unfold Expr.parseInside at failed
      rw [located] at failed
      obtain rfl := Except.error.inj failed
      exact .inl (tokenize_of_failed (.none _) (Cursor.next_of_ofText_error located))
  | ok cursor =>
      rw [Expr.parseInside_of_ofText located] at failed
      have stands : cursor.StandsAt (Lexer.ofText text) := (Cursor.ofText_eq_ok_iff.mp located).1
      exact (Parse.keeps_completeExpression (lazyReading text) ⟨options.maxDepth, 0⟩ cursor
        ⟨[], _, .none _, stands⟩).of_failed failed

/-- The parser of bare expressions agrees with reading all tokens at once.  Where a call of the
lexer fails, the parser reports the same fault, or it refuses the text at an earlier place for a
reason of its own.  Where none fails, all errors are the parser's own, and each lies at a token
of the text.  So no text with a fault is accepted. -/
theorem parseExpression_agrees_with_tokenize (text : String) (options : ParseOptions) :
    (∀ fault, tokenize text = .error fault → ∃ error,
      parseExpression text options = .ofExcept (.error error) ∧
        (error = fault ∨ error.cause.IsOfParser ∧ error.offset < fault.offset)) ∧
    (∀ tokens error, tokenize text = .ok tokens →
      parseExpression text options = .ofExcept (.error error) →
        error.cause.IsOfParser ∧ ∃ token ∈ tokens, error.offset = token.offset) ∧
    ∀ tree, parseExpression text options = .ofExcept (.ok tree) →
      ∃ tokens, tokenize text = .ok tokens := by
  have accepted : ∀ tree, parseExpression text options = .ofExcept (.ok tree) →
      ∃ tokens, tokenize text = .ok tokens := by
    intro tree parsed
    obtain ⟨⟨tokens, final, lexed, -⟩, -⟩ := parseExpression_eq_ok_iff.mp parsed
    exact ⟨_, lexed⟩
  refine ⟨fun fault failed => ?_, fun tokens error lexed failed => ?_, accepted⟩
  · cases result : Expr.parseInside options.maxDepth 0 text with
    | ok tree =>
        obtain ⟨tokens, lexed⟩ :=
          accepted tree (by rw [parseExpression_eq_parseInside, result])
        rw [lexed] at failed
        cases failed
    | error error =>
        have reported : parseExpression text options = .ofExcept (.error error) := by
          rw [parseExpression_eq_parseInside, result]
        refine ⟨error, reported, ?_⟩
        rcases agreesWith_of_parseExpression reported with same | ⟨ofParser, token, met, place⟩
        · rw [same] at failed
          exact .inl (Except.error.inj failed)
        · exact .inr ⟨ofParser, place ▸ met.offset_lt_of_tokenize failed⟩
  · rcases agreesWith_of_parseExpression failed with same | ⟨ofParser, token, met, place⟩
    · rw [same] at lexed
      cases lexed
    · exact ⟨ofParser, token, met.mem_of_tokenize lexed, place⟩

/-- The parser stops at the second number, before the open string, and without that string it
stops there too. -/
theorem parseExpression_agrees_before_open_string :
    (∃ error, parseExpression "1 2 \"" ⟨8⟩ = .ofExcept (.error error) ∧
      (error = ⟨.unterminatedString, 4⟩ ∨ error.cause.IsOfParser ∧ error.offset < 4)) ∧
    ∃ token ∈ ([⟨.number, "1", 0⟩, ⟨.number, "2", 2⟩, ⟨.endOfInput, "", 3⟩] : List Token),
      2 = token.offset := by
  constructor
  · have failed : tokenize "1 2 \"" = .error ⟨.unterminatedString, 4⟩ :=
      Outcome.ofExcept_inj.mp (by decide +kernel)
    exact (parseExpression_agrees_with_tokenize "1 2 \"" ⟨8⟩).1 _ failed
  · have lexed : tokenize "1 2" =
        .ok [⟨.number, "1", 0⟩, ⟨.number, "2", 2⟩, ⟨.endOfInput, "", 3⟩] :=
      eq_ok_of_toOption (by decide +kernel)
    have refused : parseExpression "1 2" ⟨8⟩ =
        .ofExcept (.error ⟨.unexpectedToken "end of input" "number", 2⟩) := by
      decide +kernel
    exact ((parseExpression_agrees_with_tokenize "1 2" ⟨8⟩).2.1 _ _ lexed refused).2

end TemplatedJson
