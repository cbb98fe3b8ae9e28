import TemplatedJson.Proofs.Lexing.Yields

/-!
# Reading all tokens at once

The tokens of a text can be read all at once, or one call at a time.  All at once, they
are those that the lexer yields up to the end of the text, if the calls come that far.
Otherwise the error is the one of the first call that fails.
-/

namespace TemplatedJson

/-! ### Streams -/

namespace TokenStream

variable {stream later : TokenStream} {token : Token} {error : ParseError}

theorem tokens_of_error (answered : stream.next = (.error error, later)) :
    stream.tokens = .error error := by
  unfold tokens
  cases pending : stream.pending with
  | nil =>
      rw [next_of_nil pending, Prod.mk.injEq] at answered
      rw [answered.1]
      rfl
  | cons first others =>
      have popped := (next_of_cons pending).1
      rw [answered] at popped
      rw [← popped, List.mapM_cons]
      rfl

theorem tokens_of_token (answered : stream.next = (.ok token, later))
    (notEnd : token.kind ≠ .endOfInput) :
    stream.tokens = later.tokens.map (token :: ·) := by
  unfold tokens
  cases pending : stream.pending with
  | nil =>
      rw [next_of_nil pending, Prod.mk.injEq] at answered
      exact absurd (stream.settled_end token answered.1) notEnd
  | cons first others =>
      obtain ⟨popped, rfl, settled⟩ := next_of_cons pending
      rw [answered] at popped settled ⊢
      rw [← popped, ← settled, List.mapM_cons]
      cases later.pending.mapM id with
      | error failed => rfl
      | ok before => cases later.settled <;> rfl

theorem tokens_of_end (answered : stream.next = (.ok token, later))
    (ended : token.kind = .endOfInput) : stream.tokens = .ok [token] := by
  unfold tokens
  cases pending : stream.pending with
  | nil =>
      rw [next_of_nil pending, Prod.mk.injEq] at answered
      rw [answered.1]
      rfl
  | cons first others =>
      have popped := (next_of_cons pending).1
      rw [answered] at popped
      have member : .ok token ∈ stream.pending := by
        rw [pending, ← popped]
        exact List.mem_cons_self
      exact absurd ended (stream.pending_not_end token member)

end TokenStream

/-! ### Lexers -/

namespace Lexer

variable {lexer last after : Lexer} {token : Token} {tokens : List Token} {error : ParseError}

theorem tokens_of_next (read : lexer.next = (.ok token, after)) (notEnd : token.kind ≠ .endOfInput) :
    lexer.stream.tokens = after.stream.tokens.map (token :: ·) :=
  TokenStream.tokens_of_token (by rw [stream_next, read]) notEnd

/-- Tokens that the lexer yields come before what it reads from then on. -/
theorem Yields.stream_tokens (yields : lexer.Yields tokens last) :
    lexer.stream.tokens = last.stream.tokens.map (tokens ++ ·) := by
  induction yields with
  | none lexer => cases read : lexer.stream.tokens <;> simp [Except.map]
  | @token lexer middle last token tokens read notEnd _ ih =>
      rw [tokens_of_next read notEnd, ih]
      cases last.stream.tokens <;> simp [Except.map]

/-- The mark at the end of what a lexer has to read. -/
def finalToken (lexer : Lexer) : Token :=
  ⟨.endOfInput, "", lexer.position + lexer.rest.length⟩

theorem tokens_of_blanks (blank : Blanks lexer.rest) :
    lexer.stream.tokens = .ok [lexer.finalToken] := by
  have answered := lexer.stream_next
  rw [next_of_blanks blank] at answered
  exact TokenStream.tokens_of_end answered rfl

/-- A lexer yields tokens until a call fails or nothing but blanks is left. -/
theorem exists_yields_to_stop (lexer : Lexer) :
    ∃ tokens last, lexer.Yields tokens last ∧
      (Blanks last.rest ∨ ∃ error, last.next.1 = .error error) := by
  rcases read : lexer.next with ⟨error | token, after⟩
  · exact ⟨[], lexer, .none lexer, .inr ⟨error, by rw [read]⟩⟩
  by_cases ended : token.kind = .endOfInput
  · exact ⟨[], lexer, .none lexer, .inl (blanks_of_next_end read ended)⟩
  · obtain ⟨blanks, text, -, written, -⟩ := exists_of_next read ended
    have shorter : after.rest.length < lexer.rest.length := by
      have positive := written.length_pos
      simp only [text, List.length_append]
      omega
    obtain ⟨tokens, last, yields, stopped⟩ := exists_yields_to_stop after
    exact ⟨token :: tokens, last, .token read ended yields, stopped⟩
termination_by lexer.rest.length

end Lexer

/-! ### Whole texts -/

variable {text : String} {last : Lexer} {tokens : List Token} {error : ParseError}

theorem tokenize_of_yields (yields : (Lexer.ofText text).Yields tokens last)
    (blank : Blanks last.rest) : tokenize text = .ok (tokens ++ [last.finalToken]) := by
  unfold tokenize
  rw [yields.stream_tokens, Lexer.tokens_of_blanks blank]
  rfl

theorem tokenize_of_failed (yields : (Lexer.ofText text).Yields tokens last)
    (failed : last.next.1 = .error error) : tokenize text = .error error := by
  have answered := last.stream_next
  rw [failed] at answered
  unfold tokenize
  rw [yields.stream_tokens, TokenStream.tokens_of_error answered]
  rfl

end TemplatedJson
