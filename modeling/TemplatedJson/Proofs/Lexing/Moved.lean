import TemplatedJson.Proofs.Lexing.Continuation
import TemplatedJson.Proofs.Reading.Order

/-!
# Texts at another place

A lexer looks at nothing but the characters before it.  So two texts that end alike have
the same answers there, up to how far the one end lies behind the other.  And what stands
before a string does not change with what the string holds.
-/

namespace TemplatedJson

/-- The same token farther behind. -/
def Token.moved (distance : Nat) (token : Token) : Token :=
  { token with offset := token.offset + distance }

/-- The same error farther behind. -/
def ParseError.moved (distance : Nat) (error : ParseError) : ParseError :=
  error.relocate (· + distance)

namespace LexerAnswer

/-- The same answer farther behind. -/
def moved (distance : Nat) : LexerAnswer → LexerAnswer
  | .ok token => .ok (token.moved distance)
  | .error error => .error (error.moved distance)

/-- The place that an answer concerns. -/
def offset : LexerAnswer → Nat
  | .ok token => token.offset
  | .error error => error.offset

end LexerAnswer

namespace Lexer

variable {lexer last stopped : Lexer} {token : Token} {tokens : List Token} {text : List Char}

/-! ### The end of a text -/

/-- The same characters farther behind. -/
def moved (distance : Nat) (lexer : Lexer) : Lexer :=
  ⟨lexer.rest, lexer.position + distance⟩

/-- No answer concerns a place before the lexer. -/
theorem stream_behind {place : Nat} (lexer : Lexer) (behind : place ≤ lexer.position) :
    lexer.stream.All fun answer => place ≤ answer.offset := by
  have here : place ≤ lexer.next.1.offset := by
    apply Nat.le_trans behind
    cases answer : lexer.next.1 with
    | ok token => exact (le_offset_of_next (Prod.ext answer rfl)).1
    | error error => exact (le_offset_of_next_error answer).2
  by_cases moves : lexer.skipBlanks.position < lexer.next.2.position
  · have shorter : lexer.next.2.rest.length < lexer.rest.length := next_shortens rfl moves
    obtain ⟨pending, settled⟩ := stream_of_next moves
    have later := stream_behind lexer.next.2 (Nat.le_trans behind lexer.position_le_next)
    refine ⟨?_, settled ▸ later.2⟩
    rw [pending]
    exact List.forall_mem_cons.mpr ⟨here, later.1⟩
  · obtain ⟨pending, settled⟩ := stream_of_stays moves
    exact ⟨by simp [pending], settled ▸ here⟩
termination_by lexer.rest.length

/-! ### Tokens in a row -/

/-- The first answers are the tokens that a lexer yields. -/
theorem Yields.stream_eq (yields : lexer.Yields tokens last) :
    lexer.stream.pending = tokens.map .ok ++ last.stream.pending ∧
      lexer.stream.settled = last.stream.settled := by
  induction yields with
  | none lexer => exact ⟨rfl, rfl⟩
  | @token lexer middle last token tokens read notEnd _ ih =>
      have answered : lexer.skipBlanks.scan.1 = .ok token := congrArg Prod.fst read
      have moves : lexer.skipBlanks.position < lexer.next.2.position :=
        (scan_moves_iff answered).mpr notEnd
      obtain ⟨pending, settled⟩ := stream_of_next moves
      rw [read] at pending settled
      exact ⟨by rw [pending, ih.1]; rfl, settled.trans ih.2⟩

/-- Tokens that are yielded, and the one behind them, are the first answers of a lexer. -/
theorem Yields.answers (yields : lexer.Yields tokens last)
    (read : last.next = (.ok token, stopped)) :
    lexer.answers (tokens.length + 1) = (tokens ++ [token]).map .ok := by
  induction yields with
  | none lexer => simp [Lexer.answers, read]
  | token here _ _ ih =>
      rw [List.length_cons, Lexer.answers, here]
      exact congrArg _ (ih read)

/-- Behind them the lexer is where the call for the last one left it. -/
theorem Yields.after (yields : lexer.Yields tokens last)
    (read : last.next = (.ok token, stopped)) : lexer.after (tokens.length + 1) = stopped := by
  induction yields with
  | none lexer => simp [Lexer.after, read]
  | token here _ _ ih =>
      rw [List.length_cons, Lexer.after, here]
      exact ih read

/-- All tokens end before the place where the lexer is left. -/
theorem Yields.stop_le (yields : lexer.Yields tokens last) :
    ∀ token ∈ tokens, token.stop ≤ last.position := by
  induction yields with
  | none lexer => simp
  | token read _ later ih =>
      exact List.forall_mem_cons.mpr
        ⟨Nat.le_trans (le_offset_of_next read).2 later.position_le, ih⟩

theorem Yields.le_offset (yields : lexer.Yields tokens last) :
    ∀ token ∈ tokens, lexer.position ≤ token.offset := by
  induction yields with
  | none lexer => simp
  | token read _ _ ih =>
      obtain ⟨begins, stop⟩ := le_offset_of_next read
      have passed := Nat.le_trans begins (Token.offset_le_of_stop_le _ stop)
      exact List.forall_mem_cons.mpr
        ⟨begins, fun other member => Nat.le_trans passed (ih other member)⟩

theorem Yields.offset_lt (yields : lexer.Yields tokens last) :
    ∀ token ∈ tokens, token.offset < last.position := by
  intro token member
  have length := (yields.lexical token member).length_pos
  have stop := yields.stop_le token member
  rw [String.length_toList] at length
  unfold Token.stop at stop
  omega

/-- Tokens that a lexer yields come one behind the other. -/
theorem Yields.pairwise (yields : lexer.Yields tokens last) :
    tokens.Pairwise fun first second => first.offset < second.offset := by
  induction yields with
  | none lexer => exact .nil
  | token read notEnd later ih =>
      refine List.pairwise_cons.mpr ⟨fun other member => ?_, ih⟩
      have here := Yields.offset_lt (.token read notEnd (.none _)) _ List.mem_cons_self
      exact Nat.lt_of_lt_of_le here (later.le_offset other member)

/-- No pending answer of a lexer concerns a place before its next token. -/
theorem offset_le_of_pending (read : lexer.next = (.ok token, stopped)) :
    ∀ answer ∈ lexer.stream.pending, token.offset ≤ answer.offset := by
  have stop := (le_offset_of_next read).2
  have behind := stopped.stream_behind (token.offset_le_of_stop_le stop)
  by_cases moves : lexer.skipBlanks.position < lexer.next.2.position
  · rw [(stream_of_next moves).1, read]
    exact List.forall_mem_cons.mpr ⟨Nat.le_refl _, behind.1⟩
  · rw [(stream_of_stays moves).1]
    exact List.forall_mem_nil _

end Lexer

/-! ### A string behind some tokens -/

/-- The tokens that a lexer yields stay as they are when blanks and a string come behind them.
The string is the next token, and the text goes on behind it. -/
theorem Lexer.Yields.string_behind {lexer last : Lexer} {tokens : List Token}
    {blanks chars : List Char} {content : String} {quote : Quote}
    (yields : lexer.Yields tokens last) (blank : Blanks blanks)
    (written : Scan.Written (.string content quote) chars) (after : List Char) :
    ∃ before, lexer.rest = before ++ last.rest ∧
      Yields ⟨before ++ (blanks ++ (chars ++ after)), lexer.position⟩
        (tokens ++ [⟨.string content quote, String.ofList chars, last.position + blanks.length⟩])
          ⟨after, last.position + blanks.length + chars.length⟩ := by
  -- The text goes on with a blank or with the quote, and no token goes on behind either.
  obtain ⟨first, others, split, isForeign⟩ : ∃ first others,
      blanks ++ (chars ++ after) = first :: others ∧ Scan.Foreign first := by
    cases blanks with
    | nil =>
        obtain ⟨inside, rfl, -⟩ := written.spelled
        exact ⟨_, _, rfl, Scan.foreign_character quote⟩
    | cons gap gaps =>
        exact ⟨_, _, rfl, Scan.foreign_of_isJsonBlank (blank gap List.mem_cons_self)⟩
  obtain ⟨before, whole, cut⟩ := yields.cut isForeign others
  have read := @next_mk_of_written _ _ after _ blank written trivial last.position
  rw [← split] at cut
  exact ⟨before, whole, cut.append (.token read (by simp) (.none _))⟩

/-- A text in double quotes. -/
def Quoted.enclosed (inside : String) : String :=
  "\x22" ++ inside ++ "\x22"

theorem Quoted.toList_enclosed (inside : String) :
    (enclosed inside).toList = '\x22' :: (inside.toList ++ ['\x22']) := by
  simp [enclosed]

variable {before inside after : String} {tokens : List Token} {final : Token} {content : List Char}

end TemplatedJson
