import TemplatedJson.Proofs.Expr.Halting
import TemplatedJson.Proofs.Expr.Recognition
import TemplatedJson.Proofs.Lexing.Moved

/-!
# The first token that cannot be repaired

A syntax error blames one token of the text.  The tokens before it begin some expression: a text
that begins with them goes on with what closes all that is still open.  No expression begins with
the tokens up to the blamed one, that one included.  So the error lies at the first token that no
continuation repairs.
-/

namespace TemplatedJson

/-! ### Tokens of a text -/

section Tokens

variable {cursor after : Cursor} {lexer : Lexer} {tokens : List Token}

/-- A lexer never goes back, so tokens that are passed lie before the token behind them. -/
theorem Cursor.Passes.offset_lt (passed : cursor.Passes tokens after)
    (stands : cursor.StandsAt lexer) :
    cursor.current.offset ≤ after.current.offset ∧
      ∀ token ∈ tokens, token.offset < after.current.offset := by
  obtain ⟨last, yields, standsLast⟩ := passed.yields stands
  obtain ⟨_, read⟩ := standsLast.next
  have behind := (Lexer.le_offset_of_next read).1
  have before : ∀ token ∈ tokens, token.offset < after.current.offset := fun token member =>
    Nat.lt_of_lt_of_le (yields.offset_lt token member) behind
  refine ⟨?_, before⟩
  cases passed with
  | none cursor => exact Nat.le_refl _
  | token => exact Nat.le_of_lt (before _ List.mem_cons_self)

end Tokens

/-! ### Beginnings of expressions -/

namespace Expr

/-- Whether some text that begins with the given tokens is accepted, once the limit is large
enough. -/
def Viable (tokens : List Token) : Prop :=
  ∃ text more tree least, tokenize text = .ok (tokens ++ more) ∧
    ∀ options : ParseOptions, least ≤ options.maxDepth →
      parseExpression text options = .ofExcept (.ok tree)

/-- Whether no text is accepted that begins with tokens of the same kinds and texts as the given
ones, whatever the limit is. -/
def Hopeless (tokens : List Token) : Prop :=
  ∀ text found, tokenize text = .ok found →
    tokens.map Token.shape <+: found.map Token.shape →
      ∀ (options : ParseOptions) (tree : Expr),
        parseExpression text options ≠ .ofExcept (.ok tree)

variable {text : String} {last : Lexer} {tokens : List Token} {token : Token}

theorem viable_of_completable (yields : (Lexer.ofText text).Yields tokens last)
    (completable : Grammar.Completable .expression tokens) : Viable tokens := by
  obtain ⟨tree, more, lexical, derivation⟩ := completable
  obtain ⟨whole, others, final, lexed, shapes⟩ := exists_tokenize_append yields lexical
  have same : (tokens ++ others).map Token.shape = (tokens ++ more).map Token.shape := by
    rw [List.map_append, List.map_append, shapes]
  have spells : Spells whole tree := ⟨tokens ++ others, final, lexed, derivation.congr same⟩
  refine ⟨whole, others ++ [final], tree, tree.height, ?_, fun options fits => ?_⟩
  · rwa [List.append_assoc] at lexed
  · exact parseExpression_eq_ok_iff.mpr ⟨spells, fits⟩

open Acceptor in
/-- The machine gets through the tokens of an expression and through the end of the text. -/
theorem Spells.run {tree : Expr} (spells : Spells text tree) :
    ∃ tokens, tokenize text = .ok tokens ∧ run ⟨.operand, []⟩ tokens = some ⟨.nothing, []⟩ := by
  obtain ⟨tokens, final, lexed, derivation⟩ := spells
  have ended : final.kind = .endOfInput := congrArg Prod.fst (shape_of_final lexed)
  have stops : step ⟨.continuation, []⟩ final = some ⟨.nothing, []⟩ :=
    Grammar.step_closing (by rw [ended]; rfl)
  refine ⟨_, lexed, ?_⟩
  simp [run_append, derivation.accepts [], stops]

open Acceptor in
theorem hopeless_of_stuck (stuck : Stuck ⟨.operand, []⟩ tokens token) :
    Hopeless (tokens ++ [token]) := by
  rintro text found lexed ⟨rest, same⟩ options tree parsed
  obtain ⟨all, relexed, accepted⟩ := (parseExpression_eq_ok_iff.mp parsed).1.run
  obtain rfl := Except.ok.inj (relexed.symm.trans lexed)
  obtain ⟨first, more, rfl, sameFirst, -⟩ := List.map_eq_append_iff.mp same.symm
  have halted : run ⟨.operand, []⟩ first = none := by
    rw [run_congr sameFirst]
    exact stuck.run_eq_none []
  rw [run_append, halted] at accepted
  cases accepted

end Expr

/-! ### Syntax errors -/

/-- A syntax error blames the first token that makes the text hopeless.  The tokens before it
begin an expression that is accepted under a large enough limit, and no text that begins with
them and with the blamed token is accepted under any limit. -/
theorem parseExpression_blames_first_hopeless (text : String) (options : ParseOptions)
    (error : ParseError) (failed : parseExpression text options = .ofExcept (.error error))
    (isSyntax : error.IsSyntaxError) :
    ∃ before token, (Lexer.ofText text).answers (before.length + 1) = (before ++ [token]).map .ok ∧
      (∀ earlier ∈ before, earlier.offset < token.offset) ∧ error.BlamesToken token ∧
      Expr.Viable before ∧ Expr.Hopeless (before ++ [token]) := by
  rw [parseExpression_eq_parseInside, Outcome.ofExcept_inj] at failed
  cases located : Cursor.ofText text 0 with
  | error lexical =>
      unfold Expr.parseInside at failed
      rw [located] at failed
      obtain rfl := Except.error.inj failed
      exact absurd isSyntax (ParseError.not_isSyntaxError (Cursor.isLexical_of_ofText located))
  | ok cursor =>
      rw [Expr.parseInside_of_ofText located] at failed
      obtain ⟨before, stop, passed, blames, stuck, completable⟩ :=
        Grammar.completeExpression_halts _ (Cursor.stands_of_ofText located) isSyntax
          (Prod.ext failed rfl)
      have stands : cursor.StandsAt (Lexer.ofText text) := (Cursor.ofText_eq_ok_iff.mp located).1
      obtain ⟨last, yields, standsLast⟩ := passed.yields stands
      obtain ⟨stopped, next⟩ := standsLast.next
      exact ⟨before, stop.current, yields.answers next, (passed.offset_lt stands).2, blames,
        Expr.viable_of_completable yields completable, Expr.hopeless_of_stuck stuck⟩

/-- In brackets a second name is hopeless, although the first one may still go on. -/
theorem parseExpression_blames_second_name :
    ∃ error, parseExpression "a[b c]" ⟨9⟩ = .ofExcept (.error error) ∧ error.IsSyntaxError ∧
      ∃ before token, token.offset = 4 ∧ error.BlamesToken token ∧ Expr.Viable before ∧
        Expr.Hopeless (before ++ [token]) := by
  have failed : parseExpression "a[b c]" ⟨9⟩ =
      .ofExcept (.error ⟨.unexpectedToken "\x27]\x27" "identifier \x27c\x27", 4⟩) := by
    decide +kernel
  have isSyntax : ParseError.IsSyntaxError
      ⟨.unexpectedToken "\x27]\x27" "identifier \x27c\x27", 4⟩ := ⟨_, _, rfl⟩
  obtain ⟨before, token, -, -, blames, viable, hopeless⟩ :=
    parseExpression_blames_first_hopeless "a[b c]" ⟨9⟩ _ failed isSyntax
  obtain ⟨expected, same⟩ := id blames
  exact ⟨_, failed, isSyntax, before, token, (congrArg ParseError.offset same).symm, blames, viable,
    hopeless⟩

end TemplatedJson
