import TemplatedJson.Proofs.Lexing.Layout

/-!
# Texts that go on behind some tokens

A blank ends every token.  So a text may be cut behind a token and go on with a blank and any
other tokens: the tokens up to the cut stay as they are, place included, and behind them come
tokens of the shapes that were asked for.
-/

namespace TemplatedJson

namespace Lexer

variable {lexer last : Lexer} {tokens : List Token}

/-- The tokens that a lexer yields stay as they are when other text comes behind them, as long
as that text begins with a character that stands in no token other than strings. -/
theorem Yields.cut {foreign : Char} (yields : lexer.Yields tokens last)
    (isForeign : Scan.Foreign foreign) (others : List Char) :
    ∃ before, lexer.rest = before ++ last.rest ∧
      Yields ⟨before ++ foreign :: others, lexer.position⟩ tokens
        ⟨foreign :: others, last.position⟩ := by
  induction yields with
  | none lexer => exact ⟨[], rfl, .none _⟩
  | @token lexer middle last token tokens read notEnd _ ih =>
      obtain ⟨later, split, yieldsLater⟩ := ih
      obtain ⟨gap, text, whole, blankGap, scanned, raw, rest, offset, position⟩ :=
        exists_token_of_next read notEnd
      have taken := congrArg String.toList raw
      rw [String.toList_ofList] at taken
      have spelled : text = token.raw.toList ++ later ++ last.rest := by
        rw [taken, List.append_assoc, ← split, rest, List.take_append_drop]
      have fits : token.raw.length ≤ (token.raw.toList ++ later).length := by
        simp [String.length_toList]
      rw [spelled] at scanned
      have scannedAgain := Scan.token_insert_foreign isForeign scanned notEnd fits others
      have readAgain : Lexer.next ⟨gap ++ (token.raw.toList ++ later ++ foreign :: others),
          lexer.position⟩ = (.ok token, ⟨later ++ foreign :: others, middle.position⟩) := by
        rw [next_of_token rfl blankGap scannedAgain, List.append_assoc, ← String.length_toList, List.take_left, List.drop_left,
          String.ofList_toList, String.length_toList, ← offset, position]
        rfl
      refine ⟨gap ++ (token.raw.toList ++ later), ?_, ?_⟩
      · rw [whole, spelled]
        simp only [List.append_assoc]
      · rw [List.append_assoc]
        exact .token readAgain notEnd yieldsLater

theorem isJsonBlank_space : Unicode.isJsonBlank ' ' := by
  decide

/-- Some text has tokens of the given shapes, with a blank before each of them. -/
theorem exists_yieldsShapes (lexical : ∀ token ∈ tokens, token.Lexical) :
    ∃ text, ∀ position,
      YieldsShapes ⟨' ' :: text, position⟩ tokens fun last => Blanks last.rest := by
  induction tokens with
  | nil => exact ⟨[], fun position => ⟨[], _, .none _, blanks_space, rfl⟩⟩
  | cons token tokens ih =>
      obtain ⟨written, others⟩ := List.forall_mem_cons.mp lexical
      obtain ⟨text, yields⟩ := ih others
      have scanned := written.token (Scan.endsBefore_blank token.kind isJsonBlank_space text)
      rw [String.length_toList] at scanned
      refine ⟨token.raw.toList ++ ' ' :: text, fun position =>
        .cons rfl blanks_space scanned ?_ written.ne_endOfInput fun place => ?_⟩
      · rw [← String.length_toList, List.take_left, String.ofList_toList]
      · rw [← String.length_toList, List.drop_left]
        exact yields place

end Lexer

variable {text : String} {last : Lexer} {tokens more : List Token}

/-- Behind tokens that a text begins with, another text goes on with tokens of any shapes. -/
theorem exists_tokenize_append (yields : (Lexer.ofText text).Yields tokens last)
    (lexical : ∀ token ∈ more, token.Lexical) :
    ∃ whole others final, tokenize whole = .ok (tokens ++ others ++ [final]) ∧
      others.map Token.shape = more.map Token.shape := by
  obtain ⟨chars, goesOn⟩ := Lexer.exists_yieldsShapes lexical
  obtain ⟨before, -, cut⟩ := yields.cut (Scan.foreign_of_isJsonBlank Lexer.isJsonBlank_space) chars
  obtain ⟨others, final, yieldsOthers, blank, shapes⟩ := goesOn last.position
  have lexes : (Lexer.ofText (String.ofList (before ++ ' ' :: chars))).Yields (tokens ++ others)
      final := by
    have whole := cut.append yieldsOthers
    simpa [Lexer.ofText] using whole
  obtain ⟨ending, lexed⟩ := exists_tokenize_iff.mpr ⟨final, lexes, blank⟩
  exact ⟨_, others, ending, lexed, shapes⟩

end TemplatedJson
