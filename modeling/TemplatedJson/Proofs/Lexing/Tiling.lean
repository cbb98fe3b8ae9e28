import TemplatedJson.Proofs.Lexing.Yields

/-!
# Tokens tile the text

Between two tokens there is nothing but blanks, and a token holds exactly the
characters from its offset up to its end.  So the texts of the tokens and the
gaps between them, put together in order, are the text that was read.
-/

namespace TemplatedJson

namespace Token

/-- Whether a text is made up of the given tokens with blanks before each of
them.  The offset of the first character is `start`. -/
inductive Tile : (start : Nat) → (text : List Char) → List Token → Prop where
  | nil (start : Nat) : Tile start [] []
  | cons {start : Nat} {blanks rest : List Char} {token : Token} {tokens : List Token} :
      Blanks blanks → token.offset = start + blanks.length → Tile token.stop rest tokens →
        Tile start (blanks ++ (token.raw.toList ++ rest)) (token :: tokens)

/-- Whether a character of the text, given by its index, belongs to a token. -/
def Covers (token : Token) (index : Nat) : Prop :=
  token.offset ≤ index ∧ index < token.stop

/-- The pieces of a text between the tokens, each with the token after it. -/
def gaps (text : List Char) : (start : Nat) → List Token → List (List Char)
  | _, [] => []
  | start, token :: tokens =>
      (text.drop start).take (token.offset - start) :: gaps text token.stop tokens

/-- Gaps and the texts of the tokens after them, one after the other. -/
def interleave (gaps : List (List Char)) (tokens : List Token) : List Char :=
  (List.zipWith (fun gap token => gap ++ token.raw.toList) gaps tokens).flatten

namespace Tile

variable {start : Nat} {text : List Char} {tokens : List Token}

/-- No token begins before the text or ends after it. -/
theorem bounds (tile : Tile start text tokens) :
    ∀ token ∈ tokens, start ≤ token.offset ∧ token.stop ≤ start + text.length := by
  induction tile with
  | nil start => simp
  | @cons start blanks rest token tokens blank offset later ih =>
      have stop : token.stop = start + blanks.length + token.raw.toList.length := by
        rw [Token.stop, offset, String.length_toList]
      intro other member
      simp only [List.length_append]
      rcases List.mem_cons.mp member with rfl | inside
      · omega
      · have within := ih other inside
        omega

/-- Every token ends before the tokens after it begin. -/
theorem pairwise (tile : Tile start text tokens) :
    tokens.Pairwise fun before after => before.stop ≤ after.offset := by
  induction tile with
  | nil start => exact .nil
  | cons _ _ later ih => exact .cons (fun other member => (later.bounds other member).1) ih

/-- A token holds the characters of the text from its offset on. -/
theorem raw_eq (tile : Tile start text tokens) :
    ∀ token ∈ tokens,
      token.raw.toList = (text.drop (token.offset - start)).take token.raw.length := by
  induction tile with
  | nil start => simp
  | @cons start blanks rest token tokens blank offset later ih =>
      intro other member
      rcases List.mem_cons.mp member with rfl | inside
      · have front : other.offset - start = blanks.length := by omega
        rw [front, List.drop_left, ← String.length_toList, List.take_left]
      · have after := (later.bounds other inside).1
        have stop : token.stop = start + blanks.length + token.raw.toList.length := by
          rw [Token.stop, offset, String.length_toList]
        have skipped : other.offset - start =
            (blanks ++ token.raw.toList).length + (other.offset - token.stop) := by
          rw [List.length_append]
          omega
        rw [← List.append_assoc, skipped, ← List.drop_drop, List.drop_left]
        exact ih other inside

/-- A character that belongs to no token is a blank. -/
theorem blank_of_uncovered (tile : Tile start text tokens) {index : Nat}
    (inside : index < text.length)
    (uncovered : ∀ token ∈ tokens, ¬ token.Covers (start + index)) :
    Unicode.isJsonBlank text[index] := by
  induction tile generalizing index with
  | nil start => simp at inside
  | @cons start blanks rest token tokens blank offset later ih =>
      have stop : token.stop = start + blanks.length + token.raw.toList.length := by
        rw [Token.stop, offset, String.length_toList]
      by_cases inGap : index < blanks.length
      · rw [List.getElem_append_left inGap]
        exact blank _ (List.getElem_mem inGap)
      · have outside := uncovered token List.mem_cons_self
        unfold Covers at outside
        -- The character stands behind the first token, so it is one of the rest.
        have behind : blanks.length + token.raw.toList.length ≤ index := by omega
        have found : index - (blanks.length + token.raw.toList.length) < rest.length := by
          simp only [List.length_append] at inside
          omega
        have known := ih found fun other member => by
          have same : token.stop + (index - (blanks.length + token.raw.toList.length)) =
              start + index := by omega
          rw [same]
          exact uncovered other (List.mem_cons_of_mem token member)
        rw [List.getElem_append_right (by omega), List.getElem_append_right (by omega)]
        simpa only [Nat.sub_sub] using known

/-- The gaps are blank, and they make up the text together with the texts of the
tokens. -/
theorem gaps_interleave (tile : Tile start text tokens) {before : List Char}
    (passed : before.length = start) :
    (∀ gap ∈ gaps (before ++ text) start tokens, Blanks gap) ∧
      interleave (gaps (before ++ text) start tokens) tokens = text := by
  induction tile generalizing before with
  | nil start => exact ⟨by simp [gaps], rfl⟩
  | @cons start blanks rest token tokens blank offset later ih =>
      have gap : ((before ++ (blanks ++ (token.raw.toList ++ rest))).drop start).take
          (token.offset - start) = blanks := by
        have width : token.offset - start = blanks.length := by omega
        rw [← passed, List.drop_left, passed, width, List.take_left]
      have stop : (before ++ (blanks ++ token.raw.toList)).length = token.stop := by
        rw [Token.stop, offset, List.length_append, List.length_append, String.length_toList]
        omega
      have others := ih stop
      have regroup : before ++ (blanks ++ token.raw.toList) ++ rest =
          before ++ (blanks ++ (token.raw.toList ++ rest)) := by simp
      rw [regroup] at others
      constructor
      · simp only [gaps, gap]
        exact List.forall_mem_cons.mpr ⟨blank, others.1⟩
      · have joined := others.2
        simp only [gaps, interleave, List.zipWith_cons_cons, List.flatten_cons, gap,
          List.append_assoc] at joined ⊢
        rw [joined]

end Tile

end Token

/-! ### The tokens of a text -/

variable {lexer last : Lexer} {tokens : List Token} {final : Token}

/-- Tokens that a lexer yields, and the end after them, tile what the lexer had
to read. -/
theorem Lexer.Yields.tile (yields : lexer.Yields tokens last) (blank : Blanks last.rest)
    (empty : final.raw = "") (offset : final.offset = last.position + last.rest.length) :
    Token.Tile lexer.position lexer.rest (tokens ++ [final]) := by
  induction yields with
  | none lexer =>
      have tile := Token.Tile.cons blank offset (.nil final.stop)
      simpa [empty] using tile
  | @token lexer middle last token tokens read notEnd _ ih =>
      obtain ⟨blanks, text, blankBefore, -, begins, stops⟩ := exists_of_next read notEnd
      have later := ih blank offset
      rw [stops] at later
      rw [text]
      exact .cons blankBefore begins later

/-- The end of the text stays where it is. -/
theorem Lexer.Yields.extent (yields : lexer.Yields tokens last) :
    last.position + last.rest.length = lexer.position + lexer.rest.length := by
  induction yields with
  | none lexer => rfl
  | token read notEnd _ ih =>
      obtain ⟨blanks, text, -, -, begins, stops⟩ := exists_of_next read notEnd
      rw [ih, stops, Token.stop, begins, text]
      simp only [List.length_append, String.length_toList]
      omega

theorem Lexer.Yields.position_le (yields : lexer.Yields tokens last) :
    lexer.position ≤ last.position := by
  have extent := yields.extent
  have shorter := yields.length_le
  omega

theorem exists_of_tokenize {text : String} {tokens : List Token} (lexed : tokenize text = .ok tokens) :
    ∃ body final, tokens = body ++ [final] := by
  unfold tokenize TokenStream.tokens at lexed
  cases pending : (Lexer.ofText text).stream.pending.mapM id with
  | error error => simp [pending, bind, Except.bind] at lexed
  | ok body =>
      cases settled : (Lexer.ofText text).stream.settled with
      | error error => simp [pending, settled, bind, Except.bind] at lexed
      | ok final =>
          simp only [pending, settled, bind, Except.bind, pure, Except.pure,
            Except.ok.injEq] at lexed
          exact ⟨body, final, lexed.symm⟩

/-- The tokens of a text end with a mark at the end of the text, and they tile
the text. -/
theorem exists_tile_of_tokenize {text : String} {tokens : List Token}
    (lexed : tokenize text = .ok tokens) :
    ∃ body final, tokens = body ++ [final] ∧ final.kind = .endOfInput ∧
      final.offset = text.length ∧
      (∀ token ∈ body, token.kind ≠ .endOfInput ∧ 0 < token.raw.length) ∧
      Token.Tile 0 text.toList tokens := by
  obtain ⟨body, final, rfl⟩ := exists_of_tokenize lexed
  obtain ⟨cursor, after, located, passed, rfl, ended⟩ := (tokenize_eq_ok_iff 0).mp lexed
  have stands : cursor.StandsAt (Lexer.ofText text) := (Cursor.ofText_eq_ok_iff.mp located).1
  obtain ⟨last, yields, standsLast⟩ := passed.yields stands
  obtain ⟨middle, read⟩ := standsLast.next
  have blank := Lexer.blanks_of_next_end read ended
  rw [Lexer.next_of_blanks blank] at read
  simp only [Prod.mk.injEq, Except.ok.injEq] at read
  have offset : after.current.offset = last.position + last.rest.length := by rw [← read.1]
  have tile : Token.Tile 0 text.toList (body ++ [after.current]) :=
    yields.tile blank (by rw [← read.1]) offset
  refine ⟨body, after.current, rfl, ended, ?_, ?_, tile⟩
  · rw [offset, yields.extent]
    simp [Lexer.ofText, String.length_toList]
  · intro token member
    have lexical := yields.lexical token member
    exact ⟨lexical.ne_endOfInput, String.length_toList ▸ lexical.length_pos⟩

/-- The tokens of a text tile it.  The mark at the end stands at the end and
nowhere else, every other token is a nonempty piece of the text from its offset up
to its end, and what no token covers is blank.  So the gaps between the tokens and
the tokens themselves are all of the text, in the same order. -/
theorem tokenize_tiles (text : String) (tokens : List Token)
    (lexed : tokenize text = .ok tokens) :
    (∃ body final, tokens = body ++ [final] ∧ final.kind = .endOfInput ∧
      final.offset = text.length ∧ ∀ token ∈ body, token.kind ≠ .endOfInput ∧ token.raw ≠ "") ∧
    (∀ token ∈ tokens, token.stop ≤ text.length ∧
      token.raw.toList = (text.toList.drop token.offset).take (token.stop - token.offset)) ∧
    (tokens.Pairwise fun before after => before.stop ≤ after.offset) ∧
    (∀ (index : Nat) (inside : index < text.toList.length),
      (∀ token ∈ tokens, ¬ token.Covers index) → Unicode.isJsonBlank text.toList[index]) ∧
    (∀ gap ∈ Token.gaps text.toList 0 tokens, Blanks gap) ∧
    Token.interleave (Token.gaps text.toList 0 tokens) tokens = text.toList := by
  obtain ⟨body, final, split, ended, offset, inside, tile⟩ := exists_tile_of_tokenize lexed
  refine ⟨⟨body, final, split, ended, offset, ?_⟩, ?_, tile.pairwise, ?_,
    @Token.Tile.gaps_interleave _ _ _ tile [] rfl⟩
  · intro token member
    obtain ⟨notEnd, positive⟩ := inside token member
    refine ⟨notEnd, ?_⟩
    intro empty
    simp [empty] at positive
  · intro token member
    have within := (tile.bounds token member).2
    have raw := tile.raw_eq token member
    have width : token.stop - token.offset = token.raw.length := Nat.add_sub_cancel_left _ _
    rw [width]
    exact ⟨by simpa [String.length_toList] using within, raw⟩
  · intro index inside uncovered
    exact tile.blank_of_uncovered inside fun token member => by
      rw [Nat.zero_add]
      exact uncovered token member

/-- The blanks of a text are the gaps between its tokens, those at its end
included. -/
theorem tokenize_tiles_sum :
    tokenize " a+\t1.5 " = .ok [⟨.identifier "a", "a", 1⟩, ⟨.symbol .plus, "+", 2⟩,
      ⟨.number, "1.5", 4⟩, ⟨.endOfInput, "", 8⟩] ∧
    Token.interleave [[' '], [], ['\t'], [' ']] [⟨.identifier "a", "a", 1⟩, ⟨.symbol .plus, "+", 2⟩,
      ⟨.number, "1.5", 4⟩, ⟨.endOfInput, "", 8⟩] = " a+\t1.5 ".toList := by
  have lexed : tokenize " a+\t1.5 " = .ok [⟨.identifier "a", "a", 1⟩, ⟨.symbol .plus, "+", 2⟩,
      ⟨.number, "1.5", 4⟩, ⟨.endOfInput, "", 8⟩] :=
    eq_ok_of_toOption (by decide +kernel)
  have gaps : Token.gaps " a+\t1.5 ".toList 0 [⟨.identifier "a", "a", 1⟩,
      ⟨.symbol .plus, "+", 2⟩, ⟨.number, "1.5", 4⟩, ⟨.endOfInput, "", 8⟩] =
        [[' '], [], ['\t'], [' ']] := by
    decide +kernel
  have whole := (tokenize_tiles _ _ lexed).2.2.2.2.2
  rw [gaps] at whole
  exact ⟨lexed, whole⟩

end TemplatedJson
