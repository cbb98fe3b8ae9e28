import TemplatedJson.Proofs.Lexing.Munch
import TemplatedJson.Proofs.Lexing.Tiling

/-!
# Blanks between tokens

The blanks between tokens only move the tokens behind them.  More blanks may be put
wherever no token goes on, and the kinds and the texts of all tokens stay the same.
-/

namespace TemplatedJson

/-- What is left of a token without its place: its kind and its exact text. -/
def Token.shape (token : Token) : Token.Kind × String :=
  (token.kind, token.raw)

namespace Lexer

variable {lexer other middle last : Lexer} {token : Token} {tokens : List Token}
  {gap text before after blanks : List Char} {kind : Token.Kind} {width : Nat}

/-! ### One call -/

/-- A call that finds a token after some blanks. -/
theorem next_of_token (split : lexer.rest = gap ++ text) (blank : Blanks gap)
    (scanned : Scan.token text = .ok (kind, width)) :
    lexer.next = (.ok ⟨kind, String.ofList (text.take width), lexer.position + gap.length⟩,
      ⟨text.drop width, lexer.position + gap.length + width⟩) := by
  have start := skipBlanks_of_blanks split blank (not_blank_of_token scanned)
  simp [next, scan, start, scanned, skip]

/-- What a call found that yields a token. -/
theorem exists_token_of_next (read : lexer.next = (.ok token, middle))
    (notEnd : token.kind ≠ .endOfInput) :
    ∃ gap text, lexer.rest = gap ++ text ∧ Blanks gap ∧
      Scan.token text = .ok (token.kind, token.raw.length) ∧
      token.raw = String.ofList (text.take token.raw.length) ∧
      middle.rest = text.drop token.raw.length ∧ token.offset = lexer.position + gap.length ∧
      middle.position = token.stop := by
  obtain ⟨gap, split, blank, position⟩ := lexer.exists_blanks
  unfold next scan at read
  split at read
  · next kind width scanned =>
      simp only [Prod.mk.injEq, Except.ok.injEq] at read
      obtain ⟨rfl, rfl⟩ := read
      obtain ⟨chars, rest, whole, rfl, -⟩ := Scan.covers_of_token scanned notEnd
      have length : (String.ofList (lexer.skipBlanks.rest.take chars.length)).length =
          chars.length := by
        simp [whole]
      refine ⟨gap, lexer.skipBlanks.rest, split, blank, ?_, ?_, ?_, position, ?_⟩
      · rw [length]
        exact scanned
      · rw [length]
      · rw [length]
        rfl
      · rw [Token.stop, length]
        rfl
  · simp at read

/-! ### Several calls -/

/-- Whether a lexer yields tokens of the same shapes as the given ones, up to a lexer with
some property. -/
def YieldsShapes (lexer : Lexer) (tokens : List Token) (ends : Lexer → Prop) : Prop :=
  ∃ found last, lexer.Yields found last ∧ ends last ∧
    found.map Token.shape = tokens.map Token.shape

theorem YieldsShapes.cons {ends : Lexer → Prop} (split : lexer.rest = gap ++ text)
    (blank : Blanks gap) (scanned : Scan.token text = .ok (token.kind, token.raw.length))
    (raw : token.raw = String.ofList (text.take token.raw.length))
    (notEnd : token.kind ≠ .endOfInput)
    (later : ∀ position, YieldsShapes ⟨text.drop token.raw.length, position⟩ tokens ends) :
    lexer.YieldsShapes (token :: tokens) ends := by
  have read := next_of_token split blank scanned
  rw [← raw] at read
  obtain ⟨found, last, yields, ended, shapes⟩ := later _
  refine ⟨_ :: found, last, .token read notEnd yields, ended, ?_⟩
  rw [List.map_cons, List.map_cons, shapes]
  rfl

/-- Where a lexer stands does not matter for the tokens that it yields. -/
theorem Yields.move (yields : lexer.Yields tokens last) (same : other.rest = lexer.rest) :
    other.YieldsShapes tokens fun otherLast => otherLast.rest = last.rest := by
  induction yields generalizing other with
  | none lexer => exact ⟨[], other, .none other, same, rfl⟩
  | token read notEnd _ ih =>
      obtain ⟨gap, text, split, blank, scanned, raw, rest, -, -⟩ :=
        exists_token_of_next read notEnd
      exact .cons (same.trans split) blank scanned raw notEnd fun _ => ih rest.symm

/-- Blanks where no token goes on do not matter for the tokens that a lexer yields. -/
theorem Yields.insert {first : Char} (yields : lexer.Yields tokens last)
    (blankLast : Blanks last.rest) (split : lexer.rest = before ++ after)
    (between : ∀ token ∈ tokens, token.stop ≤ lexer.position + before.length ∨
      lexer.position + before.length ≤ token.offset)
    (blank : Blanks (first :: blanks))
    (otherSplit : other.rest = before ++ first :: (blanks ++ after)) :
    other.YieldsShapes tokens fun otherLast => Blanks otherLast.rest := by
  induction yields generalizing other before with
  | none lexer =>
      rw [split] at blankLast
      have blankBefore : Blanks before := fun one member =>
        blankLast one (List.mem_append_left after member)
      have blankAfter : Blanks after := fun one member =>
        blankLast one (List.mem_append_right before member)
      refine ⟨[], other, .none other, ?_, rfl⟩
      dsimp only
      rw [otherSplit]
      exact blankBefore.append (blank.append blankAfter)
  | @token lexer middle last token tokens read notEnd later ih =>
      obtain ⟨gap, text, whole, blankGap, scanned, raw, rest, offset, position⟩ :=
        exists_token_of_next read notEnd
      have same : gap ++ text = before ++ after := whole.symm.trans split
      obtain ⟨here, others⟩ := List.forall_mem_cons.mp between
      rcases here with past | ahead
      · -- The token ends before the blanks, so they are put somewhere behind it.
        have room : gap.length + token.raw.length ≤ before.length := by
          unfold Token.stop at past
          omega
        obtain ⟨inside, rfl⟩ : gap <+: before :=
          List.prefix_of_prefix_length_le (same ▸ List.prefix_append gap text)
            (List.prefix_append before after) (by omega)
        rw [List.append_assoc, List.append_cancel_left_eq] at same
        subst same
        have fits : token.raw.length ≤ inside.length := by
          rw [List.length_append] at room
          omega
        have isBlank := blank first List.mem_cons_self
        have scannedAgain := Scan.token_insert_blank isBlank scanned notEnd fits (blanks ++ after)
        rw [List.append_assoc] at otherSplit
        rw [List.take_append_of_le_length fits] at raw
        rw [List.drop_append_of_le_length fits] at rest
        refine .cons otherSplit blankGap scannedAgain ?_ notEnd fun place => ?_
        · rwa [List.take_append_of_le_length fits]
        · refine ih blankLast rest ?_ (List.drop_append_of_le_length fits)
          have place : middle.position + (inside.drop token.raw.length).length =
              lexer.position + (gap ++ inside).length := by
            rw [position, Token.stop, offset, List.length_drop, List.length_append]
            omega
          rwa [place]
      · -- The blanks are put before the token, so it and all others only move.
        obtain ⟨more, rfl⟩ : before <+: gap :=
          List.prefix_of_prefix_length_le (same ▸ List.prefix_append before after)
            (List.prefix_append gap text) (by omega)
        rw [List.append_assoc, List.append_cancel_left_eq] at same
        subst same
        have otherGap : other.rest = (before ++ first :: (blanks ++ more)) ++ text := by
          simp [otherSplit]
        have blankOther : Blanks (before ++ first :: (blanks ++ more)) := by
          have blankBefore : Blanks before := fun one member =>
            blankGap one (List.mem_append_left more member)
          have blankMore : Blanks more := fun one member =>
            blankGap one (List.mem_append_right before member)
          exact blankBefore.append (blank.append blankMore)
        refine .cons otherGap blankOther scanned raw notEnd fun place => ?_
        have moved : YieldsShapes ⟨text.drop token.raw.length, place⟩ tokens _ :=
          later.move rest.symm
        obtain ⟨found, otherLast, yields, lastRest, shapes⟩ := moved
        have blankOtherLast : Blanks otherLast.rest := lastRest.symm ▸ blankLast
        exact ⟨found, otherLast, yields, blankOtherLast, shapes⟩

end Lexer

/-! ### Whole texts -/

/-- The last token of a text marks its end and has no text. -/
theorem shape_of_final {text : String} {tokens : List Token} {final : Token}
    (lexed : tokenize text = .ok (tokens ++ [final])) : final.shape = (.endOfInput, "") := by
  obtain ⟨cursor, after, located, passed, rfl, ended⟩ := (tokenize_eq_ok_iff 0).mp lexed
  have stands : cursor.StandsAt (Lexer.ofText text) := (Cursor.ofText_eq_ok_iff.mp located).1
  obtain ⟨last, -, standsLast⟩ := passed.yields stands
  obtain ⟨middle, read⟩ := standsLast.next
  rw [Lexer.next_of_blanks (Lexer.blanks_of_next_end read ended)] at read
  rw [← Except.ok.inj (Prod.mk.inj read).1]
  rfl

/-- Blanks that are put where no token of a text goes on leave the kinds and the texts of
its tokens as they are. -/
theorem tokenize_insert {before after blanks : String} {tokens : List Token}
    (lexed : tokenize (before ++ after) = .ok tokens) (blank : Blanks blanks.toList)
    (between : ∀ token ∈ tokens, token.stop ≤ before.length ∨ before.length ≤ token.offset) :
    ∃ others, tokenize (before ++ blanks ++ after) = .ok others ∧
      others.map Token.shape = tokens.map Token.shape := by
  obtain ⟨body, final, rfl⟩ := exists_of_tokenize lexed
  obtain ⟨last, yields, blankLast⟩ := exists_tokenize_iff.mp ⟨final, lexed⟩
  cases put : blanks.toList with
  | nil =>
      obtain rfl : blanks = "" := String.toList_inj.mp put
      exact ⟨_, by simpa using lexed, rfl⟩
  | cons first more =>
      rw [put] at blank
      have within : ∀ token ∈ body, token.stop ≤ (Lexer.ofText (before ++ after)).position +
          before.toList.length ∨ (Lexer.ofText (before ++ after)).position +
            before.toList.length ≤ token.offset := by
        intro token member
        simpa [Lexer.ofText, String.length_toList] using
          between token (List.mem_append_left _ member)
      have split : (Lexer.ofText (before ++ after)).rest = before.toList ++ after.toList := by
        simp [Lexer.ofText]
      have otherSplit : (Lexer.ofText (before ++ blanks ++ after)).rest =
          before.toList ++ first :: (more ++ after.toList) := by
        simp [Lexer.ofText, put]
      obtain ⟨others, otherLast, otherYields, blankOther, shapes⟩ :=
        yields.insert blankLast split within blank otherSplit
      obtain ⟨otherFinal, otherLexed⟩ :=
        exists_tokenize_iff.mpr ⟨otherLast, otherYields, blankOther⟩
      refine ⟨_, otherLexed, ?_⟩
      rw [List.map_append, List.map_append, shapes, List.map_singleton, List.map_singleton,
        shape_of_final lexed, shape_of_final otherLexed]

end TemplatedJson
