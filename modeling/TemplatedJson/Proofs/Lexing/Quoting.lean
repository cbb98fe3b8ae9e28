import TemplatedJson.Proofs.Lexing.Longest
import TemplatedJson.Proofs.Lexing.Moved

/-!
# Strings in every style of quotes

Every string can be written between quotes of every style: the quote itself and the backslash
get a backslash before them, and double quotes need escapes for the control characters too.
The lexer reads the same string back.  In the middle of a text, a token may be exchanged for a
string, and all other tokens stay as they are.
-/

namespace TemplatedJson

namespace Quote

variable {quote : Quote} {value : Char}

/-- How a character is written between quotes of a style. -/
def mark (quote : Quote) (character : Char) : List Char :=
  if character = '\\' || character = quote.character then ['\\', character]
  else if quote = double && character < ' ' then Unicode.escape character
  else [character]

/-- A text between quotes of a style. -/
def enclose (quote : Quote) (content : String) : String :=
  String.ofList (quote.character :: (content.toList.flatMap quote.mark ++ [quote.character]))

theorem spells_mark (quote : Quote) (value : Char) : quote.Spells (quote.mark value) value := by
  unfold mark
  split
  · next marked =>
      simp only [Bool.or_eq_true, decide_eq_true_eq] at marked
      rcases marked with rfl | rfl
      · exact .short (by decide) (by cases quote <;> rfl)
      · exact .short (by cases quote <;> decide) (by cases quote <;> rfl)
  next unmarked =>
  simp only [Bool.or_eq_true, decide_eq_true_eq, not_or] at unmarked
  split
  · next control =>
      simp only [Bool.and_eq_true, decide_eq_true_eq] at control
      have low : value.toNat < ' '.toNat := UInt32.lt_iff_toNat_lt.mp control.2
      have small : value.toNat < 0x10000 := Nat.lt_trans low (by decide)
      exact .unit (codeUnit_hexDigitAt small)
  · next printable =>
      refine .plain unmarked.2 unmarked.1 fun isDouble => ?_
      simpa [isDouble] using printable

/-- What a text is written as between quotes is a string with that content. -/
theorem written_enclose (quote : Quote) (content : String) :
    Scan.Written (.string content quote) (quote.enclose content).toList := by
  have spells := SpellsAll.flatMap quote.spells_mark content.toList
  have written := Scan.Written.string spells
  rwa [String.ofList_toList, ← String.toList_ofList (l := quote.character :: _)] at written

end Quote

/-- What printing writes for a text is a string with that content. -/
theorem Quoted.written_quote (content : String) :
    Scan.Written (.string content .double) (quote content).toList := by
  have written := Scan.Written.string (spellsAll_escape content.toList)
  rw [String.ofList_toList] at written
  simpa [quote, escape, Quote.character] using written

/-! ### A token that is exchanged for a string -/

variable {text : String} {lexer last : Lexer} {token : Token} {tokens front back : List Token}
  {before : List Char}

theorem Lexer.Yields.position_eq (yields : lexer.Yields tokens last)
    (split : lexer.rest = before ++ last.rest) :
    last.position = lexer.position + before.length := by
  have extent := yields.extent
  rw [split, List.length_append] at extent
  omega

/-- Where a lexer yields a token it yields any string that stands there instead.  The tokens
before it stay as they are, and those behind it are only moved. -/
theorem Lexer.Yields.exchange (yields : lexer.Yields (front ++ token :: back) last) :
    ∃ before after, lexer.rest = before ++ (token.raw.toList ++ after) ∧
      token.offset = lexer.position + before.length ∧
      ∀ content quote chars, Scan.Written (.string content quote) chars →
        ∃ others otherLast, Yields ⟨before ++ (chars ++ after), lexer.position⟩
            (front ++ ⟨.string content quote, String.ofList chars, token.offset⟩ :: others)
              otherLast ∧
          otherLast.rest = last.rest ∧ others.map Token.shape = back.map Token.shape := by
  obtain ⟨middle, yieldsFront, yieldsToken⟩ := yields.exists_of_append
  obtain ⟨told, whole, -⟩ := yieldsFront.cut (Scan.foreign_character .double) []
  cases yieldsToken with
  | @token _ next _ _ _ read notEnd yieldsBack =>
      obtain ⟨blanks, split, blank, -, offset, -⟩ := Lexer.exists_of_next read notEnd
      refine ⟨told ++ blanks, next.rest, ?_, ?_, fun content quote chars written => ?_⟩
      · rw [whole, split, List.append_assoc]
      · rw [offset, yieldsFront.position_eq whole, List.length_append, Nat.add_assoc]
      · obtain ⟨start, wholeAgain, yieldsString⟩ :=
          yieldsFront.string_behind blank written next.rest
        obtain rfl : told = start := List.append_cancel_right (whole.symm.trans wholeAgain)
        have moved : YieldsShapes ⟨next.rest, middle.position + blanks.length + chars.length⟩
            back _ := yieldsBack.move rfl
        obtain ⟨others, otherLast, yieldsOthers, otherRest, shapes⟩ := moved
        have yieldsAll := yieldsString.append yieldsOthers
        rw [List.append_assoc, List.singleton_append, ← offset] at yieldsAll
        rw [List.append_assoc]
        exact ⟨others, otherLast, yieldsAll, otherRest, shapes⟩

/-- A token may be exchanged for a string.  All other tokens of the text stay as they are, up
to how far those behind the string are moved. -/
theorem tokenize_exchange (lexed : tokenize text = .ok tokens) (member : token ∈ tokens)
    (notEnd : token.kind ≠ .endOfInput) :
    ∃ before after front back, text = before ++ token.raw ++ after ∧
      before.length = token.offset ∧ tokens = front ++ token :: back ∧
      ∀ content quote raw, Scan.Written (.string content quote) raw.toList →
        ∃ others, tokenize (before ++ raw ++ after) =
            .ok (front ++ ⟨.string content quote, raw, token.offset⟩ :: others) ∧
          others.map Token.shape = back.map Token.shape := by
  obtain ⟨body, final, rfl⟩ := exists_of_tokenize lexed
  have notFinal : token ∉ [final] := by
    intro same
    have ended := congrArg Prod.fst (shape_of_final lexed)
    rw [← List.eq_of_mem_singleton same] at ended
    exact notEnd ended
  obtain ⟨front, back, rfl⟩ :=
    List.append_of_mem ((List.mem_append.mp member).resolve_right notFinal)
  obtain ⟨last, yields, blank⟩ := exists_tokenize_iff.mp ⟨final, lexed⟩
  obtain ⟨before, after, split, offset, exchanged⟩ := yields.exchange
  have place : before.length = token.offset := by simp [offset, Lexer.ofText]
  refine ⟨String.ofList before, String.ofList after, front, back ++ [final], ?_,
    by simpa using place, by simp, fun content quote raw written => ?_⟩
  · apply String.toList_inj.mp
    simpa [Lexer.ofText] using split
  · obtain ⟨others, otherLast, yieldsOther, rest, shapes⟩ := exchanged _ _ _ written
    have start : Lexer.ofText (String.ofList before ++ raw ++ String.ofList after) =
        ⟨before ++ (raw.toList ++ after), 0⟩ := by
      simp [Lexer.ofText]
    rw [String.ofList_toList] at yieldsOther
    obtain ⟨otherFinal, relexed⟩ :=
      exists_tokenize_iff.mpr ⟨otherLast, start ▸ yieldsOther, rest ▸ blank⟩
    refine ⟨others ++ [otherFinal], by simpa using relexed, ?_⟩
    rw [List.map_append, List.map_append, shapes, List.map_singleton, List.map_singleton,
      shape_of_final lexed, shape_of_final relexed]

end TemplatedJson
