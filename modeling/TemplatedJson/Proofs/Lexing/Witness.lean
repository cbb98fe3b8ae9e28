import TemplatedJson.Proofs.Lexing.Answers

/-!
# What an error says about the text

An error names a place, and its cause says what is wrong there.  Whether that is true
can be seen in the text alone: the character is there, no quote closes the string that
begins there, the sequence stands behind the backslash there, or the number is written
there.  Every fault that the lexer finds is true in this sense.
-/

namespace TemplatedJson

/-! ### Quotes that close a string -/

/-- Whether a quote that no backslash escapes is among some characters.  The first of
them may be escaped itself. -/
def Quote.closes (quote : Quote) : (escaped : Bool) → List Char → Bool
  | _, [] => false
  | true, _ :: rest => quote.closes false rest
  | false, first :: rest =>
      if first = '\\' then quote.closes true rest
      else first = quote.character || quote.closes false rest

namespace Quote

variable {quote : Quote}

theorem closes_cons_of_ne {first : Char} (notBackslash : first ≠ '\\')
    (notQuote : first ≠ quote.character) (rest : List Char) :
    quote.closes false (first :: rest) = quote.closes false rest := by
  simp [closes, notBackslash, notQuote]

theorem closes_backslash_cons (mark : Char) (rest : List Char) :
    quote.closes false ('\\' :: mark :: rest) = quote.closes false rest := by
  simp [closes]

/-- Hexadecimal digits neither close a string nor escape anything. -/
theorem closes_codeUnit {digits : List Char} {unit : Nat} (denotes : CodeUnit digits unit)
    (rest : List Char) : quote.closes false (digits ++ rest) = quote.closes false rest := by
  have plain : ∀ {digit : Char} {value : Nat}, hexDigit? digit = some value →
      digit ≠ '\\' ∧ digit ≠ quote.character := by
    intro digit value known
    constructor
    · rintro rfl
      cases known
    · rintro rfl
      cases quote <;> cases known
  obtain ⟨values, denote, -, -⟩ := denotes
  induction values generalizing digits with
  | nil =>
      obtain rfl : digits = [] := by simpa using denote
      rfl
  | cons value values ih =>
      obtain ⟨digit, others, rfl, known, later⟩ := List.map_eq_cons_iff.mp denote
      obtain ⟨notBackslash, notQuote⟩ := plain known
      rw [List.cons_append, closes_cons_of_ne notBackslash notQuote, ih later]

/-- No spelling of a character closes the string. -/
theorem closes_of_spells {chars : List Char} {value : Char} (spells : quote.Spells chars value)
    (rest : List Char) : quote.closes false (chars ++ rest) = quote.closes false rest := by
  cases spells with
  | plain notQuote notBackslash _ => exact closes_cons_of_ne notBackslash notQuote rest
  | short _ _ => exact closes_backslash_cons _ rest
  | unit denotes =>
      simp only [List.cons_append]
      rw [closes_backslash_cons, closes_codeUnit denotes]
  | pair denotes secondDenotes _ =>
      simp only [List.cons_append, List.append_assoc]
      rw [closes_backslash_cons, closes_codeUnit denotes, closes_backslash_cons,
        closes_codeUnit secondDenotes]

/-- Characters that are no quotes close no string. -/
theorem closes_append_of_ne {rest : List Char}
    (noQuote : ∀ character ∈ rest, character ≠ quote.character) {escaped : Bool}
    {chars : List Char} (unclosed : quote.closes escaped chars = false) :
    quote.closes escaped (chars ++ rest) = false := by
  induction chars generalizing escaped with
  | nil =>
      rw [List.nil_append]
      clear unclosed
      induction rest generalizing escaped with
      | nil => rfl
      | cons first rest ih =>
          obtain ⟨notQuote, others⟩ := List.forall_mem_cons.mp noQuote
          cases escaped <;> simp [closes, notQuote, ih others]
  | cons first chars ih =>
      cases escaped with
      | true => exact ih unclosed
      | false =>
          rw [List.cons_append]
          unfold closes at unclosed ⊢
          split at unclosed
          · next backslash => rw [if_pos backslash, ih unclosed]
          · next notBackslash =>
              rw [Bool.or_eq_false_iff] at unclosed
              rw [if_neg notBackslash, unclosed.1, ih unclosed.2]
              rfl

end Quote

/-! ### True errors -/

/-- Whether an error is true of a text.  `begins` tells where the tokens of the text
begin, its end included. -/
def ParseError.TrueIn (text : List Char) (begins : Nat → Prop) (error : ParseError) : Prop :=
  match error.cause with
  | .unexpectedCharacter character => text[error.offset]? = some character
  | .unterminatedString => ∃ quote : Quote, text[error.offset]? = some quote.character ∧
      quote.closes false (text.drop (error.offset + 1)) = false
  | .invalidEscape sequence => text[error.offset]? = some '\\' ∧
      sequence.toList <+: text.drop (error.offset + 1)
  | .invalidNumber raw => raw.toList <+: text.drop error.offset
  | .unexpectedToken _ _ => begins error.offset
  | .tooDeeplyNested _ => begins error.offset

namespace ParseError.TrueIn

variable {cause : ParseError.Cause} {offset : Nat} {before text rest : List Char}
  {begins : Nat → Prop}

/-- An error stays true of a longer text, as far as it concerns the spelling of a token,
if what follows the text closes no string. -/
theorem widen (error : TrueIn text begins ⟨cause, offset⟩) (inside : offset ≤ text.length)
    (noQuote : ∀ quote : Quote, ∀ character ∈ rest, character ≠ quote.character) :
    TrueIn (before ++ (text ++ rest))
      (fun place => ∃ inner, place = before.length + inner ∧ begins inner) ⟨cause, before.length + offset⟩ := by
  have character : ∀ {value : Char}, text[offset]? = some value →
      (before ++ (text ++ rest))[before.length + offset]? = some value := by
    intro value known
    rw [List.getElem?_append_right (Nat.le_add_right _ _), Nat.add_sub_cancel_left,
      List.getElem?_append_left (List.getElem?_eq_some_iff.mp known).1, known]
  have dropped : ∀ {count : Nat}, count ≤ text.length →
      (before ++ (text ++ rest)).drop (before.length + count) = text.drop count ++ rest := by
    intro count few
    rw [List.drop_append, List.drop_eq_nil_of_le (Nat.le_add_right _ _), List.nil_append,
      Nat.add_sub_cancel_left, List.drop_append_of_le_length few]
  cases cause with
  | unexpectedCharacter value => exact character error
  | unterminatedString =>
      obtain ⟨quote, opens, unclosed⟩ := error
      have more := (List.getElem?_eq_some_iff.mp opens).1
      refine ⟨quote, character opens, ?_⟩
      rw [Nat.add_assoc, dropped more]
      exact Quote.closes_append_of_ne (noQuote quote) unclosed
  | invalidEscape sequence =>
      obtain ⟨backslash, follows⟩ := error
      have more := (List.getElem?_eq_some_iff.mp backslash).1
      refine ⟨character backslash, ?_⟩
      rw [Nat.add_assoc, dropped more]
      exact follows.trans (List.prefix_append _ _)
  | invalidNumber raw =>
      unfold TrueIn at error ⊢
      dsimp only at error ⊢
      rw [dropped inside]
      exact error.trans (List.prefix_append _ _)
  | unexpectedToken expected found => exact ⟨offset, rfl, error⟩
  | tooDeeplyNested limit => exact ⟨offset, rfl, error⟩

/-- Where tokens begin only matters for errors that concern no spelling. -/
theorem of_isLexical {others : Nat → Prop} (error : TrueIn text begins ⟨cause, offset⟩)
    (lexical : cause.isLexical) : TrueIn text others ⟨cause, offset⟩ := by
  cases cause with
  | unexpectedToken expected found => cases lexical
  | tooDeeplyNested limit => cases lexical
  | unexpectedCharacter _ | unterminatedString | invalidEscape _ | invalidNumber _ => exact error

end ParseError.TrueIn

/-! ### Faults of the lexer -/

/-- What is true of the rest of a string that ends there in some way. -/
def Ending.TrueOf (quote : Quote) (rest : List Char) : Ending → Prop
  | .closed => True
  | .control character => rest[0]? = some character
  | .badEscape sequence _ => rest[0]? = some '\\' ∧ sequence <+: rest.drop 1
  | .unterminated => quote.closes false rest = false

namespace Quote

variable {quote : Quote} {input : List Char} {ending : Ending}

/-- Reading the inside of a string passes spelled characters up to what ends it. -/
theorem exists_of_content_ending {content : List (Char × Nat)}
    (read : quote.content input = (content, ending)) :
    ∃ chars rest values, input = chars ++ rest ∧ chars.length = contentWidth content ∧
      quote.SpellsAll chars values ∧ quote.spelling rest = .ending ending := by
  induction content generalizing input with
  | nil =>
      cases step : quote.spelling input with
      | character value width => simp [content_of_character step] at read
      | ending found =>
          simp only [content_of_ending step, Prod.mk.injEq, true_and] at read
          subst read
          exact ⟨[], input, [], rfl, rfl, .nil, step⟩
  | cons first content ih =>
      cases step : quote.spelling input with
      | ending found => simp [content_of_ending step] at read
      | character value width =>
          simp only [content_of_character step, Prod.mk.injEq, List.cons.injEq] at read
          obtain ⟨⟨rfl, inside⟩, ended⟩ := read
          obtain ⟨told, others, rfl, rfl, spells⟩ := exists_of_spelling step
          rw [List.drop_left] at inside ended
          obtain ⟨chars, rest, values, rfl, width, spellsAll, stops⟩ := ih (Prod.ext inside ended)
          refine ⟨told ++ chars, rest, value :: values, by simp, ?_, .cons spells spellsAll, stops⟩
          simp [contentWidth, width]

theorem closes_of_spellsAll {chars values : List Char} (spells : quote.SpellsAll chars values)
    (rest : List Char) : quote.closes false (chars ++ rest) = quote.closes false rest := by
  induction spells with
  | nil => rfl
  | cons first _ ih => rw [List.append_assoc, closes_of_spells first, ih]

theorem trueOf_of_spelling (read : quote.spelling input = .ending ending) :
    ending.TrueOf quote input := by
  unfold spelling at read
  split at read
  · obtain rfl := Spelling.ending.inj read
    rfl
  · obtain rfl := Spelling.ending.inj read
    rfl
  · next rest =>
      split at read
      · cases read
      · obtain rfl := Spelling.ending.inj read
        exact ⟨rfl, List.cons_prefix_cons.mpr ⟨rfl, List.take_prefix _ _⟩⟩
  · next mark rest _ =>
      split at read
      · cases read
      · obtain rfl := Spelling.ending.inj read
        exact ⟨rfl, List.cons_prefix_cons.mpr ⟨rfl, List.nil_prefix⟩⟩
  · split at read
    · obtain rfl := Spelling.ending.inj read
      trivial
    · split at read
      · obtain rfl := Spelling.ending.inj read
        rfl
      · cases read

end Quote

namespace Scan

variable {input : List Char} {fault : Fault}

theorem trueIn_of_string {quote : Quote} {inside : List Char}
    (failed : string quote inside = .error fault) (begins : Nat → Prop) :
    ParseError.TrueIn (quote.character :: inside) begins ⟨fault.cause, fault.place⟩ := by
  rcases read : quote.content inside with ⟨content, ending⟩
  obtain ⟨chars, rest, values, rfl, width, spells, stops⟩ := Quote.exists_of_content_ending read
  have stopsTrue := Quote.trueOf_of_spelling stops
  have here : ∀ {cause : ParseError.Cause}, cause.isLexical →
      ParseError.TrueIn rest begins ⟨cause, 0⟩ →
        ParseError.TrueIn (quote.character :: (chars ++ rest)) begins
          ⟨cause, Quote.contentWidth content + 1⟩ := by
    intro cause lexical error
    have whole := @ParseError.TrueIn.widen _ _ (quote.character :: chars) rest [] begins error
      (Nat.zero_le _) (by simp)
    rw [List.append_nil, Nat.add_zero, List.length_cons, width] at whole
    exact whole.of_isLexical lexical
  unfold string at failed
  rw [read] at failed
  cases ending with
  | closed => cases failed
  | control character =>
      obtain rfl := Except.error.inj failed
      exact here rfl stopsTrue
  | badEscape sequence passed =>
      obtain rfl := Except.error.inj failed
      refine here rfl ⟨stopsTrue.1, ?_⟩
      rw [String.toList_ofList]
      exact stopsTrue.2
  | unterminated =>
      obtain rfl := Except.error.inj failed
      exact ⟨quote, rfl, (Quote.closes_of_spellsAll spells rest).trans stopsTrue⟩

/-- A fault is true of the text that was scanned. -/
theorem trueIn_of_token (failed : token input = .error fault) (begins : Nat → Prop) :
    ParseError.TrueIn input begins ⟨fault.cause, fault.place⟩ := by
  unfold token at failed
  split at failed
  · cases failed
  split at failed
  · next quote opens =>
      obtain rfl := eq_character_of_ofCharacter? opens
      exact trueIn_of_string failed begins
  · repeat' split at failed
    all_goals cases failed
    rfl

end Scan

namespace Lexer

/-- Every error that a lexer answers with is true of the text, and it lies in it. -/
theorem StandsIn.trueIn_of_next {lexer : Lexer} {text : List Char} (stands : lexer.StandsIn text)
    {error : ParseError} (failed : lexer.next.1 = .error error) (begins : Nat → Prop) :
    error.offset ≤ text.length ∧ error.TrueIn text begins := by
  have inText := stands.next.1
  rw [failed] at inText
  refine ⟨inText.2, ?_⟩
  obtain ⟨before, rfl, position⟩ := stands.skipBlanks
  unfold Lexer.next scan at failed
  split at failed
  · cases failed
  · next fault scanned =>
      obtain rfl := Except.error.inj failed
      have within := Scan.fault_within_of_token scanned
      have whole := @ParseError.TrueIn.widen _ _ before _ [] begins
        (Scan.trueIn_of_token scanned begins) within.place (by simp)
      rw [List.append_nil, position] at whole
      exact whole.of_isLexical within.lexical

end Lexer

end TemplatedJson
