import TemplatedJson.Proofs.Lexing.Layout
import TemplatedJson.Proofs.Template.Place

/-!
# Places and the reader of strings

The index of a character in the content of a string is turned into a place in the text of
the string.  The reader of strings decodes what stands before this place to the characters
before that one, and it reads that character at the place.  So both agree on where the
spelling of each character begins, whatever escapes are mixed there.
-/

namespace TemplatedJson

theorem Quote.SpellsAll.append {quote : Quote} {told others values more : List Char}
    (spells : quote.SpellsAll told values) (spellsMore : quote.SpellsAll others more) :
    quote.SpellsAll (told ++ others) (values ++ more) := by
  induction spells with
  | nil => exact spellsMore
  | cons first _ ih =>
      rw [List.append_assoc]
      exact .cons first ih

namespace Template

/-- The text of a string in double quotes that is closed before a place of its inside. -/
def closedAt (raw : String) (place : Nat) : String :=
  String.ofList ('\x22' :: ((raw.toList.take place).drop 1 ++ ['\x22']))

/-- A string in double quotes is cut where the spelling of a character begins and where it
ends. -/
structure SpelledWithin (raw : String) (values : List Char) (told first others : List Char)
    (value : Char) : Prop where
  whole : raw.toList = '\x22' :: (told ++ (first ++ (others ++ ['\x22'])))
  spells_told : Quote.double.SpellsAll told values
  spells_first : Quote.double.Spells first value

section Spelling

variable {raw : String} {values told first others : List Char} {value : Char}

theorem SpelledWithin.rawIndex_eq (spelled : SpelledWithin raw values told first others value) :
    rawIndex raw values.length = 1 + told.length := by
  have quoted : raw.toList = '\x22' :: (told ++ ((first ++ others) ++ ['\x22'])) := by
    simp [spelled.whole]
  exact Template.rawIndex_eq quoted spelled.spells_told

/-- The next character is spelled right behind. -/
theorem SpelledWithin.rawIndex_succ (spelled : SpelledWithin raw values told first others value) :
    rawIndex raw (values.length + 1) = 1 + told.length + first.length := by
  have quoted : raw.toList = '\x22' :: ((told ++ first) ++ (others ++ ['\x22'])) := by
    simp [spelled.whole]
  have spells : Quote.double.SpellsAll (told ++ first) (values ++ [value]) := by
    simpa using spelled.spells_told.append (.cons spelled.spells_first .nil)
  simpa [Nat.add_assoc] using Template.rawIndex_eq quoted spells

theorem SpelledWithin.closedAt_eq (spelled : SpelledWithin raw values told first others value) :
    (closedAt raw (rawIndex raw values.length)).toList = '\x22' :: (told ++ ['\x22']) := by
  simp [closedAt, spelled.rawIndex_eq, spelled.whole, Nat.add_comm]

theorem SpelledWithin.spelling (spelled : SpelledWithin raw values told first others value) :
    Quote.double.spelling (raw.toList.drop (rawIndex raw values.length)) =
      .character value (rawIndex raw (values.length + 1) - rawIndex raw values.length) := by
  have width : rawIndex raw (values.length + 1) - rawIndex raw values.length = first.length := by
    rw [spelled.rawIndex_eq, spelled.rawIndex_succ]
    omega
  have dropped : raw.toList.drop (rawIndex raw values.length) = first ++ (others ++ ['\x22']) := by
    rw [spelled.rawIndex_eq, spelled.whole, Nat.add_comm, List.drop_succ_cons, List.drop_left]
  rw [width, dropped]
  exact spelled.spells_first.spelling _

end Spelling

section Token

variable {token : Token} {content : String} {index : Nat}

/-- The text of a string token is cut at each of its characters. -/
theorem exists_spelledWithin (lexical : token.Lexical) (kind : token.kind = .string content .double)
    (inside : index < content.length) :
    ∃ told first others value, content.toList[index]? = some value ∧
      SpelledWithin token.raw (content.toList.take index) told first others value := by
  have spelled := lexical.spelled
  rw [kind] at spelled
  obtain ⟨all, quoted, spells⟩ := spelled
  obtain ⟨told, untold, rfl, spellsTold, spellsUntold⟩ := exists_of_spellsAll spells index
  have bound : index < content.toList.length := by rwa [String.length_toList]
  rw [List.drop_eq_getElem_cons bound] at spellsUntold
  cases spellsUntold with
  | @cons first others _ _ spellsFirst spellsOthers =>
      refine ⟨told, first, others, _, List.getElem?_eq_getElem bound, ?_, spellsTold, spellsFirst⟩
      rw [quoted]
      simp [Quote.character]

/-- The index behind the last character leads to the closing quote. -/
theorem rawIndex_length (lexical : token.Lexical) (kind : token.kind = .string content .double) :
    rawIndex token.raw content.length = token.raw.length - 1 ∧
      token.raw.toList[token.raw.length - 1]? = some '\x22' := by
  have spelled := lexical.spelled
  rw [kind] at spelled
  obtain ⟨all, quoted, spells⟩ := spelled
  have split : token.raw.toList = '\x22' :: (all ++ ([] ++ ['\x22'])) := quoted
  have leads := rawIndex_eq split spells
  have length := congrArg List.length quoted
  simp only [List.length_cons, List.length_append, List.length_nil,
    String.length_toList] at length leads
  have last : token.raw.length - 1 = ('\x22' :: all).length := by
    simp only [List.length_cons]
    omega
  refine ⟨by omega, ?_⟩
  rw [split, last, List.nil_append, ← List.cons_append, List.getElem?_concat_length]

/-- The text before a character decodes to the characters before it. -/
theorem tokenize_closedAt (lexical : token.Lexical) (kind : token.kind = .string content .double)
    (inside : index < content.length) :
    (tokenize (closedAt token.raw (rawIndex token.raw index))).map (List.map Token.shape) =
      .ok [(.string (String.ofList (content.toList.take index)) .double,
        closedAt token.raw (rawIndex token.raw index)), (.endOfInput, "")] := by
  obtain ⟨told, first, others, value, -, spelled⟩ := exists_spelledWithin lexical kind inside
  have counted : (content.toList.take index).length = index := by
    rw [List.length_take, String.length_toList]
    omega
  have closed := spelled.closedAt_eq
  rw [counted] at closed
  generalize closedAt token.raw (rawIndex token.raw index) = text at closed
  have written : Scan.Written (.string (String.ofList (content.toList.take index)) .double)
      text.toList := by
    rw [closed]
    exact .string spelled.spells_told
  obtain ⟨tokens, final, lexed, offset, rfl⟩ := (Lexes.written written).exists_tokenize trivial
  have ended := shape_of_final lexed
  rw [lexed]
  simpa [Except.map, Token.shape] using ended

/-- The reader of strings reads a character at the place of its spelling, up to the place of
the next one. -/
theorem exists_spelling (lexical : token.Lexical) (kind : token.kind = .string content .double)
    (inside : index < content.length) :
    ∃ value, content.toList[index]? = some value ∧
      Quote.double.spelling (token.raw.toList.drop (rawIndex token.raw index)) =
        .character value (rawIndex token.raw (index + 1) - rawIndex token.raw index) ∧
      rawIndex token.raw index < rawIndex token.raw (index + 1) := by
  obtain ⟨told, first, others, value, found, spelled⟩ := exists_spelledWithin lexical kind inside
  have counted : (content.toList.take index).length = index := by
    rw [List.length_take, String.length_toList]
    omega
  have reads := spelled.spelling
  rw [counted] at reads
  have positive := Quote.spelling_width_pos reads
  exact ⟨value, found, reads, by omega⟩

end Token

/-- The place of a character in a string token is where the reader of strings finds its
spelling.  What stands before the place decodes to the characters before that one, places
grow with the characters from behind the opening quote on, and behind the last character
stands the closing quote. -/
theorem rawIndex_agrees_with_lexer {lexer after : Lexer} {token : Token} {content : String}
    (read : lexer.next = (.ok token, after)) (kind : token.kind = .string content .double) :
    (∀ index < content.length,
      (tokenize (closedAt token.raw (rawIndex token.raw index))).map (List.map Token.shape) =
        .ok [(.string (String.ofList (content.toList.take index)) .double,
          closedAt token.raw (rawIndex token.raw index)), (.endOfInput, "")] ∧
      ∃ value, content.toList[index]? = some value ∧
        Quote.double.spelling (token.raw.toList.drop (rawIndex token.raw index)) =
          .character value (rawIndex token.raw (index + 1) - rawIndex token.raw index)) ∧
    rawIndex token.raw 0 = 1 ∧
    (∀ index later, index < later → later ≤ content.length →
      rawIndex token.raw index < rawIndex token.raw later) ∧
    (∀ index, content.length ≤ index → rawIndex token.raw index = token.raw.length - 1) ∧
    token.raw.toList[token.raw.length - 1]? = some '\x22' := by
  obtain ⟨-, -, -, lexical, -⟩ := Lexer.exists_of_next read (by simp [kind])
  obtain ⟨closing, quote⟩ := rawIndex_length lexical kind
  refine ⟨fun index inside => ⟨tokenize_closedAt lexical kind inside, ?_⟩, ?_, ?_, ?_, quote⟩
  · obtain ⟨value, found, reads, -⟩ := exists_spelling lexical kind inside
    exact ⟨value, found, reads⟩
  · have spelled := lexical.spelled
    rw [kind] at spelled
    obtain ⟨all, quoted, -⟩ := spelled
    have spellsNone : Quote.double.SpellsAll [] [] := .nil
    have quotedBehind : token.raw.toList = '\x22' :: ([] ++ (all ++ ['\x22'])) := quoted
    exact rawIndex_eq quotedBehind spellsNone
  · intro index later before inside
    obtain ⟨-, -, -, next⟩ := exists_spelling lexical kind (by omega : index < content.length)
    exact Nat.lt_of_lt_of_le next (rawIndex_mono token.raw before)
  · intro index behind
    have least := rawIndex_mono token.raw behind
    have most := rawIndex_le token.raw index
    omega

/-- A text with an escaped backslash before a letter, a numeric escape and a pair. -/
theorem rawIndex_agrees_with_lexer_pair :
    (Lexer.ofText "\"\\\\u00e9\\u0041\\ud83D\\uDe00\"").next.1 =
      .ok ⟨.string "\\u00e9A😀" .double, "\"\\\\u00e9\\u0041\\ud83D\\uDe00\"", 0⟩ ∧
    (tokenize (closedAt "\"\\\\u00e9\\u0041\\ud83D\\uDe00\""
        (rawIndex "\"\\\\u00e9\\u0041\\ud83D\\uDe00\"" 7))).map (List.map Token.shape) =
      .ok [(.string "\\u00e9A" .double, "\"\\\\u00e9\\u0041\""), (.endOfInput, "")] ∧
    rawIndex "\"\\\\u00e9\\u0041\\ud83D\\uDe00\"" 8 = 26 := by
  have found : (Lexer.ofText "\"\\\\u00e9\\u0041\\ud83D\\uDe00\"").next.1 =
      .ok ⟨.string "\\u00e9A😀" .double, "\"\\\\u00e9\\u0041\\ud83D\\uDe00\"", 0⟩ :=
    eq_ok_of_toOption (by decide +kernel)
  have place : rawIndex "\"\\\\u00e9\\u0041\\ud83D\\uDe00\"" 7 = 14 := by decide +kernel
  have closed : closedAt "\"\\\\u00e9\\u0041\\ud83D\\uDe00\"" 14 = "\"\\\\u00e9\\u0041\"" := by
    decide +kernel
  obtain ⟨decodes, -, -, closing, -⟩ :=
    rawIndex_agrees_with_lexer (Prod.ext found rfl) rfl
  have before := (decodes 7 (by decide +kernel)).1
  rw [place, closed] at before
  have content : String.ofList ("\\u00e9A😀".toList.take 7) = "\\u00e9A" := by decide +kernel
  rw [content] at before
  exact ⟨found, by rw [place, closed, before], closing 8 (by decide +kernel)⟩

end Template

end TemplatedJson
