import TemplatedJson.Proofs.Lexing.Witness

/-!
# Slices of a text

A machine takes the text of a token and the sequence of a broken escape out of the text by
their positions.  Such a slice has no result if the positions are out of order or behind
the end of the text.  The positions of a lexer are never so, whatever it met before.
-/

namespace TemplatedJson

/-- The characters of a text from one position up to another. -/
def slice? (text : List Char) (start stop : Nat) : Option String :=
  if start ≤ stop ∧ stop ≤ text.length then some (String.ofList ((text.take stop).drop start))
  else none

theorem slice?_append (before chars rest : List Char) :
    slice? (before ++ (chars ++ rest)) before.length (before.length + chars.length) =
      some (String.ofList chars) := by
  have inside : before.length ≤ before.length + chars.length ∧
      before.length + chars.length ≤ (before ++ (chars ++ rest)).length := by
    rw [List.length_append, List.length_append]
    omega
  unfold slice?
  rw [if_pos inside, List.take_length_add_append, List.take_left, List.drop_left]

/-! ### Broken escapes -/

/-- A broken escape that was met in a text: where its backslash is, the sequence behind it,
and how far the lexer came.  Only a numeric escape is read up to its fault. -/
structure BreaksAt (text : List Char) (place passed : Nat) (sequence : List Char) : Prop where
  written : ∃ before after, text = before ++ '\\' :: (sequence ++ after) ∧ before.length = place
  begun : place + 1 ≤ passed
  numeric : sequence.head? = some 'u' → passed = place + 1 + sequence.length

theorem BreaksAt.append {text sequence : List Char} {place passed : Nat}
    (breaks : BreaksAt text place passed sequence) (before : List Char) :
    BreaksAt (before ++ text) (before.length + place) (before.length + passed) sequence := by
  obtain ⟨⟨between, after, rfl, rfl⟩, begun, numeric⟩ := breaks
  refine ⟨⟨before ++ between, after, by simp, by simp⟩, by omega, fun marked => ?_⟩
  have whole := numeric marked
  omega

/-- The slice behind the backslash of a numeric escape is what was read of it. -/
theorem BreaksAt.slice?_eq {text sequence : List Char} {place passed : Nat}
    (breaks : BreaksAt text place passed sequence) (marked : sequence.head? = some 'u') :
    slice? text (place + 1) passed = some (String.ofList sequence) := by
  have whole := breaks.numeric marked
  obtain ⟨before, after, rfl, rfl⟩ := breaks.written
  have slice := slice?_append (before ++ ['\\']) sequence after
  rw [List.append_assoc, List.singleton_append, List.length_append, List.length_singleton] at slice
  rw [whole, slice]

theorem Quote.breaksAt_of_spelling {quote : Quote} {rest sequence : List Char} {passed : Nat}
    (read : quote.spelling rest = .ending (.badEscape sequence passed)) :
    BreaksAt rest 0 passed sequence := by
  unfold spelling at read
  split at read
  · cases read
  · cases read
  · next digits =>
      split at read
      · cases read
      · next count failed =>
          obtain ⟨rfl, rfl⟩ := Ending.badEscape.inj (Spelling.ending.inj read)
          have inside := le_length_of_unicodeEscape failed
          have length : ('u' :: digits.take count).length = count + 1 := by
            rw [List.length_cons, List.length_take, Nat.min_eq_left inside]
          refine ⟨⟨[], digits.drop count, by simp, rfl⟩, by omega, fun _ => ?_⟩
          rw [length]
          omega
  · next mark others notUnicode =>
      split at read
      · cases read
      · obtain ⟨rfl, rfl⟩ := Ending.badEscape.inj (Spelling.ending.inj read)
        refine ⟨⟨[], others, rfl, rfl⟩, by omega, fun marked => ?_⟩
        obtain rfl := Option.some.inj marked
        exact absurd rfl notUnicode
  · split at read
    · cases read
    · split at read
      · cases read
      · cases read

theorem Scan.breaksAt_of_string {quote : Quote} {inside : List Char} {fault : Fault}
    {sequence : String} (failed : string quote inside = .error fault)
    (broken : fault.cause = .invalidEscape sequence) :
    BreaksAt (quote.character :: inside) fault.place fault.passed sequence.toList := by
  rcases read : quote.content inside with ⟨content, ending⟩
  obtain ⟨chars, rest, values, rfl, width, -, stops⟩ := Quote.exists_of_content_ending read
  unfold string at failed
  rw [read] at failed
  cases ending with
  | closed => cases failed
  | control character | unterminated =>
      obtain rfl := Except.error.inj failed
      cases broken
  | badEscape found passed =>
      obtain rfl := Except.error.inj failed
      obtain rfl := ParseError.Cause.invalidEscape.inj broken
      have breaks := (Quote.breaksAt_of_spelling stops).append (quote.character :: chars)
      rw [Nat.add_zero, List.length_cons, width] at breaks
      rwa [String.toList_ofList]

theorem Scan.breaksAt_of_token {input : List Char} {fault : Fault} {sequence : String}
    (failed : token input = .error fault) (broken : fault.cause = .invalidEscape sequence) :
    BreaksAt input fault.place fault.passed sequence.toList := by
  unfold token at failed
  split at failed
  · cases failed
  split at failed
  · next quote opens =>
      obtain rfl := eq_character_of_ofCharacter? opens
      exact breaksAt_of_string failed broken
  · repeat' split at failed
    all_goals cases failed
    cases broken

/-! ### The positions of a lexer -/

namespace Lexer

variable {lexer after : Lexer} {text : List Char}

theorem StandsIn.position_le (stands : lexer.StandsIn text) : lexer.position ≤ text.length := by
  obtain ⟨before, rfl, position⟩ := stands
  rw [List.length_append]
  omega

/-- Whether the slices that a call takes out of a text have results: the text of a token
and the sequence of a broken numeric escape. -/
def SlicesOf (text : List Char) (after : Lexer) : LexerAnswer → Prop
  | .ok token => slice? text token.offset after.position = some token.raw
  | .error ⟨.invalidEscape sequence, offset⟩ =>
      offset + 1 ≤ after.position ∧ (sequence.toList.head? = some 'u' →
        slice? text (offset + 1) after.position = some sequence)
  | .error _ => True

theorem position_of_next {token : Token} (read : lexer.next = (.ok token, after)) :
    after.position = token.stop := by
  by_cases ended : token.kind = .endOfInput
  · rw [next_of_blanks (blanks_of_next_end read ended)] at read
    obtain ⟨same, rfl⟩ := Prod.mk.inj read
    obtain rfl := Except.ok.inj same
    rfl
  · obtain ⟨_, -, -, -, -, position⟩ := exists_of_next read ended
    exact position

/-- The slices of a call have results, and the lexer stays in the text. -/
theorem StandsIn.slicesOf_next (stands : lexer.StandsIn text)
    {answer : LexerAnswer} (read : lexer.next = (answer, after)) :
    after.position ≤ text.length ∧ SlicesOf text after answer := by
  have next := stands.next
  rw [read] at next
  refine ⟨next.2.position_le, ?_⟩
  cases answer with
  | ok token =>
      obtain ⟨⟨before, rest, rfl, place⟩, -⟩ := next.1
      change slice? _ token.offset after.position = some token.raw
      rw [position_of_next read, Token.stop, ← place, ← String.length_toList, slice?_append,
        String.ofList_toList]
  | error error =>
      obtain ⟨cause, offset⟩ := error
      cases cause with
      | invalidEscape sequence =>
          obtain ⟨before, rfl, position⟩ := stands.skipBlanks
          unfold Lexer.next scan at read
          split at read
          · cases read
          · next fault scanned =>
              obtain ⟨same, rfl⟩ := Prod.mk.inj read
              obtain ⟨broken, rfl⟩ := ParseError.mk.inj (Except.error.inj same)
              have breaks := (Scan.breaksAt_of_token scanned broken).append before
              rw [position] at breaks
              refine ⟨breaks.begun, fun marked => ?_⟩
              rw [← String.ofList_toList (s := sequence)]
              exact breaks.slice?_eq marked
      | unexpectedCharacter _ | unterminatedString | invalidNumber _ | unexpectedToken _ _
        | tooDeeplyNested _ => trivial

end Lexer

end TemplatedJson
