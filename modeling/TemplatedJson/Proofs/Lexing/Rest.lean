import TemplatedJson.Proofs.Lexing.Slices
import TemplatedJson.Proofs.Reading.Order

/-!
# A lexer comes to rest

A lexer that is called again and again, whatever it answers, passes some character with
every call until it meets the end of the text or a character outside of strings that begins
no token.  From then on it repeats its answer.  Faults inside of strings do not stop it: it
has passed the opening quote at least.
-/

namespace TemplatedJson

/-! ### Faults -/

namespace Scan

variable {input : List Char} {fault : Fault}

/-- Outside of strings a fault concerns the first character, and nothing is passed. -/
theorem fault_outside_string (failed : token input = .error fault)
    (outside : ∀ quote : Quote, input.head? ≠ some quote.character) :
    ∃ first rest, input = first :: rest ∧ fault = ⟨.unexpectedCharacter first, 0, 0⟩ := by
  unfold token at failed
  split at failed
  · cases failed
  next first rest =>
    refine ⟨first, rest, rfl, ?_⟩
    split at failed
    · next quote opens =>
        have quoted := congrArg some (eq_character_of_ofCharacter? opens)
        exact absurd quoted (outside quote)
    · repeat' split at failed
      all_goals cases failed
      rfl

/-- A fault in a string lies behind the opening quote. -/
theorem passed_pos_of_string {quote : Quote} {inside : List Char}
    (failed : string quote inside = .error fault) : 0 < fault.passed := by
  unfold string at failed
  dsimp only at failed
  split at failed
  · cases failed
  all_goals
    obtain rfl := Except.error.inj failed
    dsimp only
    omega

theorem passed_pos_of_token {quote : Quote} {inside : List Char}
    (failed : token (quote.character :: inside) = .error fault) : 0 < fault.passed := by
  simp only [token, ofCharacter?_character] at failed
  exact passed_pos_of_string failed

end Scan

namespace Lexer

variable {lexer : Lexer} {text : List Char} {token : Token} {error : ParseError}

/-! ### One call -/

/-- Whether the next call begins to read a string. -/
def OpensString (lexer : Lexer) : Prop :=
  ∃ quote : Quote, lexer.skipBlanks.rest.head? = some quote.character

/-- Whether the next call meets the end of the text, or fails outside of strings. -/
def AtRest (lexer : Lexer) : Prop :=
  match lexer.next.1 with
  | .ok token => token.kind = .endOfInput
  | .error _ => ¬ lexer.OpensString

theorem atRest_of_end (read : lexer.next.1 = .ok token) (ended : token.kind = .endOfInput) :
    lexer.AtRest := by
  unfold AtRest
  rw [read]
  exact ended

theorem atRest_of_outside (failed : lexer.next.1 = .error error) (outside : ¬ lexer.OpensString) :
    lexer.AtRest := by
  unfold AtRest
  rw [failed]
  exact outside

/-- A call fails by the fault that is found behind the blanks. -/
theorem exists_fault_of_next (failed : lexer.next.1 = .error error) :
    ∃ fault, Scan.token lexer.skipBlanks.rest = .error fault ∧
      error = ⟨fault.cause, lexer.skipBlanks.position + fault.place⟩ ∧
      lexer.next.2 = lexer.skipBlanks.skip fault.passed := by
  unfold next scan at failed ⊢
  cases scanned : Scan.token lexer.skipBlanks.rest with
  | ok result =>
      rw [scanned] at failed
      cases failed
  | error fault =>
      rw [scanned] at failed
      exact ⟨fault, rfl, (Except.error.inj failed).symm, rfl⟩

/-- A call that fails outside of strings names the character where the lexer stays. -/
theorem next_outside (failed : lexer.next.1 = .error error) (outside : ¬ lexer.OpensString) :
    ∃ first, lexer.skipBlanks.rest.head? = some first ∧
      error = ⟨.unexpectedCharacter first, lexer.skipBlanks.position⟩ ∧
      lexer.next.2 = lexer.skipBlanks := by
  obtain ⟨fault, scanned, rfl, after⟩ := exists_fault_of_next failed
  obtain ⟨first, rest, split, rfl⟩ :=
    Scan.fault_outside_string scanned fun quote begins => outside ⟨quote, begins⟩
  exact ⟨first, by rw [split]; rfl, rfl, after⟩

/-- A call that fails in a string passes the opening quote at least. -/
theorem next_inString (failed : lexer.next.1 = .error error) (opens : lexer.OpensString) :
    lexer.skipBlanks.position < lexer.next.2.position := by
  obtain ⟨quote, begins⟩ := opens
  obtain ⟨inside, split⟩ := List.head?_eq_some_iff.mp begins
  obtain ⟨fault, scanned, -, after⟩ := exists_fault_of_next failed
  rw [split] at scanned
  rw [after]
  exact Nat.lt_add_of_pos_right (Scan.passed_pos_of_token scanned)

/-- A lexer is at rest when its next call passes nothing but blanks. -/
theorem atRest_iff (lexer : Lexer) :
    lexer.AtRest ↔ ¬ lexer.skipBlanks.position < lexer.next.2.position := by
  cases answer : lexer.next.1 with
  | ok token =>
      have moves : lexer.skipBlanks.position < lexer.next.2.position ↔ token.kind ≠ .endOfInput :=
        scan_moves_iff answer
      unfold AtRest
      rw [answer, moves, Decidable.not_not]
  | error error =>
      by_cases opens : lexer.OpensString
      · have moves := next_inString answer opens
        unfold AtRest
        rw [answer]
        exact ⟨fun outside => absurd opens outside, fun stays => absurd moves stays⟩
      · obtain ⟨-, -, -, stays⟩ := next_outside answer opens
        rw [stays]
        exact ⟨fun _ => Nat.lt_irrefl _, fun _ => atRest_of_outside answer opens⟩

/-- A call of a lexer that is not at rest passes some character. -/
theorem position_lt_next (moves : ¬ lexer.AtRest) : lexer.position < lexer.next.2.position := by
  have onward := Decidable.not_not.mp (mt lexer.atRest_iff.mpr moves)
  exact Nat.lt_of_le_of_lt (Nat.le_add_right _ _) onward

/-- A lexer at rest repeats its answer and stays at rest. -/
theorem AtRest.next (rests : lexer.AtRest) :
    lexer.next.2.next = lexer.next ∧ lexer.next.2.AtRest := by
  have stays := next_of_stays (lexer.atRest_iff.mp rests)
  have again : lexer.next.2.next = lexer.next := by
    rw [stays, Lexer.next, Lexer.next, skipBlanks_skipBlanks]
  refine ⟨again, (atRest_iff _).mpr ?_⟩
  rw [again, stays, skipBlanks_skipBlanks]
  exact Nat.lt_irrefl _

/-! ### Calls in a row -/

theorem AtRest.after {lexer : Lexer} (rests : lexer.AtRest) (calls : Nat) :
    (lexer.after calls).next.1 = lexer.next.1 := by
  induction calls generalizing lexer with
  | zero => rfl
  | succ calls ih =>
      obtain ⟨again, restsAgain⟩ := rests.next
      rw [Lexer.after, ih restsAgain, again]

/-- As long as a lexer is not at rest, it passes a character with every call. -/
theorem exists_atRest_or_le_position (lexer : Lexer) (calls : Nat) :
    (∃ earlier < calls, (lexer.after earlier).AtRest) ∨
      lexer.position + calls ≤ (lexer.after calls).position := by
  induction calls with
  | zero => exact .inr (Nat.le_refl _)
  | succ calls ih =>
      rcases ih with ⟨earlier, inside, rests⟩ | passed
      · exact .inl ⟨earlier, Nat.lt_succ_of_lt inside, rests⟩
      by_cases rests : (lexer.after calls).AtRest
      · exact .inl ⟨calls, Nat.lt_succ_self calls, rests⟩
      · have onward := position_lt_next rests
        rw [← (answers_succ calls lexer).2] at onward
        exact .inr (by omega)

/-- A lexer in a text is at rest after no more calls than the text has characters. -/
theorem StandsIn.exists_atRest (stands : lexer.StandsIn text) :
    ∃ calls ≤ text.length, (lexer.after calls).AtRest := by
  rcases lexer.exists_atRest_or_le_position (text.length + 1) with ⟨calls, inside, rests⟩ | passed
  · exact ⟨calls, Nat.le_of_lt_succ inside, rests⟩
  · have bound := (stands.after (text.length + 1)).position_le
    omega

/-! ### What a call does in a text -/

/-- What the next call of a lexer does in a text. -/
structure StepsIn (text : List Char) (lexer : Lexer) : Prop where
  onward : lexer.position ≤ lexer.next.2.position
  inside : lexer.next.2.position ≤ text.length
  /-- A token is written behind some blanks, and the lexer is left behind it. -/
  slice : ∀ token, lexer.next.1 = .ok token → ∃ before blanks after,
    text = before ++ (blanks ++ (token.raw.toList ++ after)) ∧
      before.length = lexer.position ∧ Blanks blanks ∧
      token.offset = lexer.position + blanks.length ∧ lexer.next.2.position = token.stop
  /-- The mark at the end of the text is repeated. -/
  ending : ∀ token, lexer.next.1 = .ok token → token.kind = .endOfInput →
    token.offset = text.length ∧ ∀ calls, (lexer.after calls).next.1 = .ok token
  /-- A failure outside of strings names the character there, and it is repeated. -/
  outside : ∀ error, lexer.next.1 = .error error → ¬ lexer.OpensString →
    (∃ character, error.cause = .unexpectedCharacter character ∧
      text[error.offset]? = some character ∧ lexer.next.2.position = error.offset) ∧
      ∀ calls, (lexer.after calls).next.1 = .error error
  /-- Every other call passes some character. -/
  advances : (∀ token, lexer.next.1 = .ok token → token.kind ≠ .endOfInput) →
    (∀ error, lexer.next.1 = .error error → lexer.OpensString) →
      lexer.position < lexer.next.2.position

/-- A call that answers with a token passes blanks and the text of the token. -/
theorem StandsIn.exists_slice (stands : lexer.StandsIn text) (read : lexer.next.1 = .ok token) :
    ∃ before blanks after, text = before ++ (blanks ++ (token.raw.toList ++ after)) ∧
      before.length = lexer.position ∧ Blanks blanks ∧
      token.offset = lexer.position + blanks.length ∧ lexer.next.2.position = token.stop := by
  obtain ⟨before, split, position⟩ := stands
  have stop := position_of_next (Prod.ext read rfl)
  by_cases ended : token.kind = .endOfInput
  · have blank := blanks_of_next_end (Prod.ext read rfl) ended
    rw [next_of_blanks blank] at read
    obtain rfl := Except.ok.inj read
    exact ⟨before, lexer.rest, [], by simpa using split, position, blank, rfl, stop⟩
  · obtain ⟨blanks, whole, blank, -, offset, -⟩ := exists_of_next (Prod.ext read rfl) ended
    exact ⟨before, blanks, _, by rw [split, ← whole], position, blank, offset, stop⟩

theorem StandsIn.stepsIn (stands : lexer.StandsIn text) : lexer.StepsIn text where
  onward := lexer.position_le_next
  inside := stands.next.2.position_le
  slice _ read := stands.exists_slice read
  ending token read ended := by
    refine ⟨?_, fun calls => ((atRest_of_end read ended).after calls).trans read⟩
    obtain ⟨before, split, position⟩ := stands
    rw [next_of_blanks (blanks_of_next_end (Prod.ext read rfl) ended)] at read
    obtain rfl := Except.ok.inj read
    rw [split, List.length_append, position]
  outside error failed outside := by
    refine ⟨?_, fun calls => ((atRest_of_outside failed outside).after calls).trans failed⟩
    obtain ⟨first, begins, rfl, stays⟩ := next_outside failed outside
    obtain ⟨before, split, position⟩ := stands.skipBlanks
    refine ⟨first, rfl, ?_, by rw [stays]⟩
    dsimp only
    rw [split, ← position, List.getElem?_append_right (Nat.le_refl _), Nat.sub_self,
      ← List.head?_eq_getElem?, begins]
  advances notEnd inString := by
    apply position_lt_next
    intro rests
    unfold AtRest at rests
    split at rests
    · next token read => exact notEnd token read rests
    · next error failed => exact rests (inString error failed)

end Lexer

/-- However often a lexer is called, and whatever it answers, it never goes back and never
leaves the text.  A token is a slice of the text behind blanks.  The end of the text and a
failure outside of strings are repeated by all later calls, and every other call passes some
character.  So at most as many answers as the text has characters come before the one that is
repeated for ever. -/
theorem lexer_comes_to_rest (text : String) :
    (∀ calls, ((Lexer.ofText text).after calls).StepsIn text.toList) ∧
    ∃ answer, ∀ more, ((Lexer.ofText text).after (text.length + more)).next.1 = answer ∧
      (Lexer.ofText text).answers (text.length + more) =
        (Lexer.ofText text).answers text.length ++ List.replicate more answer := by
  have stands := Lexer.standsIn_ofText text
  refine ⟨fun calls => (stands.after calls).stepsIn, ?_⟩
  obtain ⟨first, bound, rests⟩ := stands.exists_atRest
  rw [String.length_toList] at bound
  have repeated : ∀ more, ((Lexer.ofText text).after (text.length + more)).next.1 =
      ((Lexer.ofText text).after first).next.1 := by
    intro more
    obtain ⟨waiting, length⟩ := Nat.exists_eq_add_of_le bound
    rw [length, Nat.add_assoc, Lexer.after_add]
    exact rests.after (waiting + more)
  refine ⟨_, fun more => ⟨repeated more, ?_⟩⟩
  induction more with
  | zero => simp
  | succ more ih =>
      rw [← Nat.add_assoc, (Lexer.answers_succ _ _).1, ih, repeated more, List.append_assoc,
        ← List.replicate_succ']

/-- Reading goes on behind a broken escape, and it stops at a character that begins no token. -/
example : (Lexer.ofText "\"\\q ~").answers 4 =
    [.error ⟨.invalidEscape "q", 1⟩, .ok ⟨.identifier "q", "q", 2⟩,
      .error ⟨.unexpectedCharacter '~', 4⟩, .error ⟨.unexpectedCharacter '~', 4⟩] := by
  cbv

end TemplatedJson
