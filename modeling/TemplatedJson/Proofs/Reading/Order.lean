import TemplatedJson.Proofs.Lexing.Answers
import TemplatedJson.Proofs.Reading.Congruence

/-!
# The order of answers

A lexer never goes back.  So what a cursor meets after its current token, be it
another token or an error, lies no earlier in the text than that token.
-/

namespace TemplatedJson

theorem Token.offset_le_of_stop_le (token : Token) {place : Nat} (behind : token.stop ≤ place) :
    token.offset ≤ place :=
  Nat.le_trans (Nat.le_add_right _ _) behind

namespace Lexer

variable {lexer middle : Lexer} {token : Token}

/-- A token lies behind the place from which it was asked for, and the lexer is left
behind the token. -/
theorem le_offset_of_next (read : lexer.next = (.ok token, middle)) :
    lexer.position ≤ token.offset ∧ token.stop ≤ middle.position := by
  obtain ⟨blanks, -, -, position⟩ := lexer.exists_blanks
  unfold next scan at read
  split at read
  · obtain ⟨same, rfl⟩ := Prod.mk.inj read
    obtain rfl := Except.ok.inj same
    refine ⟨by simp [position], ?_⟩
    simp only [Token.stop, skip, String.length_ofList, List.length_take]
    omega
  · simp at read

/-- An error concerns the spelling of a token, behind the place from which the token
was asked for. -/
theorem le_offset_of_next_error {error : ParseError} (failed : lexer.next.1 = .error error) :
    error.isLexical ∧ lexer.position ≤ error.offset := by
  obtain ⟨blanks, -, -, position⟩ := lexer.exists_blanks
  unfold next scan at failed
  split at failed
  · cases failed
  · next fault scanned =>
      obtain rfl := Except.error.inj failed
      refine ⟨(Scan.fault_within_of_token scanned).lexical, ?_⟩
      dsimp only
      omega

/-! ### Calls in a row -/

theorem position_le_next (lexer : Lexer) : lexer.position ≤ lexer.next.2.position := by
  obtain ⟨blanks, -, -, position⟩ := lexer.exists_blanks
  obtain ⟨count, scanned⟩ := lexer.skipBlanks.scan_eq_skip
  unfold next
  rw [scanned, skip, position]
  dsimp only
  omega

theorem position_le_after (calls : Nat) (lexer : Lexer) :
    lexer.position ≤ (lexer.after calls).position := by
  induction calls generalizing lexer with
  | zero => exact Nat.le_refl _
  | succ calls ih => exact Nat.le_trans lexer.position_le_next (ih lexer.next.2)

theorem after_add (first second : Nat) (lexer : Lexer) :
    lexer.after (first + second) = (lexer.after first).after second := by
  induction first generalizing lexer with
  | zero => rw [Nat.zero_add, after]
  | succ first ih =>
      rw [Nat.succ_add]
      exact ih lexer.next.2

/-- A call begins behind all tokens of the calls before it. -/
theorem stop_le_position {calls later : Nat} (read : (lexer.after calls).next.1 = .ok token)
    (before : calls < later) : token.stop ≤ (lexer.after later).position := by
  obtain ⟨more, rfl⟩ := Nat.exists_eq_add_of_lt before
  have stop := (le_offset_of_next (Prod.ext read rfl)).2
  rw [Nat.add_right_comm, after_add, (answers_succ calls lexer).2]
  exact Nat.le_trans stop (position_le_after more _)

theorem getElem?_answers {index calls : Nat} (inside : index < calls) (lexer : Lexer) :
    (lexer.answers calls)[index]? = some (lexer.after index).next.1 := by
  induction calls generalizing index lexer with
  | zero => exact absurd inside (Nat.not_lt_zero index)
  | succ calls ih =>
      cases index with
      | zero => rfl
      | succ index => exact ih (Nat.lt_of_succ_lt_succ inside) lexer.next.2

end Lexer

namespace Cursor

variable {cursor : Cursor} {token : Token} {error : ParseError} {upcoming : TokenStream}

/-- Whether a cursor stands at a token of a lexer. -/
def Stands (cursor : Cursor) : Prop :=
  ∃ lexer : Lexer, cursor.StandsAt lexer

/-- The answers that a cursor is going to meet are those of the lexer behind its
current token. -/
theorem StandsAt.exists_upcoming {lexer : Lexer} (stands : cursor.StandsAt lexer) :
    ∃ middle : Lexer, lexer.next = (.ok cursor.current, middle) ∧
      cursor.upcoming.next = (middle.next.1, middle.next.2.stream) := by
  obtain ⟨middle, read⟩ := stands.next
  have onward := lexer.stream_next
  rw [stands, read, Prod.mk.injEq] at onward
  exact ⟨middle, read, by rw [onward.2, middle.stream_next]⟩

theorem Stands.of_ok (stands : cursor.Stands)
    (answered : cursor.upcoming.next = (.ok token, upcoming)) :
    Stands { cursor with current := token, upcoming := upcoming } ∧
      cursor.current.stop ≤ token.offset := by
  obtain ⟨lexer, standsAt⟩ := stands
  obtain ⟨middle, read, upcomingNext⟩ := standsAt.exists_upcoming
  rw [answered] at upcomingNext
  obtain ⟨first, rfl⟩ := Prod.mk.inj upcomingNext
  have readNext : middle.next = (.ok token, middle.next.2) := Prod.ext first.symm rfl
  refine ⟨⟨middle, ?_⟩, ?_⟩
  · unfold StandsAt StandsIn
    rw [middle.stream_next, readNext]
  · exact Nat.le_trans (Lexer.le_offset_of_next read).2 (Lexer.le_offset_of_next readNext).1

theorem Stands.of_error (stands : cursor.Stands)
    (answered : cursor.upcoming.next = (.error error, upcoming)) :
    error.cause.limit? = none ∧ cursor.current.stop ≤ error.offset := by
  obtain ⟨lexer, standsAt⟩ := stands
  obtain ⟨middle, read, upcomingNext⟩ := standsAt.exists_upcoming
  rw [answered] at upcomingNext
  obtain ⟨lexical, behind⟩ :=
    Lexer.le_offset_of_next_error (Prod.mk.inj upcomingNext).1.symm
  exact ⟨ParseError.limit?_of_isLexical lexical,
    Nat.le_trans (Lexer.le_offset_of_next read).2 behind⟩

/-- Where there is no cursor, the lexer answers the first call with an error. -/
theorem next_of_ofText_error {text : String} {depth : Nat}
    (failed : ofText text depth = .error error) : (Lexer.ofText text).next.1 = .error error := by
  unfold ofText at failed
  rw [(Lexer.ofText text).stream_next] at failed
  cases read : (Lexer.ofText text).next.1 with
  | ok token =>
      rw [read] at failed
      cases failed
  | error found =>
      rw [read] at failed
      exact congrArg Except.error (Except.error.inj failed)

theorem isLexical_of_ofText {text : String} {depth : Nat}
    (failed : ofText text depth = .error error) : error.isLexical :=
  (Lexer.le_offset_of_next_error (next_of_ofText_error failed)).1

theorem stands_of_ofText {text : String} {depth : Nat} (located : ofText text depth = .ok cursor) :
    cursor.Stands :=
  ⟨Lexer.ofText text, (ofText_eq_ok_iff.mp located).1⟩

end Cursor

end TemplatedJson
