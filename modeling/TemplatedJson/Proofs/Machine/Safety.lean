import TemplatedJson.Proofs.Lexing.Slices
import TemplatedJson.Proofs.Machine.Value
import TemplatedJson.Proofs.Reading.Faithful

/-!
# A machine is never trapped

Whatever is read, and whatever failed before, no slice of the text is out of range, no sum
exceeds a machine word, and no level is left that was not entered.
-/

namespace TemplatedJson

namespace Parse

variable {account : Account} {text : String}
  (standing : ∀ token, account.holds (.ok token) → token.StandsIn text.toList)
  (spacious : account.room + text.length ≤ account.machine.greatest)

include standing spacious

theorem pays_document (maximum : Nat) :
    Pays account 1 (fun _ => 1) (account.machine.document maximum) (document maximum) := by
  have values : Pays account 1 (fun _ => 1)
      (account.machine.completeValue maximum >>= fun node => pure (Document.json node))
      (completeValue maximum >>= fun node => pure (Document.json node)) :=
    (pays_completeValue standing spacious maximum).bind fun _ => pays_pure (Nat.le_refl _)
  have expressions : Pays account 1 (fun _ => 1)
      (account.machine.completeExpression ⟨maximum, 0⟩ >>=
        fun expr => pure (Document.expression expr))
      (completeExpression ⟨maximum, 0⟩ >>= fun expr => pure (Document.expression expr)) :=
    (pays_completeExpression (Nat.zero_le _)).bind fun _ => pays_pure (Nat.le_refl _)
  intro cursor
  unfold Machine.document document
  rw [runAt_currentKind_bind, runAt_currentKind_bind]
  cases cursor.current.kind with
  | symbol symbol =>
      cases symbol with
      | leftBrace | leftBracket => exact values cursor
      | _ => exact expressions cursor
  | _ => exact expressions cursor

/-- A request pays with the credit of the call for the level that it begins with. -/
theorem pays_request (maximum : Nat) (request : Request) :
    Pays account 1 (fun _ => 1) (account.machine.request maximum request)
      (request.parser maximum) := by
  have single : Pays account 1 (fun _ => 1) (account.machine.expression ⟨maximum, 0⟩)
      (expression ⟨maximum, 0⟩) :=
    pays_expression (Nat.zero_le _)
  have whole : Pays account 1 (fun _ => 1) (account.machine.completeExpression ⟨maximum, 0⟩)
      (completeExpression ⟨maximum, 0⟩) :=
    pays_completeExpression (Nat.zero_le _)
  cases request with
  | expression => exact single.map _
  | completeExpression => exact whole.map _
  | value => exact (pays_completeValue standing spacious maximum).map _
  | document => exact (pays_document standing spacious maximum).map _

/-- A session pays with a credit for each of its requests, those that fail included. -/
theorem answerAll_eq (maximum : Nat) (requests : List Request) {cursor : Cursor}
    (sees : cursor.Sees account.holds) (counted : account.base ≤ cursor.depth)
    (fits : cursor.depth + cursor.tokensLeft + requests.length ≤ account.room) :
    account.machine.answerAll maximum requests cursor =
        Request.answerAll maximum requests cursor ∧
      (Request.answerAll maximum requests cursor).2.depth +
          (Request.answerAll maximum requests cursor).2.tokensLeft ≤
        cursor.depth + cursor.tokensLeft + requests.length := by
  induction requests generalizing cursor with
  | nil => exact ⟨rfl, Nat.le_refl _⟩
  | cons request rest ih =>
      rw [List.length_cons] at fits ⊢
      obtain ⟨same, balanced⟩ :=
        pays_request standing spacious maximum request cursor sees counted (by omega)
      obtain ⟨seesAfter, deeper, paid⟩ := balanced.ends
      obtain ⟨sameRest, paidRest⟩ := ih seesAfter (by omega) (by omega)
      simp only [Machine.answerAll, Request.answerAll, same, sameRest]
      exact ⟨trivial, by omega⟩

end Parse

/-- No operation of the lexer or of the parsers is without a result on a machine with words
of 64 bits.

However often a lexer was called, and whatever it answered, its position is in the text,
and so are the slices that the next call takes.

A session begins with a lexer that may have been called before.  On the machine, which is
trapped wherever a level is entered or left, a node is built or an error is moved without a
result, it has the same answers and the same end as with all numbers.  This holds for every
limit and whatever a trapped machine does, as long as the requests and the characters
together are fewer than half of the machine words.  The depth is then bounded by the
requests and the tokens that were passed.

A place in a quoted text is found without a look-up behind its end, and it is no place
behind the last character. -/
theorem machine_never_trapped :
    (∀ (text : String) (calls : Nat) (answer : LexerAnswer) (after : Lexer),
      ((Lexer.ofText text).after calls).next = (answer, after) →
        after.position ≤ text.length ∧ after.SlicesOf text.toList answer) ∧
    (∀ (text : String) (calls maximum : Nat) (requests : List Request) (start : Cursor)
        (machine : Machine), machine.greatest = UInt64.size - 1 →
      requests.length + text.length < UInt64.size / 2 →
      start.StandsAt ((Lexer.ofText text).after calls) → start.depth = 0 →
        machine.answerAll maximum requests start = Request.answerAll maximum requests start ∧
          ∀ answers last, Request.answerAll maximum requests start = (answers, last) →
            last.depth + last.tokensLeft ≤ requests.length + start.tokensLeft) ∧
    ∀ (raw : String) (index : Nat),
      Template.rawIndex? raw index = some (Template.rawIndex raw index) ∧
        Template.rawIndex raw index ≤ raw.length - 1 := by
  refine ⟨?_, ?_, fun raw index => ?_⟩
  · intro text calls answer after read
    have stands := (Lexer.standsIn_ofText text).after calls
    rw [← String.length_toList]
    exact stands.slicesOf_next read
  · intro text calls maximum requests start machine word few stands depth
    have size : UInt64.size = 18446744073709551616 := rfl
    have room : requests.length + text.length ≤ machine.greatest := by omega
    let account : Account :=
      ⟨machine, 0, requests.length + text.length, LexerAnswer.Concerns text.toList, room⟩
    have inText := (Lexer.standsIn_ofText text).after calls
    have tokens := Nat.le_trans stands.tokensLeft_le inText.length_rest_le
    rw [String.length_toList] at tokens
    obtain ⟨same, paid⟩ := @Parse.answerAll_eq account text (fun _ stands => stands)
      (by dsimp only [account]; omega) maximum requests start (stands.sees inText)
      (Nat.zero_le _) (by dsimp only [account]; omega)
    refine ⟨same, fun answers last answered => ?_⟩
    rw [answered, depth] at paid
    dsimp only at paid
    omega
  · exact ⟨Template.rawIndex?_eq raw index, Template.rawIndex_le raw index⟩

/-- Two requests fail inside of two parentheses.  The depth is then as great as it can
be. -/
theorem machine_never_trapped_in_parentheses :
    ∃ start, Cursor.ofText "((" 0 = .ok start ∧
      Machine.answerAll ⟨UInt64.size - 1, throw ⟨.unterminatedString, 0⟩⟩ 64 [.expression, .expression]
          start = Request.answerAll 64 [.expression, .expression] start ∧
        (Request.answerAll 64 [.expression, .expression] start).2.depth = 4 ∧
          start.tokensLeft = 2 := by
  have first : (Cursor.ofText "((" 0).toOption.isSome := by decide +kernel
  obtain ⟨start, found⟩ := Option.isSome_iff_exists.mp first
  have located := eq_ok_of_toOption found
  obtain ⟨stands, surface, -⟩ := Cursor.ofText_eq_ok_iff.mp located
  have depths : (Cursor.ofText "((" 0).toOption.map (fun cursor =>
      ((Request.answerAll 64 [.expression, .expression] cursor).2.depth, cursor.tokensLeft)) =
        some (4, 2) := by
    decide +kernel
  rw [found] at depths
  obtain ⟨depth, tokens⟩ := Prod.mk.inj (Option.some.inj depths)
  have safe := machine_never_trapped.2.1 "((" 0 64 [.expression, .expression] start
    ⟨UInt64.size - 1, throw ⟨.unterminatedString, 0⟩⟩ rfl (by decide) stands surface
  exact ⟨start, located, safe.1, depth, tokens⟩

end TemplatedJson
