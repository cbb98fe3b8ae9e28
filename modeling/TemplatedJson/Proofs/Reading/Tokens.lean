import TemplatedJson.Proofs.Reading.Passes

/-!
# Cursors in the tokens of a text

A cursor stands in a stream of answers when its token is the first of them.  The
tokens that it passes up to the end of the text are then all the tokens of the
stream but the last one, which marks the end.
-/

namespace TemplatedJson

/-- Whether a cursor stands at the first answer of a stream. -/
def Cursor.StandsIn (cursor : Cursor) (stream : TokenStream) : Prop :=
  stream.next = (.ok cursor.current, cursor.upcoming)

/-- A stream of tokens up to the end answers the first call with a token. -/
theorem TokenStream.exists_next_eq_ok {stream : TokenStream} {tokens : List Token} {final : Token}
    (pending : stream.pending = tokens.map .ok) (settled : stream.settled = .ok final) :
    ∃ first upcoming, stream.next = (.ok first, upcoming) := by
  cases tokens with
  | nil => exact ⟨final, stream, by rw [TokenStream.next_of_nil pending, settled]⟩
  | cons first others =>
      exact ⟨first, stream.next.2, Prod.ext (TokenStream.next_of_cons pending).1 rfl⟩

namespace Cursor

variable {cursor after : Cursor} {stream : TokenStream} {tokens : List Token} {final : Token}

theorem ofText_eq_ok_iff {text : String} {depth : Nat} :
    ofText text depth = .ok cursor ↔
      cursor.StandsIn (Lexer.ofText text).stream ∧ cursor.depth = depth ∧
        cursor.sightings = [] := by
  obtain ⟨current, upcoming, cursorDepth, sightings⟩ := cursor
  unfold ofText StandsIn
  rcases (Lexer.ofText text).stream.next with ⟨_ | first, others⟩
  · simp [Except.map]
  · simp only [Except.map, Except.ok.injEq, Cursor.mk.injEq, Prod.mk.injEq]
    grind

theorem following?_eq_some_iff :
    cursor.following? = some after ↔
      after.StandsIn cursor.upcoming ∧ after.depth = cursor.depth ∧
        after.sightings = cursor.sightings := by
  obtain ⟨current, upcoming, depth, sightings⟩ := after
  unfold following? StandsIn
  rcases cursor.upcoming.next with ⟨_ | first, others⟩
  · simp
  · simp only [Option.some.injEq, Cursor.mk.injEq, Prod.mk.injEq, Except.ok.injEq]
    grind

/-- At a token that does not mark the end, the first pending answer is that
token. -/
theorem StandsIn.pending_eq_cons (stands : cursor.StandsIn stream)
    (notEnd : cursor.current.kind ≠ .endOfInput) :
    stream.pending = .ok cursor.current :: cursor.upcoming.pending ∧
      cursor.upcoming.settled = stream.settled := by
  unfold StandsIn at stands
  cases pending : stream.pending with
  | nil =>
      rw [TokenStream.next_of_nil pending, Prod.mk.injEq] at stands
      exact absurd (stream.settled_end _ stands.1) notEnd
  | cons answer rest =>
      have popped := TokenStream.next_of_cons pending
      rw [stands] at popped
      obtain ⟨rfl, rfl, settled⟩ := popped
      exact ⟨rfl, settled⟩

/-- At the end of the text no answer is pending. -/
theorem StandsIn.pending_eq_nil (stands : cursor.StandsIn stream)
    (ended : cursor.current.kind = .endOfInput) :
    stream.pending = [] ∧ stream.settled = .ok cursor.current := by
  unfold StandsIn at stands
  cases pending : stream.pending with
  | nil =>
      rw [TokenStream.next_of_nil pending, Prod.mk.injEq] at stands
      exact ⟨rfl, stands.1⟩
  | cons answer rest =>
      have popped := TokenStream.next_of_cons pending
      rw [stands] at popped
      obtain ⟨rfl, -, -⟩ := popped
      have member : .ok cursor.current ∈ stream.pending := by simp [pending]
      exact absurd ended (stream.pending_not_end _ member)

/-- The mark at the end is repeated. -/
theorem StandsIn.upcoming_of_end (stands : cursor.StandsIn stream)
    (ended : cursor.current.kind = .endOfInput) : cursor.upcoming = stream := by
  have repeated := TokenStream.next_of_nil (stands.pending_eq_nil ended).1
  exact congrArg Prod.snd (Eq.trans stands.symm repeated)

/-- Stepping over the mark at the end leads nowhere else. -/
theorem StandsIn.following?_of_end (stands : cursor.StandsIn stream)
    (ended : cursor.current.kind = .endOfInput) : cursor.following? = some cursor := by
  apply following?_eq_some_iff.mpr
  rw [stands.upcoming_of_end ended]
  exact ⟨stands, rfl, rfl⟩

/-- Behind tokens of a stream a cursor stands in what is left of it. -/
theorem StandsIn.passes (stands : cursor.StandsIn stream) (passed : cursor.Passes tokens after) :
    ∃ later, after.StandsIn later := by
  induction passed generalizing stream with
  | none => exact ⟨stream, stands⟩
  | token _ known _ ih => exact ih (following?_eq_some_iff.mp known).1

/-- The tokens up to the end are the pending answers, and the end is the one
that settles. -/
theorem StandsIn.passes_to_end_iff (stands : cursor.StandsIn stream) :
    (∃ after, cursor.Passes tokens after ∧ after.current = final ∧ final.kind = .endOfInput) ↔
      stream.pending = tokens.map .ok ∧ stream.settled = .ok final := by
  induction tokens generalizing cursor stream with
  | nil =>
      simp only [passes_nil_iff, exists_eq_left, List.map_nil]
      constructor
      · rintro ⟨rfl, ended⟩
        exact stands.pending_eq_nil ended
      · rintro ⟨none, settled⟩
        have next := stands
        rw [StandsIn, TokenStream.next_of_nil none, settled] at next
        simp only [Prod.mk.injEq, Except.ok.injEq] at next
        exact ⟨next.1.symm, stream.settled_end _ settled⟩
  | cons token tokens ih =>
      constructor
      · rintro ⟨last, passed, lastIsFinal, ended⟩
        obtain ⟨rfl, notEnd, middle, known, later⟩ := passes_cons_iff.mp passed
        obtain ⟨pending, settled⟩ := stands.pending_eq_cons notEnd
        have rest := (ih (following?_eq_some_iff.mp known).1).mp ⟨last, later, lastIsFinal, ended⟩
        rw [pending, ← settled, rest.1]
        exact ⟨rfl, rest.2⟩
      · rintro ⟨pending, settled⟩
        have popped := TokenStream.next_of_cons pending
        rw [stands] at popped
        obtain ⟨current, upcoming, upcomingSettled⟩ := popped
        obtain rfl := Except.ok.inj current
        have notEnd := stream.pending_not_end cursor.current (by simp [pending])
        obtain ⟨first, more, answered⟩ :=
          TokenStream.exists_next_eq_ok upcoming (upcomingSettled.trans settled)
        have known : cursor.following? = some { cursor with current := first, upcoming := more } :=
          following?_eq_some_iff.mpr ⟨answered, rfl, rfl⟩
        obtain ⟨last, later, lastIsFinal, ended⟩ :=
          (ih (following?_eq_some_iff.mp known).1).mpr ⟨upcoming, upcomingSettled.trans settled⟩
        exact ⟨last, passes_cons_iff.mpr ⟨rfl, notEnd, _, known, later⟩, lastIsFinal, ended⟩

end Cursor

/-- Answers in a row are all tokens when each of them is one. -/
theorem mapM_id_eq_ok_iff {answers : List LexerAnswer} {tokens : List Token} :
    answers.mapM id = .ok tokens ↔ answers = tokens.map .ok := by
  induction answers generalizing tokens with
  | nil => cases tokens <;> simp [pure, Except.pure]
  | cons answer answers ih =>
      rw [List.mapM_cons]
      cases answer with
      | error error => cases tokens <;> simp [bind, Except.bind]
      | ok token =>
          cases rest : answers.mapM id with
          | error error =>
              simp only [rest, reduceCtorEq, false_iff] at ih
              cases tokens with
              | nil => simp [bind, Except.bind]
              | cons first others => simpa [bind, Except.bind] using fun _ => ih
          | ok others =>
              simp only [rest, Except.ok.injEq] at ih
              have same := ih.mp rfl
              subst same
              cases tokens with
              | nil => simp [bind, Except.bind, pure, Except.pure]
              | cons first more => simp [bind, Except.bind, pure, Except.pure, ← ih]

theorem TokenStream.tokens_eq_ok_iff {stream : TokenStream} {tokens : List Token}
    {final : Token} :
    stream.tokens = .ok (tokens ++ [final]) ↔
      stream.pending = tokens.map .ok ∧ stream.settled = .ok final := by
  unfold TokenStream.tokens
  rw [← mapM_id_eq_ok_iff]
  cases stream.pending.mapM id with
  | error error => simp [bind, Except.bind]
  | ok before =>
      cases stream.settled with
      | error error => simp [bind, Except.bind]
      | ok last => simp [bind, Except.bind, pure, Except.pure]

theorem eq_ok_of_toOption {Value : Type} {result : Except ParseError Value} {value : Value}
    (found : result.toOption = some value) : result = .ok value := by
  cases result with
  | error error => cases found
  | ok yielded => rw [Option.some.inj found]

/-- The tokens of a text are those that a cursor at its first token passes up to
the end. -/
theorem tokenize_eq_ok_iff {text : String} {tokens : List Token} {final : Token} (depth : Nat) :
    tokenize text = .ok (tokens ++ [final]) ↔
      ∃ cursor after, Cursor.ofText text depth = .ok cursor ∧ cursor.Passes tokens after ∧
        after.current = final ∧ final.kind = .endOfInput := by
  unfold tokenize
  rw [TokenStream.tokens_eq_ok_iff]
  constructor
  · rintro ⟨pending, settled⟩
    obtain ⟨first, upcoming, answered⟩ := TokenStream.exists_next_eq_ok pending settled
    have stands : Cursor.StandsIn ⟨first, upcoming, depth, []⟩ (Lexer.ofText text).stream :=
      answered
    obtain ⟨after, passed, last, ended⟩ := stands.passes_to_end_iff.mpr ⟨pending, settled⟩
    exact ⟨_, after, Cursor.ofText_eq_ok_iff.mpr ⟨stands, rfl, rfl⟩, passed, last, ended⟩
  · rintro ⟨cursor, after, located, passed, last, ended⟩
    have stands := (Cursor.ofText_eq_ok_iff.mp located).1
    exact stands.passes_to_end_iff.mp ⟨after, passed, last, ended⟩

end TemplatedJson
