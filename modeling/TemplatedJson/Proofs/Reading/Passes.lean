import TemplatedJson.Proofs.Reading.Run

/-!
# Passing tokens

A cursor passes a list of tokens when stepping over them, one at a time, leads
to another cursor.  The mark at the end of the text is never passed.  What a
parser consumed is the list of tokens that its run passed.
-/

namespace TemplatedJson.Cursor

/-- Stepping over the given tokens leads from one cursor to another. -/
inductive Passes : Cursor → List Token → Cursor → Prop where
  | none (cursor : Cursor) : Passes cursor [] cursor
  | token {cursor middle after : Cursor} {tokens : List Token} :
      cursor.current.kind ≠ .endOfInput → cursor.following? = some middle →
        Passes middle tokens after → Passes cursor (cursor.current :: tokens) after

variable {cursor middle after : Cursor} {tokens others : List Token} {token : Token}

theorem passes_nil_iff : cursor.Passes [] after ↔ after = cursor := by
  constructor
  · intro passed
    cases passed
    rfl
  · rintro rfl
    exact .none after

theorem passes_cons_iff :
    cursor.Passes (token :: tokens) after ↔
      token = cursor.current ∧ token.kind ≠ .endOfInput ∧
        ∃ middle, cursor.following? = some middle ∧ middle.Passes tokens after := by
  constructor
  · intro passed
    cases passed with
    | token notEnd known later => exact ⟨rfl, notEnd, _, known, later⟩
  · rintro ⟨rfl, notEnd, middle, known, later⟩
    exact .token notEnd known later

theorem passes_append_iff :
    cursor.Passes (tokens ++ others) after ↔
      ∃ middle, cursor.Passes tokens middle ∧ middle.Passes others after := by
  induction tokens generalizing cursor with
  | nil => simp [passes_nil_iff]
  | cons token tokens ih =>
      rw [List.cons_append, passes_cons_iff]
      constructor
      · rintro ⟨rfl, notEnd, next, known, later⟩
        obtain ⟨middle, first, second⟩ := ih.mp later
        exact ⟨middle, .token notEnd known first, second⟩
      · rintro ⟨middle, first, second⟩
        obtain ⟨rfl, notEnd, next, known, later⟩ := passes_cons_iff.mp first
        exact ⟨rfl, notEnd, next, known, ih.mpr ⟨middle, later, second⟩⟩

theorem Passes.append (first : cursor.Passes tokens middle) (second : middle.Passes others after) :
    cursor.Passes (tokens ++ others) after :=
  passes_append_iff.mpr ⟨middle, first, second⟩

theorem passes_current (notEnd : cursor.current.kind ≠ .endOfInput)
    (known : cursor.following? = some after) : cursor.Passes [cursor.current] after :=
  .token notEnd known (.none after)

theorem following?_frame (known : cursor.following? = some after) :
    after.depth = cursor.depth ∧ after.sightings = cursor.sightings := by
  unfold following? at known
  split at known
  · simp only [Option.some.injEq] at known
    simp [← known]
  · simp at known

/-- Stepping over tokens changes neither the depth nor the sightings. -/
theorem Passes.frame (passed : cursor.Passes tokens after) :
    after.depth = cursor.depth ∧ after.sightings = cursor.sightings := by
  induction passed with
  | none cursor => exact ⟨rfl, rfl⟩
  | token notEnd known later ih =>
      have step := following?_frame known
      exact ⟨ih.1.trans step.1, ih.2.trans step.2⟩

/-- The same place in the tokens with another depth and other sightings. -/
def withFrame (cursor : Cursor) (depth : Nat) (sightings : List Template.Sighting) : Cursor :=
  { cursor with depth := depth, sightings := sightings }

theorem following?_withFrame (cursor : Cursor) (depth : Nat)
    (sightings : List Template.Sighting) :
    (cursor.withFrame depth sightings).following? =
      cursor.following?.map fun after => after.withFrame depth sightings := by
  unfold following? withFrame
  dsimp only
  rcases cursor.upcoming.next with ⟨_ | _, _⟩ <;> rfl

/-- Neither the depth nor the sightings matter for stepping over tokens. -/
theorem Passes.withFrame (passed : cursor.Passes tokens after) (depth : Nat)
    (sightings : List Template.Sighting) :
    (cursor.withFrame depth sightings).Passes tokens (after.withFrame depth sightings) := by
  induction passed with
  | none cursor => exact .none _
  | @token cursor middle after tokens notEnd known later ih =>
      have moved : (cursor.withFrame depth sightings).following? =
          some (middle.withFrame depth sightings) := by
        rw [following?_withFrame, known]
        rfl
      have kept : (cursor.withFrame depth sightings).current.kind ≠ .endOfInput := notEnd
      exact .token kept moved ih

theorem Passes.of_deeper
    (passed : ({ cursor with depth := cursor.depth + 1 } : Cursor).Passes tokens after) :
    cursor.Passes tokens { after with depth := after.depth - 1 } := by
  obtain ⟨sameDepth, sameSightings⟩ := passed.frame
  have replaced := passed.withFrame cursor.depth cursor.sightings
  simpa [Cursor.withFrame, sameDepth, sameSightings] using replaced

theorem Passes.deeper (passed : cursor.Passes tokens after) :
    ({ cursor with depth := cursor.depth + 1 } : Cursor).Passes tokens
      { after with depth := after.depth + 1 } := by
  obtain ⟨sameDepth, sameSightings⟩ := passed.frame
  have replaced := passed.withFrame (cursor.depth + 1) cursor.sightings
  simpa [Cursor.withFrame, sameDepth, sameSightings] using replaced

/-- A step uses up one pending answer, unless it leads to the end. -/
theorem remaining_following? (known : cursor.following? = some after) :
    after.remaining ≤ cursor.remaining ∧
      (after.current.kind ≠ .endOfInput → after.remaining < cursor.remaining) := by
  unfold following? at known
  unfold remaining
  cases pending : cursor.upcoming.pending with
  | nil =>
      rw [TokenStream.next_of_nil pending] at known
      cases settled : cursor.upcoming.settled with
      | error error => simp [settled] at known
      | ok token =>
          simp only [settled, Option.some.injEq] at known
          have ended := cursor.upcoming.settled_end token settled
          simp [← known, pending, ended]
  | cons answer rest =>
      have popped := TokenStream.next_of_cons pending
      split at known
      · next token upcoming answered =>
          simp only [Option.some.injEq] at known
          rw [answered] at popped
          have left : upcoming.pending = rest := popped.2.1
          simp [← known, left]
      · simp at known

/-- The tokens that can still be passed are no more than the bound that a
cursor gives for them. -/
theorem Passes.length_le_remaining (passed : cursor.Passes tokens after) :
    tokens.length ≤ cursor.remaining := by
  induction passed with
  | none cursor => simp
  | @token cursor middle after tokens notEnd known later ih =>
      cases later with
      | none => simp [remaining]
      | token laterNotEnd _ _ =>
          have fewer := (remaining_following? known).2 laterNotEnd
          simp only [List.length_cons] at ih ⊢
          omega

end TemplatedJson.Cursor
