import TemplatedJson.Proofs.Lexing.Lexes

/-!
# The text in front of a cursor

A cursor faces a text when the text, with any blanks before it, is what is left
to read from the current token on.  A written token at the front of that text is
the current one, and the cursor can step over it if another token follows.
-/

namespace TemplatedJson

/-- Whether the lexer finds a token, or the end, at the start of a text. -/
def Answers (text : List Char) : Prop :=
  ∀ position, ∃ token middle, (Lexer.mk text position).next = (.ok token, middle)

/-- Whether the text is what is left to read from the current token on, blanks
before the token aside. -/
def Cursor.Faces (cursor : Cursor) (text : List Char) : Prop :=
  ∃ blanks position, Blanks blanks ∧ cursor.StandsAt ⟨blanks ++ text, position⟩

variable {cursor : Cursor} {blanks chars rest text : List Char} {kind : Token.Kind}

theorem answers_of_written (blank : Blanks blanks) (written : Scan.Written kind chars)
    (ends : Scan.EndsBefore kind rest) : Answers (blanks ++ (chars ++ rest)) := by
  intro position
  exact ⟨_, _, Lexer.next_mk_of_written blank written ends position⟩

theorem answers_of_blanks (blank : Blanks text) : Answers text := by
  intro position
  exact ⟨_, _, @Lexer.next_of_blanks ⟨text, position⟩ blank⟩

namespace Cursor

/-- Blanks in front of a cursor may be left out. -/
theorem Faces.of_blanks (faces : cursor.Faces (blanks ++ text)) (blank : Blanks blanks) :
    cursor.Faces text := by
  obtain ⟨before, position, blankBefore, stands⟩ := faces
  exact ⟨before ++ blanks, position, blankBefore.append blank, by rwa [List.append_assoc]⟩

theorem StandsAt.current_written {position : Nat}
    (stands : cursor.StandsAt ⟨blanks ++ (chars ++ rest), position⟩) (blank : Blanks blanks)
    (written : Scan.Written kind chars) (ends : Scan.EndsBefore kind rest) :
    cursor.current = ⟨kind, String.ofList chars, position + blanks.length⟩ := by
  have read := Lexer.next_mk_of_written blank written ends position
  obtain ⟨middle, known⟩ := stands.next
  rw [read] at known
  simp only [Prod.mk.injEq, Except.ok.injEq] at known
  exact known.1.symm

/-- The token in front of a cursor, and the step over it. -/
theorem StandsAt.step_written {position : Nat}
    (stands : cursor.StandsAt ⟨blanks ++ (chars ++ rest), position⟩) (blank : Blanks blanks)
    (written : Scan.Written kind chars) (ends : Scan.EndsBefore kind rest)
    (answers : Answers rest) :
    cursor.current = ⟨kind, String.ofList chars, position + blanks.length⟩ ∧
      ∃ after, cursor.following? = some after ∧
        after.StandsAt ⟨rest, position + blanks.length + chars.length⟩ ∧
        after.depth = cursor.depth ∧ after.remaining ≤ cursor.remaining ∧
        (after.current.kind ≠ .endOfInput → after.remaining < cursor.remaining) := by
  have current := stands.current_written blank written ends
  have read := Lexer.next_mk_of_written blank written ends position
  obtain ⟨token, last, readNext⟩ := answers (position + blanks.length + chars.length)
  obtain ⟨after, standsAfter, -, depth, sightings⟩ :=
    exists_standsAt readNext cursor.depth cursor.sightings
  rw [← current] at read
  have moved := (stands.following?_eq_some_iff read).mpr ⟨standsAfter, depth, sightings⟩
  obtain ⟨fewer, strictlyFewer⟩ := remaining_following? moved
  exact ⟨current, after, moved, standsAfter, depth, fewer, strictlyFewer⟩

theorem Faces.current_kind (faces : cursor.Faces (chars ++ rest))
    (written : Scan.Written kind chars) (ends : Scan.EndsBefore kind rest) :
    cursor.current.kind = kind := by
  obtain ⟨blanks, position, blank, stands⟩ := faces
  rw [stands.current_written blank written ends]

/-- The same for a cursor that faces the token. -/
theorem Faces.step (faces : cursor.Faces (chars ++ rest)) (written : Scan.Written kind chars)
    (ends : Scan.EndsBefore kind rest) (answers : Answers rest) :
    cursor.current.kind = kind ∧ cursor.current.raw = String.ofList chars ∧
      ∃ after, cursor.following? = some after ∧ after.Faces rest ∧ after.depth = cursor.depth ∧
        after.remaining ≤ cursor.remaining ∧
        (after.current.kind ≠ .endOfInput → after.remaining < cursor.remaining) := by
  obtain ⟨blanks, position, blank, stands⟩ := faces
  obtain ⟨current, after, moved, standsAfter, rest⟩ :=
    stands.step_written blank written ends answers
  exact ⟨by rw [current], by rw [current], after, moved, ⟨[], _, blanks_nil, standsAfter⟩, rest⟩

end Cursor

end TemplatedJson
