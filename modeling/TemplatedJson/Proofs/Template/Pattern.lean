import TemplatedJson.Proofs.Template.Detection

/-!
# The pattern of a block

Blocks are described by a pattern over the whole content of a string: white space, two
opening braces, any characters, two closing braces and white space.  A matcher that
backtracks tries the longest run of each piece first.  For this pattern the order does not
matter: a content is split in at most one way, and the reader for blocks finds it.
-/

namespace TemplatedJson.Template

/-- A piece of a pattern: a given character, or any number of characters of one kind. -/
inductive Piece where
  | exactly (character : Char)
  | run (accepts : Char → Bool)

/-- The pieces stand for the whole text, and the texts of their runs are known. -/
inductive Matches : List Piece → List Char → List (List Char) → Prop where
  | done : Matches [] [] []
  | exactly {character : Char} {pieces : List Piece} {text : List Char} {runs : List (List Char)}
      (others : Matches pieces text runs) :
      Matches (.exactly character :: pieces) (character :: text) runs
  | run {accepts : Char → Bool} {pieces : List Piece} {run text : List Char}
      {runs : List (List Char)} (accepted : ∀ character ∈ run, accepts character)
      (others : Matches pieces text runs) :
      Matches (.run accepts :: pieces) (run ++ text) (run :: runs)

/-- The texts of the runs in the match that a backtracking matcher meets first.  A run takes
one character more before it is tried without that character. -/
def greedy? : List Piece → List Char → Option (List (List Char))
  | [], [] => some []
  | [], _ :: _ => none
  | .exactly _ :: _, [] => none
  | .exactly character :: pieces, first :: rest =>
      if first = character then greedy? pieces rest else none
  | .run _ :: pieces, [] => (greedy? pieces []).map ([] :: ·)
  | .run accepts :: pieces, first :: rest =>
      let stopped := (greedy? pieces (first :: rest)).map ([] :: ·)
      if accepts first then
        ((greedy? (.run accepts :: pieces) rest).map (List.modifyHead (first :: ·))).or stopped
      else stopped
termination_by pieces text => (pieces.length, text.length)

/-- White space, two opening braces, any characters, two closing braces, white space. -/
def blockPattern : List Piece :=
  [.run Unicode.isWhiteSpace, .exactly '{', .exactly '{', .run fun _ => true,
    .exactly '}', .exactly '}', .run Unicode.isWhiteSpace]

section Matcher

variable {accepts : Char → Bool} {pieces : List Piece} {text : List Char}
  {runs : List (List Char)}

theorem Matches.stopped (others : Matches pieces text runs) :
    Matches (.run accepts :: pieces) text ([] :: runs) :=
  @Matches.run accepts pieces [] text runs (by simp) others

/-- A run may begin with one more character that it accepts. -/
theorem Matches.extend {first : Char} (accepted : accepts first)
    (matched : Matches (.run accepts :: pieces) text runs) :
    Matches (.run accepts :: pieces) (first :: text) (runs.modifyHead (first :: ·)) := by
  cases matched with
  | @run _ _ run rest runs accepteds others =>
      refine @Matches.run accepts pieces (first :: run) rest runs ?_ others
      simpa using ⟨accepted, accepteds⟩

theorem matches_of_greedy? (found : greedy? pieces text = some runs) :
    Matches pieces text runs := by
  induction pieces, text using greedy?.induct generalizing runs with
  | case1 =>
      obtain rfl : [] = runs := by simpa [greedy?] using found
      exact .done
  | case2 | case3 => simp [greedy?] at found
  | case4 pieces first rest ih =>
      simp only [greedy?, if_true] at found
      exact .exactly (ih found)
  | case5 character pieces first rest different =>
      simp [greedy?, different] at found
  | case6 accepts pieces ih =>
      simp only [greedy?, Option.map_eq_some_iff] at found
      obtain ⟨others, found, rfl⟩ := found
      exact (ih found).stopped
  | case7 accepts pieces first rest accepted ihStopped ihExtended =>
      -- The longer run is tried first, and the shorter one only where it leads nowhere.
      rw [greedy?, if_pos accepted, Option.or_eq_some_iff, Option.map_eq_some_iff] at found
      obtain ⟨longer, extended, rfl⟩ | ⟨-, found⟩ := found
      · exact (ihExtended extended).extend accepted
      · obtain ⟨others, stopped, rfl⟩ := Option.map_eq_some_iff.mp found
        exact (ihStopped stopped).stopped
  | case8 accepts pieces first rest refused ih =>
      rw [greedy?, if_neg refused] at found
      obtain ⟨others, stopped, rfl⟩ := Option.map_eq_some_iff.mp found
      exact (ih stopped).stopped

/-- Where a match exists, the matcher finds one. -/
theorem Matches.isSome_greedy? (matched : Matches pieces text runs) :
    (greedy? pieces text).isSome := by
  induction matched with
  | done => simp [greedy?]
  | exactly others ih => simpa [greedy?] using ih
  | @run accepts pieces run text runs accepted others ih =>
      induction run with
      | nil => cases text with
        | nil => simpa [greedy?] using ih
        | cons first rest => by_cases taken : accepts first <;> simp [greedy?, taken, ih]
      | cons first run ihRun =>
          have rest := ihRun fun character member => accepted character (by simp [member])
          have taken : accepts first := accepted first (by simp)
          simp [greedy?, taken, rest]

end Matcher

section Braces

variable {content before source after : List Char}

/-- A content is split at its outer pairs of braces. -/
structure Braced (content before source after : List Char) : Prop where
  whole : content = before ++ '{' :: '{' :: (source ++ '}' :: '}' :: after)
  blank_before : ∀ character ∈ before, Unicode.isWhiteSpace character
  blank_after : ∀ character ∈ after, Unicode.isWhiteSpace character

theorem matches_blockPattern_iff {runs : List (List Char)} :
    Matches blockPattern content runs ↔
      ∃ before source after, runs = [before, source, after] ∧
        Braced content before source after := by
  constructor
  · intro matched
    obtain _ | _ | ⟨blankBefore, matched⟩ := matched
    obtain _ | matched := matched
    obtain _ | matched := matched
    obtain _ | _ | ⟨-, matched⟩ := matched
    obtain _ | matched := matched
    obtain _ | matched := matched
    obtain _ | _ | ⟨blankAfter, matched⟩ := matched
    cases matched
    exact ⟨_, _, _, rfl, by simp, blankBefore, by simpa using blankAfter⟩
  · rintro ⟨before, source, after, rfl, rfl, blankBefore, blankAfter⟩
    have last : Matches [.run Unicode.isWhiteSpace] after [after] := by
      simpa using Matches.run blankAfter .done
    exact .run blankBefore (.exactly (.exactly (.run (by simp) (.exactly (.exactly last)))))

theorem Braced.takeWhile_eq (braced : Braced content before source after) :
    content.takeWhile Unicode.isWhiteSpace = before := by
  rw [braced.whole, List.takeWhile_append_of_pos braced.blank_before]
  have stop : Unicode.isWhiteSpace '{' = false := by decide
  simp [stop]

/-- The reader for blocks finds the text between the braces. -/
theorem blockSource?_eq_some_iff :
    blockSource? content = some source ↔ ∃ before after, Braced content before source after := by
  constructor
  · intro found
    obtain ⟨_, whole, blanks, blankAfter, rfl⟩ := exists_of_blockSource? found
    exact ⟨_, blanks, whole, fun _ member => List.all_eq_true.mp List.all_takeWhile _ member,
      blankAfter⟩
  · rintro ⟨before, after, rfl, blankBefore, blankAfter⟩
    have opening : Unicode.isWhiteSpace '{' = false := by decide
    have closing : Unicode.isWhiteSpace '}' = false := by decide
    have turned : ∀ character ∈ after.reverse, Unicode.isWhiteSpace character :=
      fun character member => blankAfter character (List.mem_reverse.mp member)
    simp [blockSource?, List.dropWhile_append_of_pos blankBefore, opening, closing,
      List.dropWhile_append_of_pos turned]

/-- No content is split at its braces in two ways. -/
theorem Braced.unique {before' source' after' : List Char}
    (braced : Braced content before source after)
    (other : Braced content before' source' after') :
    before = before' ∧ source = source' ∧ after = after' := by
  have sameBefore : before = before' := braced.takeWhile_eq.symm.trans other.takeWhile_eq
  have sameSource : source = source' := Option.some.inj
    ((blockSource?_eq_some_iff.mpr ⟨_, _, braced⟩).symm.trans
      (blockSource?_eq_some_iff.mpr ⟨_, _, other⟩))
  subst sameBefore sameSource
  have sameAfter := braced.whole.symm.trans other.whole
  simpa using sameAfter

/-- The matcher finds the split at the braces, in whatever order it tries the runs. -/
theorem greedy?_eq_some_iff :
    greedy? blockPattern content = some [before, source, after] ↔
      Braced content before source after := by
  constructor
  · intro found
    obtain ⟨_, _, _, same, braced⟩ := matches_blockPattern_iff.mp (matches_of_greedy? found)
    obtain ⟨rfl, rfl, rfl⟩ : before = _ ∧ source = _ ∧ after = _ := by simpa using same
    exact braced
  · intro braced
    have matched := matches_blockPattern_iff.mpr ⟨_, _, _, rfl, braced⟩
    obtain ⟨runs, found⟩ := Option.isSome_iff_exists.mp matched.isSome_greedy?
    obtain ⟨_, _, _, rfl, other⟩ := matches_blockPattern_iff.mp (matches_of_greedy? found)
    obtain ⟨rfl, rfl, rfl⟩ := braced.unique other
    exact found

/-- The reader for blocks answers the second run of the match. -/
theorem blockSource?_eq_captured :
    blockSource? content = (greedy? blockPattern content).bind (·[1]?) := by
  cases found : greedy? blockPattern content with
  | some runs =>
      obtain ⟨before, source, after, rfl, braced⟩ :=
        matches_blockPattern_iff.mp (matches_of_greedy? found)
      exact blockSource?_eq_some_iff.mpr ⟨before, after, braced⟩
  | none =>
      cases block : blockSource? content with
      | none => rfl
      | some source =>
          obtain ⟨before, after, braced⟩ := blockSource?_eq_some_iff.mp block
          simp [greedy?_eq_some_iff.mpr braced] at found

end Braces

end TemplatedJson.Template
