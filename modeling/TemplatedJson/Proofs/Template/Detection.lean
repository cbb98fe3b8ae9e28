import TemplatedJson.Template

/-!
# Where the expression of a template stands

The text of an expression is one piece of the content of its string.  In the inline
form it extends to the end of the content.  In the block form two closing braces and
white space follow it.
-/

namespace TemplatedJson.Template

variable {content source : List Char}

/-- What stands behind the expression in the content of a string. -/
def Form.Closes : Form → List Char → Prop
  | .inline, rest => rest = []
  | .block, rest => ∃ blanks, (∀ blank ∈ blanks, Unicode.isWhiteSpace blank) ∧
      rest = '}' :: '}' :: blanks

theorem exists_of_blockSource? (found : blockSource? content = some source) :
    ∃ rest, content = content.takeWhile Unicode.isWhiteSpace ++ '{' :: '{' :: (source ++ rest) ∧
      Form.block.Closes rest := by
  have opening := @List.takeWhile_append_dropWhile _ Unicode.isWhiteSpace content
  unfold blockSource? at found
  split at found
  · next afterOpening opened =>
      have closing := @List.takeWhile_append_dropWhile _ Unicode.isWhiteSpace afterOpening.reverse
      split at found
      · next reversed closed =>
          obtain rfl := Option.some.inj found
          let blanks := (afterOpening.reverse.takeWhile Unicode.isWhiteSpace).reverse
          refine ⟨'}' :: '}' :: blanks, ?_, blanks, ?_, rfl⟩
          · have whole : afterOpening = reversed.reverse ++ '}' :: '}' :: blanks := by
              rw [closed] at closing
              have turned := congrArg List.reverse closing
              simpa [blanks] using turned.symm
            rw [opened] at opening
            rw [← whole]
            exact opening.symm
          · intro blank member
            exact List.all_eq_true.mp List.all_takeWhile blank (List.mem_reverse.mp member)
      · cases found
  · cases found

/-- The text of the expression stands at its index in the content of the string. -/
theorem exists_of_detect? {content : String} {embedded : Embedded}
    (found : detect? content = some embedded) :
    ∃ before rest, content.toList = before ++ (embedded.source.toList ++ rest) ∧
      before.length = embedded.start ∧ embedded.form.Closes rest := by
  unfold detect? at found
  split at found
  · next source characters =>
      obtain rfl := Option.some.inj found
      exact ⟨['='], [], by simp [characters], rfl, rfl⟩
  · split at found
    · next source block =>
        split at found
        · obtain rfl := Option.some.inj found
          obtain ⟨rest, split, closes⟩ := exists_of_blockSource? block
          refine ⟨content.toList.takeWhile Unicode.isWhiteSpace ++ ['{', '{'], rest, ?_, ?_, closes⟩
          · simpa using split
          · simp
        · cases found
    · cases found

/-- From a character of the expression on, the content is the rest of the expression
and what closes it. -/
theorem exists_drop_of_detect? {content : String} {embedded : Embedded}
    (found : detect? content = some embedded) {inner : Nat} (inside : inner ≤ embedded.source.length) :
    ∃ rest, content.toList.drop (embedded.start + inner) =
        embedded.source.toList.drop inner ++ rest ∧
      embedded.form.Closes rest ∧ embedded.start + inner ≤ content.length := by
  obtain ⟨before, rest, split, place, closes⟩ := exists_of_detect? found
  rw [← String.length_toList] at inside ⊢
  refine ⟨rest, ?_, closes, ?_⟩
  · rw [split, ← place, List.drop_append, List.drop_eq_nil_of_le (by omega), List.nil_append]
    have left : before.length + inner - before.length = inner := by omega
    rw [left, List.drop_append_of_le_length inside]
  · rw [split, List.length_append, List.length_append]
    omega

end TemplatedJson.Template
