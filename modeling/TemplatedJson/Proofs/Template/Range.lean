import TemplatedJson.Template.Place

/-!
# Places stay inside any text

The index of a spelling is found by jumps over the escapes of a text.  Whatever the
text is, later characters of the content lead to later places, and no place lies
behind the last character.
-/

namespace TemplatedJson.Template

theorem spelledWidth_of_long {text : List Char} (long : 2 ≤ text.length) (count : Nat) :
    spelledWidth (count + 1) text =
      spellingWidth text + spelledWidth count (text.drop (spellingWidth text)) :=
  match text, long with
  | _ :: _ :: _, _ => rfl

/-- Later characters are spelled later. -/
theorem spelledWidth_mono {count more : Nat} (fewer : count ≤ more) (text : List Char) :
    spelledWidth count text ≤ spelledWidth more text := by
  induction count generalizing more text with
  | zero => exact Nat.zero_le _
  | succ count ih =>
      obtain ⟨more, rfl⟩ := Nat.exists_eq_succ_of_ne_zero (Nat.ne_zero_of_lt fewer)
      match text with
      | [] | [_] => exact Nat.le_refl 0
      | first :: second :: rest =>
          exact Nat.add_le_add_left (ih (Nat.le_of_succ_le_succ fewer) _) _

theorem rawIndex_mono (raw : String) {index later : Nat} (notLater : index ≤ later) :
    rawIndex raw index ≤ rawIndex raw later := by
  have widths := spelledWidth_mono notLater (raw.toList.drop 1)
  unfold rawIndex
  omega

/-- No place lies behind the last character, and an empty text has only its beginning. -/
theorem rawIndex_le (raw : String) (index : Nat) : rawIndex raw index ≤ raw.length - 1 :=
  Nat.min_le_right _ _

end TemplatedJson.Template
