import TemplatedJson.Proofs.Template.Range

/-!
# Finding a place by indexes

A machine that finds the spelling of a character does not take the text apart.  It walks
over the text with an index and looks characters up by theirs.  A look-up behind the end
of the text has no result.  Such a look-up never happens, whatever the text is.
-/

namespace TemplatedJson.Template

/-- Whether the numeric escape at a position begins like a high surrogate and another
numeric escape follows it. -/
def isPairSpellingAt (text : List Char) (position : Nat) : Bool :=
  text[position + 6]? = some '\\' && text[position + 7]? = some 'u' &&
    (text[position + 2]? = some 'd' || text[position + 2]? = some 'D') &&
      ['8', '9', 'a', 'b', 'A', 'B'].any fun digit => text[position + 3]? = some digit

/-- How many characters spell the one at a position.  Without a character there, there is
no answer, but none is needed behind it. -/
def spellingWidthAt? (text : List Char) (position : Nat) : Option Nat :=
  text[position]?.map fun first =>
    match first, text[position + 1]? with
    | '\\', some 'u' => if isPairSpellingAt text position then 12 else 6
    | '\\', some _ => 2
    | _, _ => 1

/-- Steps over the spellings of `count` characters, up to the last character of the
text. -/
def walk? (text : List Char) : (count position : Nat) → Option Nat
  | 0, position => some position
  | count + 1, position =>
      if position + 1 < text.length then
        (spellingWidthAt? text position).bind fun width => walk? text count (position + width)
      else some position

/-- The index in a quoted string of the spelling of a content character, found by
walking over the string. -/
def rawIndex? (raw : String) (index : Nat) : Option Nat :=
  (walk? raw.toList index 1).map fun position => min position (raw.length - 1)

variable {text : List Char} {position : Nat}

theorem isPairSpellingAt_eq (text : List Char) (position : Nat) :
    isPairSpellingAt text position = isPairSpelling (text.drop (position + 2)) := by
  have look : ∀ index, text[position + 2 + index]? = (text.drop (position + 2))[index]? :=
    fun index => List.getElem?_drop.symm
  have first := look 0
  have second := look 1
  have backslash := look 4
  have mark := look 5
  simp only [Nat.add_assoc, Nat.reduceAdd] at first second backslash mark
  unfold isPairSpellingAt
  rw [first, second, backslash, mark]
  generalize text.drop (position + 2) = digits
  match digits with
  | [] | [_] | [_, _] | [_, _, _] | [_, _, _, _] | [_, _, _, _, _] => simp [isPairSpelling]
  | first :: second :: _ :: _ :: backslash :: mark :: _ =>
      unfold isPairSpelling
      split
      · next shape =>
          simp only [List.cons.injEq] at shape
          simp [shape, Bool.or_assoc]
      · next other =>
          have notEscape : ¬ (backslash = '\\' ∧ mark = 'u') := by
            rintro ⟨rfl, rfl⟩
            exact other _ _ _ _ _ rfl
          simpa using fun isBackslash isMark => absurd ⟨isBackslash, isMark⟩ notEscape

/-- At a character of the text the look-ups have an answer. -/
theorem spellingWidthAt?_eq (inside : position < text.length) :
    spellingWidthAt? text position = some (spellingWidth (text.drop position)) := by
  have look : ∀ index, text[position + index]? = (text.drop position)[index]? :=
    fun index => List.getElem?_drop.symm
  have first := look 0
  have second := look 1
  have digits : text.drop (position + 2) = (text.drop position).drop 2 :=
    List.drop_drop.symm
  have more : 0 < (text.drop position).length := by
    rw [List.length_drop]
    omega
  unfold spellingWidthAt?
  rw [isPairSpellingAt_eq, digits, second, ← Nat.add_zero position, first, Nat.add_zero]
  generalize text.drop position = rest at more ⊢
  match rest, more with
  | [_], _ => simp [spellingWidth]
  | first :: second :: others, _ =>
      by_cases backslash : first = '\\'
      · subst backslash
        by_cases mark : second = 'u'
        · subst mark
          rfl
        · simp [spellingWidth, mark]
      · simp [spellingWidth, backslash]

/-- The walk never leaves the text. -/
theorem walk?_eq (count position : Nat) :
    walk? text count position = some (position + spelledWidth count (text.drop position)) := by
  induction count generalizing position with
  | zero => rfl
  | succ count ih =>
      unfold walk?
      split
      · next more =>
          have long : 2 ≤ (text.drop position).length := by
            rw [List.length_drop]
            omega
          rw [spellingWidthAt?_eq (Nat.lt_of_succ_lt more), Option.bind_some, ih,
            spelledWidth_of_long long, List.drop_drop, Nat.add_assoc]
      · next last =>
          have short : (text.drop position).length ≤ 1 := by
            rw [List.length_drop]
            omega
          match text.drop position, short with
          | [], _ | [_], _ => rfl

/-- Whatever a text is and whichever character is asked for, its place is found without
a look-up behind the end. -/
theorem rawIndex?_eq (raw : String) (index : Nat) :
    rawIndex? raw index = some (rawIndex raw index) := by
  unfold rawIndex?
  rw [walk?_eq]
  rfl

end TemplatedJson.Template
