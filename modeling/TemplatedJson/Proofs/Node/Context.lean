import TemplatedJson.Proofs.Lexing.Faces
import TemplatedJson.Proofs.Node.Lexical

/-!
# What stands around a value

Behind a value only a comma, a closing bracket or the end can stand, and any of
them ends the last token of the value.  A value itself begins with a token that
none of them could be.
-/

namespace TemplatedJson.JsonText

/-! ### What follows a value -/

/-- The symbols that may follow a value. -/
def IsClosing (symbol : Symbol) : Prop :=
  symbol = .comma ∨ symbol = .rightBrace ∨ symbol = .rightBracket

/-- Whether a text may follow a value: nothing but blanks is left, or one of the
closing symbols comes next. -/
def Closes (rest : List Char) : Prop :=
  ∃ blanks, Blanks blanks ∧
    (rest = blanks ∨ ∃ symbol others, IsClosing symbol ∧
      rest = blanks ++ (symbol.text.toList ++ others))

variable {rest chars blanks : List Char} {symbol : Symbol}

theorem closes_of_symbol (closing : IsClosing symbol) (others : List Char) :
    Closes (symbol.text.toList ++ others) :=
  ⟨[], blanks_nil, .inr ⟨symbol, others, closing, rfl⟩⟩

theorem closes_of_blanks (blank : Blanks rest) : Closes rest :=
  ⟨rest, blank, .inl rfl⟩

theorem Closes.after_blanks (closes : Closes rest) (blank : Blanks blanks) :
    Closes (blanks ++ rest) := by
  obtain ⟨before, blankBefore, rfl | ⟨symbol, others, closing, rfl⟩⟩ := closes
  · exact closes_of_blanks (blank.append blankBefore)
  · exact ⟨blanks ++ before, blank.append blankBefore, .inr ⟨symbol, others, closing, by simp⟩⟩

theorem endsBefore_of_isClosing (closing : IsClosing symbol) (others : List Char) :
    Scan.EndsBefore (.symbol symbol) others := by
  rcases closing with rfl | rfl | rfl <;> trivial

theorem Closes.answers (closes : Closes rest) : Answers rest := by
  obtain ⟨before, blank, rfl | ⟨symbol, others, closing, rfl⟩⟩ := closes
  · exact answers_of_blanks blank
  · exact answers_of_written blank (.symbol symbol) (endsBefore_of_isClosing closing others)

/-- Whatever may follow a value ends every token. -/
theorem Closes.endsBefore (closes : Closes rest) (kind : Token.Kind) :
    Scan.EndsBefore kind rest := by
  obtain ⟨before, blank, found⟩ := closes
  match before with
  | [] =>
      rcases found with rfl | ⟨symbol, others, closing, rfl⟩
      · exact Scan.endsBefore_of_stops kind Scan.stops_nil (by simp)
      · rcases closing with rfl | rfl | rfl <;>
          exact Scan.endsBefore_of_stops kind (Scan.stops_cons (by decide) (by decide) _)
            (by simp [Symbol.text])
  | first :: others =>
      have isBlank := blank first List.mem_cons_self
      rcases found with rfl | ⟨symbol, others, closing, rfl⟩ <;>
        exact Scan.endsBefore_blank kind isBlank _

/-! ### What a value begins with -/

/-- Whether a text begins, after some blanks, with a token that closes no
container. -/
def Starts (text : List Char) : Prop :=
  ∃ blanks kind chars rest, text = blanks ++ (chars ++ rest) ∧ Blanks blanks ∧
    Scan.Written kind chars ∧ Scan.EndsBefore kind rest ∧
    ∀ symbol, IsClosing symbol → kind ≠ .symbol symbol

theorem starts_of_written {kind : Token.Kind} (written : Scan.Written kind chars)
    (ends : Scan.EndsBefore kind rest)
    (notClosing : ∀ symbol, IsClosing symbol → kind ≠ .symbol symbol) : Starts (chars ++ rest) :=
  ⟨[], kind, chars, rest, rfl, blanks_nil, written, ends, notClosing⟩

theorem Starts.after_blanks (starts : Starts rest) (blank : Blanks blanks) :
    Starts (blanks ++ rest) := by
  obtain ⟨before, kind, chars, others, rfl, blankBefore, found⟩ := starts
  exact ⟨blanks ++ before, kind, chars, others, by simp, blank.append blankBefore, found⟩

theorem Starts.answers (starts : Starts rest) : Answers rest := by
  obtain ⟨before, kind, chars, others, rfl, blank, written, ends, -⟩ := starts
  exact answers_of_written blank written ends

/-- The token that a text begins with. -/
theorem Starts.current {cursor : Cursor} (starts : Starts rest) (faces : cursor.Faces rest) :
    cursor.current.kind ≠ .endOfInput ∧
      ∀ symbol, IsClosing symbol → cursor.current.kind ≠ .symbol symbol := by
  obtain ⟨blanks, kind, chars, others, rfl, blank, written, ends, notClosing⟩ := starts
  rw [(faces.of_blanks blank).current_kind written ends]
  exact ⟨written.ne_endOfInput, notClosing⟩

theorem written_true : Scan.Written (.boolean true) "true".toList :=
  @Scan.Written.word 't' ['r', 'u', 'e'] (by decide) (List.all_eq_true.mp (by decide))

theorem written_false : Scan.Written (.boolean false) "false".toList :=
  @Scan.Written.word 'f' ['a', 'l', 's', 'e'] (by decide) (List.all_eq_true.mp (by decide))

theorem written_null : Scan.Written .null "null".toList :=
  @Scan.Written.word 'n' ['u', 'l', 'l'] (by decide) (List.all_eq_true.mp (by decide))

/-- Every text of the grammar begins with a token that closes no container. -/
theorem Spells.starts {phrase : Phrase} (spells : Spells phrase chars) (closes : Closes rest) :
    Starts (chars ++ rest) := by
  induction spells generalizing rest with
  | true => exact starts_of_written written_true (closes.endsBefore _) (by simp)
  | false => exact starts_of_written written_false (closes.endsBefore _) (by simp)
  | null => exact starts_of_written written_null (closes.endsBefore _) (by simp)
  | number isNumber known =>
      obtain ⟨sign, digits, rfl, rfl | rfl, unsigned, -⟩ := isNumber_iff.mp isNumber
      · exact starts_of_written (.number unsigned) (closes.endsBefore _) (by simp)
      · rw [List.append_assoc]
        refine starts_of_written (.symbol .minus) trivial ?_
        rintro symbol (rfl | rfl | rfl) <;> simp
  | string isString => exact starts_of_written isString.written trivial (by simp)
  | template isString => exact starts_of_written isString.written trivial (by simp)
  | emptyObject | object =>
      refine @starts_of_written _ ['{'] _ (.symbol .leftBrace) trivial ?_
      rintro symbol (rfl | rfl | rfl) <;> simp
  | emptyArray | array =>
      refine @starts_of_written _ ['['] _ (.symbol .leftBracket) trivial ?_
      rintro symbol (rfl | rfl | rfl) <;> simp
  | element blankBefore _ blankAfter ih =>
      have inner := ih (closes.after_blanks blankAfter)
      simpa using inner.after_blanks blankBefore
  | member blankBefore isString blankAfter _ _ =>
      have name := fun rest => @starts_of_written rest _ _ isString.written trivial (by simp)
      simpa using (name _).after_blanks blankBefore
  | lastElement _ ih | lastMember _ ih => exact ih closes
  | nextElement _ _ ih _ | nextMember _ _ ih _ =>
      have first := fun others => ih (closes_of_symbol (.inl rfl) others)
      simpa [Symbol.text] using first _

end TemplatedJson.JsonText
