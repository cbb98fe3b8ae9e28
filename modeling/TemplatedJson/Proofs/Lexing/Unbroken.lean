import TemplatedJson.Proofs.Lexing.Munch

/-!
# Tokens that hold line feeds

A line feed separates tokens, and inside of a string it is spelled as itself.  Strings in
double quotes do not allow that, so most tokens fit on a line.
-/

namespace TemplatedJson

namespace Quote

variable {quote : Quote} {chars values : List Char}

theorem not_mem_of_codeUnit {digits : List Char} {unit : Nat} (denotes : CodeUnit digits unit) :
    '\n' ∉ digits := by
  obtain ⟨values, denote, -, -⟩ := denotes
  intro member
  have known := List.mem_map_of_mem (f := hexDigit?) member
  rw [denote, List.mem_map] at known
  obtain ⟨value, -, same⟩ := known
  cases same

/-- A line feed among the spellings of a string spells itself, and double quotes do not allow
that. -/
theorem Spells.ne_double {value : Char} (spells : quote.Spells chars value)
    (broken : '\n' ∈ chars) : quote ≠ .double := by
  cases spells with
  | plain _ _ printable =>
      rintro rfl
      rw [← List.mem_singleton.mp broken] at printable
      exact absurd (printable rfl) (by decide)
  | @short mark value notUnicode known =>
      have isMark : mark = '\n' := by simpa [eq_comm] using broken
      rw [isMark] at known
      cases quote <;> cases known
  | unit denotes =>
      simp [not_mem_of_codeUnit denotes] at broken
  | pair firstDenotes secondDenotes _ =>
      simp [not_mem_of_codeUnit firstDenotes, not_mem_of_codeUnit secondDenotes] at broken

theorem SpellsAll.ne_double (spells : quote.SpellsAll chars values) (broken : '\n' ∈ chars) :
    quote ≠ .double := by
  induction spells with
  | nil => cases broken
  | cons spells _ ih =>
      rcases List.mem_append.mp broken with here | later
      · exact spells.ne_double here
      · exact ih later

end Quote

/-- Of all tokens only strings in single or back quotes can hold a line feed. -/
theorem Scan.Written.exists_quote {kind : Token.Kind} {chars : List Char}
    (written : Scan.Written kind chars) (broken : '\n' ∈ chars) :
    ∃ content quote, kind = .string content quote ∧ quote ≠ .double := by
  cases kind with
  | string content quote =>
      obtain ⟨inside, rfl, spells⟩ := written.spelled
      refine ⟨content, quote, rfl, spells.ne_double ?_⟩
      have notQuote : '\n' ≠ quote.character := by cases quote <;> decide
      simpa [notQuote] using broken
  | _ =>
      exact absurd broken
        ((Scan.foreign_of_isJsonBlank rfl).not_mem_of_written written (by simp))

end TemplatedJson
