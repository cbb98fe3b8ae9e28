import TemplatedJson.Proofs.Document.Recognition
import TemplatedJson.Proofs.Node.Printing

/-!
# Printed documents

A document that was read is printed to texts that are read as the same document
under the same limit.
-/

namespace TemplatedJson

variable {text : String} {document : Document}

theorem Document.Spells.source (spells : document.Spells text) :
    document.Spells document.source := by
  cases document with
  | json node =>
      have isText : JsonText.IsText text.toList node := spells
      exact isText.printed.1
  | expression tree =>
      have isExpression : Expr.Spells text tree := spells
      exact isExpression.source

theorem Document.Spells.indentedSource (spells : document.Spells text) :
    document.Spells document.indentedSource := by
  cases document with
  | json node =>
      have isText : JsonText.IsText text.toList node := spells
      exact isText.printed.2 0
  | expression tree => exact spells.source

/-- Printing a document that was read and reading it again under the same limit
gives the same document, whether it is printed with indentation or without. -/
theorem parseDocument_printed (text : String) (options : ParseOptions) (document : Document)
    (parsed : parseDocument text options = .ofExcept (.ok document)) :
    parseDocument document.source options = .ofExcept (.ok document) ∧
      parseDocument document.indentedSource options = .ofExcept (.ok document) := by
  obtain ⟨spells, fits⟩ := parseDocument_eq_ok_iff.mp parsed
  exact ⟨parseDocument_eq_ok_iff.mpr ⟨spells.source, fits⟩,
    parseDocument_eq_ok_iff.mpr ⟨spells.indentedSource, fits⟩⟩

/-- A block template is printed as an inline one, and blanks are printed anew. -/
theorem parseDocument_printed_block :
    parseDocument "[ \"\x7b\x7ba\x7d\x7d\" ]" ⟨2⟩ =
        .ofExcept (.ok (.json (.array [.template (.identifier "a")]))) ∧
      parseDocument "[\"=a\"]" ⟨2⟩ =
        .ofExcept (.ok (.json (.array [.template (.identifier "a")]))) ∧
      parseDocument "[\n  \"=a\"\n]" ⟨2⟩ =
        .ofExcept (.ok (.json (.array [.template (.identifier "a")]))) := by
  let document : Document := .json (.array [.template (.identifier "a")])
  have parsed : parseDocument "[ \"\x7b\x7ba\x7d\x7d\" ]" ⟨2⟩ = .ofExcept (.ok document) := by
    decide +kernel
  have plain : document.source = "[\"=a\"]" := by decide +kernel
  have indented : document.indentedSource = "[\n  \"=a\"\n]" := by decide +kernel
  have printed := parseDocument_printed _ _ document parsed
  rw [plain, indented] at printed
  exact ⟨parsed, printed⟩

end TemplatedJson
