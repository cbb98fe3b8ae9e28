import TemplatedJson.Proofs.Document.Recognition
import TemplatedJson.Proofs.Json.Trees

/-!
# Serialized trees

The plain JSON of a tree that was read loses nothing, neither without blanks nor
indented: trees that differ anywhere have different texts.
-/

namespace TemplatedJson

/-! ### Exact trees -/

theorem Expr.Spells.exact {tree : Expr} {text : String} (spells : tree.Spells text) :
    tree.Exact := by
  obtain ⟨tokens, final, -, derivation⟩ := spells
  exact derivation.exact

namespace Document

/-- Whether the value of each number in a document is what its text denotes. -/
def Exact : Document → Prop
  | json value => value.Exact
  | expression single => single.Exact

theorem Spells.exact {document : Document} {text : String} (spells : document.Spells text) :
    document.Exact := by
  cases document with
  | json node =>
      obtain ⟨-, element⟩ := spells
      exact JsonText.Spells.exact element node List.mem_cons_self
  | expression tree => exact Expr.Spells.exact spells

/-- A document is told by the outline of its plain JSON. -/
theorem eq_of_outline {first second : Document} (exact : first.Exact) (otherExact : second.Exact)
    (same : first.toJson.outline = second.toJson.outline) : first = second := by
  cases first <;> cases second <;>
    simp [toJson, typeName, Json.outline, Json.memberOutlines] at same
  · rw [Node.eq_of_outline _ _ exact otherExact same]
  · rw [Expr.eq_of_outline _ _ exact otherExact same]

end Document

/-! ### Texts of trees -/

/-- Documents and expressions that were read, from whatever texts and under whatever
limits, are the same if their plain JSON has the same text in either layout.  So the
text tells which selectors are computed, where a literal stands, how each literal was
written, and in which order members come. -/
theorem serialization_loses_nothing (text otherText : String) (options otherOptions : ParseOptions) :
    (∀ first second : Document, parseDocument text options = .ofExcept (.ok first) →
      parseDocument otherText otherOptions = .ofExcept (.ok second) →
        first.toJson.compact = second.toJson.compact ∨ first.toJson.pretty = second.toJson.pretty →
          first = second) ∧
    ∀ first second : Expr, parseExpression text options = .ofExcept (.ok first) →
      parseExpression otherText otherOptions = .ofExcept (.ok second) →
        first.toJson.compact = second.toJson.compact ∨ first.toJson.pretty = second.toJson.pretty →
          first = second := by
  constructor
  · intro first second parsed otherParsed same
    have exact := (parseDocument_eq_ok_iff.mp parsed).1.exact
    have otherExact := (parseDocument_eq_ok_iff.mp otherParsed).1.exact
    exact Document.eq_of_outline exact otherExact (Json.outline_eq_of_text same)
  · intro first second parsed otherParsed same
    have exact := (parseExpression_eq_ok_iff.mp parsed).1.exact
    have otherExact := (parseExpression_eq_ok_iff.mp otherParsed).1.exact
    exact Expr.eq_of_outline _ _ exact otherExact (Json.outline_eq_of_text same)

/-- Two zeros with different texts, and a name that is selected in two ways. -/
theorem serialization_of_spellings :
    (∃ first second : Document, parseDocument "[-0]" ⟨1⟩ = .ofExcept (.ok first) ∧
      parseDocument "[0]" ⟨4⟩ = .ofExcept (.ok second) ∧
        first.toJson.compact ≠ second.toJson.compact ∧
          first.toJson.pretty ≠ second.toJson.pretty) ∧
    ∃ first second : Expr, parseExpression "a.b" ⟨2⟩ = .ofExcept (.ok first) ∧
      parseExpression "a [ b ]" ⟨3⟩ = .ofExcept (.ok second) ∧
        first.toJson.compact = second.toJson.compact ∧ first = second := by
  have negative : parseDocument "[-0]" ⟨1⟩ =
      .ofExcept (.ok (.json (.array [.literal ⟨.number (.integer 0), "-0"⟩]))) := by
    decide +kernel
  have plain : parseDocument "[0]" ⟨4⟩ =
      .ofExcept (.ok (.json (.array [.literal ⟨.number (.integer 0), "0"⟩]))) := by
    decide +kernel
  have dotted : parseExpression "a.b" ⟨2⟩ =
      .ofExcept (.ok (.select (.identifier "a") (.name "b"))) := by
    decide +kernel
  have bracketed : parseExpression "a [ b ]" ⟨3⟩ =
      .ofExcept (.ok (.select (.identifier "a") (.name "b"))) := by
    decide +kernel
  obtain ⟨documents, -⟩ := serialization_loses_nothing "[-0]" "[0]" ⟨1⟩ ⟨4⟩
  obtain ⟨-, expressions⟩ := serialization_loses_nothing "a.b" "a [ b ]" ⟨2⟩ ⟨3⟩
  refine ⟨⟨_, _, negative, plain, ?_, ?_⟩, _, _, dotted, bracketed, rfl, ?_⟩
  · intro same
    exact absurd (documents _ _ negative plain (.inl same)) (by decide)
  · intro same
    exact absurd (documents _ _ negative plain (.inr same)) (by decide)
  · exact expressions _ _ dotted bracketed (.inl rfl)

end TemplatedJson
