import TemplatedJson.Proofs.Document.Recognition
import TemplatedJson.Proofs.Expr.WellFormed
import TemplatedJson.Proofs.Node.Inherited
import TemplatedJson.Proofs.Session.Answers

/-!
# Well-formed trees are those that are read

A parser may begin in the middle of a text, after others have failed.  The tokens that
it meets there are still spelled as tokens are, so the trees that it yields are
well-formed, and printing a tree is undone by parsing exactly if it is.
-/

namespace TemplatedJson

open Parse

variable {text : String} {cursor after : Cursor} {tokens : List Token} {maximum : Nat}

/-- The tokens that a cursor in a text passes are spelled as tokens are. -/
theorem Cursor.Passes.lexical (passed : cursor.Passes tokens after)
    (sees : cursor.Sees (LexerAnswer.Concerns text.toList)) : ∀ token ∈ tokens, token.Lexical := by
  induction passed with
  | none cursor => simp
  | token notEnd known _ ih =>
      have stands : Token.StandsIn text.toList _ := sees.1
      exact List.forall_mem_cons.mpr ⟨stands.2 notEnd, ih ((Motion.sees _).follow known sees)⟩

theorem wellFormed_of_expression {limits : Limits} {tree : Expr}
    (sees : cursor.Sees (LexerAnswer.Concerns text.toList))
    (run : runAt (Parse.expression limits) cursor = (.ok tree, after)) : tree.WellFormed := by
  unfold Parse.expression at run
  rw [runAt_get_bind] at run
  obtain ⟨measured, inside, rfl⟩ := runAt_bind_pure_eq_ok.mp run
  obtain ⟨tokens, passed, derivation⟩ := Grammar.expressionWithin_reads limits _ inside
  exact derivation.wellFormed (passed.lexical sees)

/-! ### Templates -/

/-- Whether the expression of each template in a value has a property. -/
inductive Node.EachTemplate (holds : Expr → Prop) : Node → Prop where
  | literal (leaf : Literal) : EachTemplate holds (.literal leaf)
  | template {tree : Expr} : holds tree → EachTemplate holds (.template tree)
  | object {members : List (Member Node)} :
      (∀ member ∈ members, EachTemplate holds member.value) → EachTemplate holds (.object members)
  | array {elements : List Node} :
      (∀ element ∈ elements, EachTemplate holds element) → EachTemplate holds (.array elements)

theorem Node.inherited_eachTemplate (maximum : Nat) :
    Inherited maximum fun _ node => node.EachTemplate Expr.WellFormed where
  literal _ := .literal
  template _ parsed := .template (Expr.parseInside_eq_ok_iff.mp parsed).1.wellFormed
  object := .object
  array := .array

/-! ### Answers -/

/-- Whether all expressions of a tree are well-formed. -/
def Tree.WellFormed (tree : Tree) : Prop :=
  tree.Holds Expr.WellFormed (Node.EachTemplate Expr.WellFormed)

theorem Request.wellFormed_of_run (request : Request) {tree : Tree}
    (sees : cursor.Sees (LexerAnswer.Concerns text.toList))
    (run : runAt (request.parser maximum) cursor = (.ok tree, after)) : tree.WellFormed :=
  request.holds_of_run (wellFormed_of_expression sees)
    (Node.inherited_eachTemplate maximum).completeValue run

/-- All trees of the answers to a session are well-formed. -/
theorem wellFormed_of_runSession {requests : List Request} {answers : List (Except ParseError Tree)}
    {tree : Tree} (answered : runSession text maximum requests = .ok answers)
    (member : .ok tree ∈ answers) : tree.WellFormed := by
  obtain ⟨start, located, rfl⟩ := exists_of_map_eq_ok answered
  obtain ⟨request, middle, after, leads, run⟩ := Request.exists_run_of_mem (.sees _) member
  exact request.wellFormed_of_run (leads (Cursor.sees_of_ofText located)) run

theorem wellFormed_of_parseDocument {options : ParseOptions} {document : Document}
    (parsed : parseDocument text options = .ofExcept (.ok document)) :
    (Tree.document document).WellFormed := by
  obtain ⟨start, located, read⟩ := exists_of_parseDocument parsed
  have run : runAt (Request.document.parser options.maxDepth) start =
      (.ok (.document document), _) :=
    runAt_map_eq_ok.mpr ⟨document, Prod.ext read rfl, rfl⟩
  exact Request.document.wellFormed_of_run (Cursor.sees_of_ofText located) run

/-- Parsing undoes printing exactly for the well-formed trees that fit under the limit.
All trees that are ever read are well-formed: those of an expression, those of a
document, and those of any session, whatever failed in it before. -/
theorem printing_inverts_parsing :
    (∀ (tree : Expr) (options : ParseOptions),
      parseExpression tree.source options = .ofExcept (.ok tree) ↔
        tree.WellFormed ∧ tree.height ≤ options.maxDepth) ∧
    (∀ (text : String) (options : ParseOptions) (tree : Expr),
      parseExpression text options = .ofExcept (.ok tree) → tree.WellFormed) ∧
    (∀ (text : String) (options : ParseOptions) (document : Document),
      parseDocument text options = .ofExcept (.ok document) →
        (Tree.document document).WellFormed) ∧
    ∀ (text : String) (maximum : Nat) (requests : List Request)
      (answers : List (Except ParseError Tree)), runSession text maximum requests = .ok answers →
        ∀ tree, .ok tree ∈ answers → tree.WellFormed := by
  refine ⟨?_, ?_, ?_, ?_⟩
  · intro tree options
    rw [parseExpression_eq_ok_iff, Expr.spells_source_iff]
  · intro text options tree parsed
    exact (parseExpression_eq_ok_iff.mp parsed).1.wellFormed
  · intro text options document parsed
    exact wellFormed_of_parseDocument parsed
  · intro text maximum requests answers answered tree member
    exact wellFormed_of_runSession answered member

/-- A number before a property and a dollar sign before another are not taken for
other tokens. -/
theorem parse_printed_selection :
    parseExpression "1.e5($.x)" ⟨4⟩ = .ofExcept (.ok
      (.call (.select (.literal ⟨.number (.integer 1), "1"⟩) (.name "e5"))
        [.scope "." (.name "x")])) := by
  have wellFormed : Expr.WellFormed (.call (.select (.literal ⟨.number (.integer 1), "1"⟩)
      (.name "e5")) [.scope "." (.name "x")]) := by
    decide +kernel
  have printed : Expr.source (.call (.select (.literal ⟨.number (.integer 1), "1"⟩)
      (.name "e5")) [.scope "." (.name "x")]) = "1.e5($.x)" := by
    decide +kernel
  have parsed := (printing_inverts_parsing.1 _ ⟨4⟩).mpr ⟨wellFormed, by decide⟩
  rwa [printed] at parsed

end TemplatedJson
