import TemplatedJson.Proofs.Expr.Literals
import TemplatedJson.Proofs.Node.Printing

/-!
# Literals of JSON values

The literals of a value stand in its text as they are, and its templates are expressions
that were read from the content of strings.
-/

namespace TemplatedJson

/-- Whether each literal and each expression of a value has a property. -/
inductive Node.EachLeaf (literal : Literal → Prop) (template : Expr → Prop) : Node → Prop where
  | literal {leaf : Literal} : literal leaf → EachLeaf literal template (.literal leaf)
  | template {tree : Expr} : template tree → EachLeaf literal template (.template tree)
  | object {members : List (Member Node)} :
      (∀ member ∈ members, EachLeaf literal template member.value) →
        EachLeaf literal template (.object members)
  | array {elements : List Node} :
      (∀ element ∈ elements, EachLeaf literal template element) →
        EachLeaf literal template (.array elements)

/-- Whether the value of each number in a value is what its text denotes. -/
def Node.Exact (node : Node) : Prop :=
  node.EachLeaf Literal.Exact Expr.Exact

namespace JsonText

variable {phrase : Phrase} {chars : List Char} {node : Node}

theorem Spells.exact (spells : Spells phrase chars) : ∀ node ∈ phrase.nodes, node.Exact := by
  induction spells with
  | true | false | null | string =>
      simp only [Phrase.nodes, List.mem_singleton, forall_eq]
      exact .literal fun _ same => by cases same
  | number _ known =>
      simp only [Phrase.nodes, List.mem_singleton, forall_eq]
      refine .literal fun number same => ?_
      rw [known, Literal.Value.number.inj same]
  | template _ _ parsed =>
      obtain ⟨tokens, final, -, derivation⟩ := (parseExpression_eq_ok_iff.mp parsed).1
      simp only [Phrase.nodes, List.mem_singleton, forall_eq]
      exact .template derivation.exact
  | emptyObject =>
      simp only [Phrase.nodes, List.mem_singleton, forall_eq]
      exact .object (List.forall_mem_nil _)
  | emptyArray =>
      simp only [Phrase.nodes, List.mem_singleton, forall_eq]
      exact .array (List.forall_mem_nil _)
  | object _ ih =>
      simp only [Phrase.nodes, List.mem_singleton, forall_eq]
      exact .object (List.forall_mem_map.mp ih)
  | array _ ih =>
      simp only [Phrase.nodes, List.mem_singleton, forall_eq]
      exact .array ih
  | element _ _ _ ih | member _ _ _ _ ih | lastElement _ ih | lastMember _ ih => exact ih
  | nextElement _ _ ih ihMore | nextMember _ _ ih ihMore =>
      exact List.forall_mem_cons.mpr ⟨ih _ List.mem_cons_self, ihMore⟩

end JsonText

end TemplatedJson
