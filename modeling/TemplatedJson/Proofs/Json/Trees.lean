import TemplatedJson.Json.Tree
import TemplatedJson.Proofs.Json.Outline
import TemplatedJson.Proofs.Node.Literals

/-!
# Trees as plain JSON

The first member of each node tells what the node is, and the other members tell its
parts.  The value of a number is found again from the text that it was written with, so
the outline of the plain JSON tells the whole tree.
-/

namespace TemplatedJson

open Json (quote memberOutlines)

/-! ### Literals -/

/-- A literal is told by its members, whose number is recovered from its text. -/
theorem Literal.eq_of_outlines {first second : Literal} (exact : first.Exact)
    (otherExact : second.Exact)
    (same : memberOutlines first.members = memberOutlines second.members) : first = second := by
  obtain ⟨value, raw⟩ := first
  obtain ⟨otherValue, otherRaw⟩ := second
  simp only [members, memberOutlines, Json.outline, List.cons.injEq, Prod.mk.injEq,
    Outline.single.injEq, Json.quote_inj, and_true, true_and] at same
  obtain ⟨kinds, values, rfl⟩ := same
  cases value <;> cases otherValue <;>
    simp [kindName, Value.toJson, Json.outline, Json.booleanText] at kinds values ⊢
  · exact values
  · exact Option.some.inj ((exact _ rfl).symm.trans (otherExact _ rfl))
  · next value otherValue => cases value <;> cases otherValue <;> simp_all

/-! ### Expressions -/

theorem Symbol.text_inj {first second : Symbol} : first.text = second.text ↔ first = second := by
  refine ⟨fun same => ?_, congrArg Symbol.text⟩
  cases first <;> cases second <;> first | rfl | exact absurd same (by decide)

/-- Whatever can be found again from its symbol is told by the text of the symbol. -/
theorem Symbol.eq_of_text {Operator : Type} {find? : Symbol → Option Operator}
    {symbol : Operator → Symbol} (finds : ∀ operator, find? (symbol operator) = some operator)
    {first second : Operator} (same : (symbol first).text = (symbol second).text) :
    first = second := by
  have found := finds first
  rw [Symbol.text_inj.mp same, finds second] at found
  exact (Option.some.inj found).symm

theorem BinaryOperator.text_inj {first second : BinaryOperator} :
    first.text = second.text ↔ first = second :=
  ⟨Symbol.eq_of_text fun _ => ofSymbol?_eq_some_iff.mpr rfl, congrArg text⟩

theorem PrefixOperator.text_inj {first second : PrefixOperator} :
    first.text = second.text ↔ first = second :=
  ⟨Symbol.eq_of_text fun _ => ofSymbol?_eq_some_iff.mpr rfl, congrArg text⟩

namespace Expr

@[simp]
theorem outline_tagged (expr : Expr) (parts : List (Member Json)) :
    (expr.tagged parts).outline =
      .object ((quote "type", .single [quote expr.typeName]) :: memberOutlines parts) := by
  simp [tagged, Json.outline, memberOutlines]

theorem outline_ne_single (expr : Expr) (leaves : List String) :
    expr.toJson.outline ≠ .single leaves := by
  cases expr <;> simp [toJson]

mutual

/-- An expression is told by the outline of its plain JSON. -/
theorem eq_of_outline : (first second : Expr) → first.Exact → second.Exact →
    first.toJson.outline = second.toJson.outline → first = second
  | literal leaf, second, exact, otherExact, same => by
      cases second <;> simp [toJson, typeName] at same
      simp only [Exact, literals, List.mem_singleton, forall_eq] at exact otherExact
      rw [Literal.eq_of_outlines exact otherExact same]
  | identifier name, second, _, _, same => by
      cases second <;> simp [toJson, typeName, memberOutlines, Json.outline] at same
      rw [same]
  | scope name selector, second, exact, otherExact, same => by
      cases second <;> simp [toJson, typeName, memberOutlines, Json.outline] at same
      rw [same.1, eq_of_selectorOutline selector _ exact otherExact same.2]
  | select base selector, second, exact, otherExact, same => by
      cases second <;> simp [toJson, typeName, memberOutlines] at same
      simp only [Exact, literals, List.forall_mem_append] at exact otherExact
      rw [eq_of_outline base _ exact.1 otherExact.1 same.1,
        eq_of_selectorOutline selector _ exact.2 otherExact.2 same.2]
  | call callee arguments, second, exact, otherExact, same => by
      cases second <;> simp [toJson, typeName, memberOutlines, Json.outline] at same
      simp only [Exact, literals, List.forall_mem_append] at exact otherExact
      rw [eq_of_outline callee _ exact.1 otherExact.1 same.1,
        eq_of_listOutlines arguments _ exact.2 otherExact.2 same.2]
  | prefixed operator operand, second, exact, otherExact, same => by
      cases second <;>
        simp [toJson, typeName, memberOutlines, Json.outline, PrefixOperator.text_inj] at same
      simp only [Exact, literals] at exact otherExact
      rw [same.1, eq_of_outline operand _ exact otherExact same.2]
  | binary operator left right, second, exact, otherExact, same => by
      cases second <;>
        simp [toJson, typeName, memberOutlines, Json.outline, BinaryOperator.text_inj] at same
      simp only [Exact, literals, List.forall_mem_append] at exact otherExact
      rw [same.1, eq_of_outline left _ exact.1 otherExact.1 same.2.1,
        eq_of_outline right _ exact.2 otherExact.2 same.2.2]
  | conditional condition consequent alternate, second, exact, otherExact, same => by
      cases second <;> simp [toJson, typeName, memberOutlines] at same
      simp only [Exact, literals, List.forall_mem_append] at exact otherExact
      rw [eq_of_outline condition _ exact.1 otherExact.1 same.1,
        eq_of_outline consequent _ exact.2.1 otherExact.2.1 same.2.1,
        eq_of_outline alternate _ exact.2.2 otherExact.2.2 same.2.2]
  | parenthesized inner, second, exact, otherExact, same => by
      cases second <;> simp [toJson, typeName, memberOutlines] at same
      simp only [Exact, literals] at exact otherExact
      rw [eq_of_outline inner _ exact otherExact same]

/-- A fixed name is a string and a computed key is an object. -/
theorem eq_of_selectorOutline : (first second : Selector Expr) →
    (∀ leaf ∈ selectorLiterals first, leaf.Exact) → (∀ leaf ∈ selectorLiterals second, leaf.Exact) →
      (selectorToJson first).outline = (selectorToJson second).outline → first = second
  | .name name, second, _, _, same => by
      cases second with
      | name other => simpa [selectorToJson, Json.outline] using same
      | key key => exact absurd same.symm (outline_ne_single key _)
  | .key key, second, exact, otherExact, same => by
      cases second with
      | name other => exact absurd same (outline_ne_single key _)
      | key other => rw [eq_of_outline key other exact otherExact same]

theorem eq_of_listOutlines : (first second : List Expr) →
    (∀ leaf ∈ listLiterals first, leaf.Exact) → (∀ leaf ∈ listLiterals second, leaf.Exact) →
      Json.elementOutlines (listToJson first) = Json.elementOutlines (listToJson second) →
        first = second
  | [], second, _, _, same => by
      cases second <;> simp [listToJson, Json.elementOutlines] at same ⊢
  | head :: tail, second, exact, otherExact, same => by
      cases second <;> simp [listToJson, Json.elementOutlines] at same
      simp only [listLiterals, List.forall_mem_append] at exact otherExact
      rw [eq_of_outline head _ exact.1 otherExact.1 same.1,
        eq_of_listOutlines tail _ exact.2 otherExact.2 same.2]

end

end Expr

/-! ### JSON values -/

namespace Node

@[simp]
theorem outline_tagged (node : Node) (parts : List (Member Json)) :
    (node.tagged parts).outline =
      .object ((quote "type", .single [quote node.typeName]) :: Json.memberOutlines parts) := by
  simp [tagged, Json.outline, Json.memberOutlines]

mutual

/-- A value is told by the outline of its plain JSON. -/
theorem eq_of_outline : (first second : Node) → first.Exact → second.Exact →
    first.toJson.outline = second.toJson.outline → first = second
  | object members, second, .object exact, otherExact, same => by
      cases otherExact <;> simp [toJson, typeName, Json.memberOutlines, Json.outline] at same
      next otherExact => rw [eq_of_memberOutlines members _ exact otherExact same]
  | array elements, second, .array exact, otherExact, same => by
      cases otherExact <;> simp [toJson, typeName, Json.memberOutlines, Json.outline] at same
      next otherExact => rw [eq_of_elementOutlines elements _ exact otherExact same]
  | literal leaf, second, .literal exact, otherExact, same => by
      cases otherExact <;> simp [toJson, typeName] at same
      next otherExact => rw [Literal.eq_of_outlines exact otherExact same]
  | template tree, second, .template exact, otherExact, same => by
      cases otherExact <;> simp [toJson, typeName, Json.memberOutlines] at same
      next otherExact => rw [tree.eq_of_outline _ exact otherExact same]

theorem eq_of_memberOutlines : (first second : List (Member Node)) →
    (∀ member ∈ first, member.value.Exact) → (∀ member ∈ second, member.value.Exact) →
      Json.elementOutlines (membersToJson first) = Json.elementOutlines (membersToJson second) →
        first = second
  | [], second, _, _, same => by
      cases second <;> simp [membersToJson, Json.elementOutlines] at same ⊢
  | ⟨key, value⟩ :: rest, second, exact, otherExact, same => by
      cases second <;>
        simp [membersToJson, Json.elementOutlines, Json.outline, Json.memberOutlines] at same
      simp only [List.forall_mem_cons] at exact otherExact
      next other others =>
        obtain ⟨otherKey, otherValue⟩ := other
        rw [same.1.1, eq_of_outline value otherValue exact.1 otherExact.1 same.1.2,
          eq_of_memberOutlines rest others exact.2 otherExact.2 same.2]

theorem eq_of_elementOutlines : (first second : List Node) →
    (∀ element ∈ first, element.Exact) → (∀ element ∈ second, element.Exact) →
      Json.elementOutlines (elementsToJson first) = Json.elementOutlines (elementsToJson second) →
        first = second
  | [], second, _, _, same => by
      cases second <;> simp [elementsToJson, Json.elementOutlines] at same ⊢
  | head :: tail, second, exact, otherExact, same => by
      cases second <;> simp [elementsToJson, Json.elementOutlines] at same
      simp only [List.forall_mem_cons] at exact otherExact
      rw [eq_of_outline head _ exact.1 otherExact.1 same.1,
        eq_of_elementOutlines tail _ exact.2 otherExact.2 same.2]

end

end Node

end TemplatedJson
