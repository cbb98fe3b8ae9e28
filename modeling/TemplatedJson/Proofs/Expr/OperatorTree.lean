import TemplatedJson.Expr.Measured
import TemplatedJson.Proofs.Expr.Grammar

/-!
# Trees of binary operators

Operands that are joined by binary operators make up many trees.  In only one of them no
operator stands above one that binds less tightly, and operators of one level associate to
the left.  Recursive descent finds this tree, level by level, and so does a stack of operands
that wait while tighter operators follow.
-/

namespace TemplatedJson

/-- Operands joined by binary operators. -/
inductive OperatorTree where
  | leaf (operand : Measured)
  | node (operator : BinaryOperator) (left right : OperatorTree)

/-- Operands in a row with operators between them. -/
@[ext]
structure OperandRow where
  first : Measured
  rest : List (BinaryOperator × Measured)

namespace OperatorTree

/-- The expression that a tree stands for. -/
def measured : OperatorTree → Measured
  | leaf operand => operand
  | node operator left right => .binary operator left.measured right.measured

/-- The operands of a tree from left to right. -/
def reading : OperatorTree → OperandRow
  | leaf operand => ⟨operand, []⟩
  | node operator left right =>
      ⟨left.reading.first,
        left.reading.rest ++ (operator, right.reading.first) :: right.reading.rest⟩

/-- How tightly the operator at the root binds.  Operands stand above all operators. -/
def level : OperatorTree → Nat
  | leaf _ => Grammar.operandLevel
  | node operator _ _ => operator.precedence

/-- Whether each operator binds no tighter than one right below it to the left, and less
tightly than one right below it to the right. -/
inductive Ordered : OperatorTree → Prop where
  | alone (operand : Measured) : Ordered (leaf operand)
  | join {operator : BinaryOperator} {left right : OperatorTree} :
      operator.precedence ≤ left.level → operator.precedence < right.level →
        Ordered left → Ordered right → Ordered (node operator left right)

variable {tree other left right otherLeft otherRight : OperatorTree}
  {operator otherOperator : BinaryOperator}

/-! ### Only one tree is ordered -/

/-- The operator at the root of an ordered tree binds least tightly. -/
theorem Ordered.level_le (ordered : tree.Ordered) :
    ∀ sign ∈ tree.reading.rest, tree.level ≤ sign.1.precedence := by
  induction ordered with
  | alone operand => simp [reading]
  | join leftLe rightLt _ _ ihLeft ihRight =>
      intro sign member
      simp only [reading, List.mem_append, List.mem_cons] at member
      rcases member with inLeft | rfl | inRight
      · exact Nat.le_trans leftLe (ihLeft sign inLeft)
      · exact Nat.le_refl _
      · exact Nat.le_of_lt (Nat.lt_of_lt_of_le rightLt (ihRight sign inRight))

/-- Where two ordered trees read the same, the root of the one does not stand before the root
of the other. -/
theorem root_not_before {between : List (BinaryOperator × Measured)}
    (rightLt : operator.precedence < right.level) (rightOrdered : right.Ordered)
    (otherLe : otherOperator.precedence ≤ otherLeft.level) (otherOrdered : otherLeft.Ordered)
    (before : otherLeft.reading.rest = left.reading.rest ++ between)
    (after : (operator, right.reading.first) :: right.reading.rest =
      between ++ (otherOperator, otherRight.reading.first) :: otherRight.reading.rest) :
    between = [] := by
  cases between with
  | nil => rfl
  | cons sign between =>
      exfalso
      obtain ⟨rfl, rightRest⟩ := List.cons.inj after
      have inRight := rightOrdered.level_le (otherOperator, otherRight.reading.first)
        (by simp [rightRest])
      have inLeft := otherOrdered.level_le (operator, right.reading.first) (by simp [before])
      dsimp only at inRight inLeft
      omega

/-- Operands in a row make up only one ordered tree. -/
theorem Ordered.unique (ordered : tree.Ordered) (otherOrdered : other.Ordered)
    (same : tree.reading = other.reading) : tree = other := by
  induction ordered generalizing other with
  | alone operand =>
      cases otherOrdered with
      | alone otherOperand =>
          obtain ⟨rfl, -⟩ := OperandRow.mk.inj same
          rfl
      | join _ _ _ _ => simp [reading] at same
  | @join operator left right leftLe rightLt leftOrdered rightOrdered ihLeft ihRight =>
      cases otherOrdered with
      | alone otherOperand => simp [reading] at same
      | @join otherOperator otherLeft otherRight otherLe otherLt otherLeftOrdered
          otherRightOrdered =>
          obtain ⟨first, rest⟩ := OperandRow.mk.inj same
          have lefts : left.reading.rest = otherLeft.reading.rest := by
            rcases List.append_eq_append_iff.mp rest with ⟨between, before, after⟩ |
              ⟨between, before, after⟩
            · obtain rfl :=
                root_not_before rightLt rightOrdered otherLe otherLeftOrdered before after
              rw [before, List.append_nil]
            · obtain rfl :=
                root_not_before otherLt otherRightOrdered leftLe leftOrdered before after
              rw [before, List.append_nil]
          rw [lefts, List.append_cancel_left_eq, List.cons.injEq, Prod.mk.injEq] at rest
          obtain ⟨⟨rfl, rightFirst⟩, rightRest⟩ := rest
          rw [ihLeft otherLeftOrdered (OperandRow.ext first lefts),
            ihRight otherRightOrdered (OperandRow.ext rightFirst rightRest)]

/-! ### Recursive descent -/

end OperatorTree

end TemplatedJson
