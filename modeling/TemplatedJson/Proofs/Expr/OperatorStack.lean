import Mathlib.Logic.Relation
import TemplatedJson.Proofs.Expr.Ends
import TemplatedJson.Proofs.Expr.OperatorTree

/-!
# The loop over operators

The loop reads operands and operators from left to right.  Left operands wait on a stack
while operators that bind tighter follow, and they are combined once no such operator does.
Whatever the operators are, the loop builds the tree of the recursive grammar, and the stack
never holds more operands than there are levels.
-/

namespace TemplatedJson

/-! ### Operands that wait -/

namespace OperatorTree

/-- Left operands that wait for their right ones, the innermost one first. -/
abbrev Spine := List (OperatorTree × BinaryOperator)

/-- Combines waiting operands with the one to their right, as long as their operators bind at
least as tightly as `least`. -/
def unwind (least : Nat) : Spine → OperatorTree → Spine × OperatorTree
  | [], right => ([], right)
  | (left, operator) :: outer, right =>
      if least ≤ operator.precedence then unwind least outer (node operator left right)
      else ((left, operator) :: outer, right)

/-- Takes operators and operands one after the other, after the operand `right`. -/
def grow : Spine → OperatorTree → List (BinaryOperator × Measured) → OperatorTree
  | spine, right, [] => (unwind 0 spine right).2
  | spine, right, (operator, operand) :: rest =>
      let (outer, left) := unwind operator.precedence spine right
      grow ((left, operator) :: outer) (leaf operand) rest

/-- All waiting operands combined. -/
def joined : Spine → OperatorTree → OperatorTree
  | [], right => right
  | (left, operator) :: outer, right => joined outer (node operator left right)

/-- Whether ordered operands wait for operators that bind less tightly than `bound`, and the
less tightly the further out they wait. -/
inductive Waits : (bound : Nat) → Spine → Prop where
  | none {bound : Nat} : Waits bound []
  | operand {bound : Nat} {left : OperatorTree} {operator : BinaryOperator} {outer : Spine} :
      operator.precedence < bound → left.Ordered → operator.precedence ≤ left.level →
        Waits operator.precedence outer → Waits bound ((left, operator) :: outer)

variable {spine outer : Spine} {right other : OperatorTree} {least bound : Nat}

/-- Combining leaves operands for operators that bind less tightly than `least`, and an ordered
tree above. -/
theorem Waits.unwind (waits : Waits bound spine) (ordered : right.Ordered)
    (le_level : bound ≤ right.level) (le_bound : least ≤ bound) :
    Waits least (unwind least spine right).1 ∧ (unwind least spine right).2.Ordered ∧
      least ≤ (unwind least spine right).2.level := by
  induction waits generalizing right with
  | none => exact ⟨.none, ordered, Nat.le_trans le_bound le_level⟩
  | @operand bound left operator outer looser leftOrdered leftLevel waitsOuter ih =>
      unfold OperatorTree.unwind
      split
      · next tight =>
          have nodeOrdered : (node operator left right).Ordered :=
            .join leftLevel (Nat.lt_of_lt_of_le looser le_level) leftOrdered ordered
          exact ih nodeOrdered (Nat.le_refl _) tight
      · next loose =>
          exact ⟨.operand (Nat.lt_of_not_le loose) leftOrdered leftLevel waitsOuter, ordered,
            Nat.le_trans le_bound le_level⟩

/-- The loop keeps everything ordered. -/
theorem Waits.grow (waits : Waits bound spine) (ordered : right.Ordered)
    (le_level : bound ≤ right.level) (le_operand : Grammar.operandLevel ≤ bound)
    (rest : List (BinaryOperator × Measured)) : (grow spine right rest).Ordered := by
  induction rest generalizing bound spine right with
  | nil => exact (waits.unwind ordered le_level (Nat.zero_le bound)).2.1
  | cons sign rest ih =>
      obtain ⟨operator, operand⟩ := sign
      have tight := Grammar.precedence_lt operator
      obtain ⟨waitsOuter, leftOrdered, leftLevel⟩ :=
        waits.unwind ordered le_level (Nat.le_of_lt (Nat.lt_of_lt_of_le tight le_operand))
      exact ih (.operand tight leftOrdered leftLevel waitsOuter) (.alone operand) (Nat.le_refl _)
        (Nat.le_refl _)

end OperatorTree

/-! ### Runs -/

namespace Parse

open OperatorTree

variable {limits : Limits} {reader : Parse Measured} {cursor after : Cursor} {more : Nat}
  {rest : List (BinaryOperator × Measured)} {ending : Ending Unit} {first : Measured}

/-- The operands that wait, as the parser holds them. -/
def waiting (spine : Spine) : Pending :=
  spine.map fun (left, operator) => (left.measured, operator)

/-- Whether a tree is too tall for the limit. -/
def TooTall (limits : Limits) (tree : Measured) : Prop :=
  limits.maximum < limits.base + tree.height

theorem build_leadsTo {tree whole : Measured} (le : tree.height ≤ whole.height) (cursor : Cursor) :
    LeadsTo (TooTall limits whole) limits.maximum (runAt (build limits tree) cursor)
      (.ok tree, cursor) := by
  unfold build
  split
  · exact .refl _
  · next tooTall =>
      refine .inr ⟨?_, _, _, rfl⟩
      unfold TooTall
      omega

/-- What the parser yields for the operands and operators that are read, if no tree is too
tall: a tree of all of them, or the error behind them. -/
def expected (ending : Ending Unit) (tree : OperatorTree) : Ending Measured :=
  (ending.1.map fun _ => tree.measured, ending.2)

/-- Where the loop stands: the operands that wait, the one to their right, and the tokens
behind it, of which there are no more operators than `more`. -/
structure LoopState where
  more : Nat
  pending : Pending
  right : Measured
  cursor : Cursor

/-- What the loop yields from a state on. -/
def LoopState.run (limits : Limits) (reader : Parse Measured) (state : LoopState) :
    Ending Measured :=
  runAt (operatorChain limits reader state.more state.pending state.right) state.cursor

/-- How tightly operators bind whose operands are combined before the current token. -/
def leastAt (cursor : Cursor) : Nat :=
  match operatorOf? cursor.current.kind with
  | some operator => operator.precedence
  | none => 0

/-- One step of the loop: the innermost operand that waits is combined with the one to its
right, or else an operator and the operand behind it are read. -/
inductive LoopState.Step (limits : Limits) (reader : Parse Measured) :
    LoopState → LoopState → Prop where
  | combine {more : Nat} {left right : Measured} {operator : BinaryOperator} {outer : Pending}
      {cursor : Cursor} :
      leastAt cursor ≤ operator.precedence →
        ¬ TooTall limits (.binary operator left right) →
          Step limits reader ⟨more, (left, operator) :: outer, right, cursor⟩
            ⟨more, outer, .binary operator left right, cursor⟩
  | read {more : Nat} {right next : Measured} {operator : BinaryOperator} {pending : Pending}
      {cursor after : Cursor} :
      operatorOf? cursor.current.kind = some operator →
        (∀ one ∈ pending.head?, one.2.precedence < operator.precedence) →
          runAt (discard advance >>= fun _ => operand limits reader) cursor = (.ok next, after) →
            Step limits reader ⟨more + 1, pending, right, cursor⟩
              ⟨more, (right, operator) :: pending, next, after⟩

/-- Whether the operators of waiting operands bind the tighter the further in they wait. -/
def Rising (pending : Pending) : Prop :=
  pending.Pairwise fun inner outer => outer.2.precedence < inner.2.precedence

theorem LoopState.Step.rising {state next : LoopState} (step : Step limits reader state next)
    (rising : Rising state.pending) : Rising next.pending := by
  cases step with
  | combine tight fits => exact (List.pairwise_cons.mp rising).2
  | @read more right next operator pending cursor after found loose read =>
      refine List.pairwise_cons.mpr ⟨fun outer member => ?_, rising⟩
      cases pending with
      | nil => cases member
      | cons inner others =>
          have innermost := loose inner rfl
          rcases List.mem_cons.mp member with rfl | further
          · exact innermost
          · exact Nat.lt_trans ((List.pairwise_cons.mp rising).1 outer further) innermost

/-- A stack holds no more operands than there are levels below the one that it rises to. -/
theorem Rising.length_le {pending : Pending} {bound : Nat} (rising : Rising pending)
    (below : ∀ one ∈ pending.head?, one.2.precedence ≤ bound) : pending.length ≤ bound := by
  induction pending generalizing bound with
  | nil => exact Nat.zero_le _
  | cons inner others ih =>
      obtain ⟨above, risingOthers⟩ := List.pairwise_cons.mp rising
      have innermost := below inner rfl
      have positive := Grammar.precedence_pos inner.2
      have fewer := @ih (inner.2.precedence - 1) risingOthers fun outer found => by
        have lower := above outer (List.mem_of_mem_head? found)
        omega
      rw [List.length_cons]
      omega

end Parse

end TemplatedJson
