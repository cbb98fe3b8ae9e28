import TemplatedJson.Proofs.Reading.Ensures

/-!
# The height of expressions that are read

Every node is checked against the limit when it is built, and leaves fit because
a level was entered for them.  So no expression that is read is taller than the
limit, containers around it included.
-/

namespace TemplatedJson.Parse

def Within (limits : Limits) (tree : Measured) : Prop :=
  limits.base + tree.height ≤ limits.maximum

variable {limits : Limits} {reader : Parse Measured}

theorem ensures_build (tree : Measured) : Ensures (build limits tree) (Within limits) := by
  unfold build
  apply Ensures.ite
  · intro fits
    exact .pure fits
  · intro _
    exact .tooDeep _

theorem ensures_primary (room : limits.base + 1 ≤ limits.maximum) :
    Ensures (primary limits reader) (Within limits) := by
  unfold primary
  apply Ensures.bind
  intro token
  split
  · split
    · exact .pure room
    · exact .throw _
  · exact .pure room
  · exact .pure room
  · exact .pure room
  · exact .pure room
  · exact .bind fun selector => ensures_build _
  · exact .bind fun selector => ensures_build _
  · exact .bind fun inner => .bind fun _ => ensures_build _
  · exact .failAt _ _

theorem ensures_postfixes (more : Nat) {base : Measured} (fits : Within limits base) :
    Ensures (postfixes limits reader more base) (Within limits) := by
  induction more generalizing base with
  | zero => exact .pure fits
  | succ more ih =>
      unfold postfixes
      refine .bind fun called => .ite (fun _ => ?_) (fun _ => ?_)
      · exact .bind fun _ => .bind fun _ => .bind_of (ensures_build _) fun _ => ih
      · refine .bind fun selects => .ite (fun _ => ?_) (fun _ => .pure fits)
        exact .bind fun _ => .bind_of (ensures_build _) fun _ => ih

theorem ensures_applyPrefixes (operators : List PrefixOperator) {operand : Measured}
    (fits : Within limits operand) :
    Ensures (applyPrefixes limits operators operand) (Within limits) := by
  cases operators with
  | nil => exact .pure fits
  | cons operator operators => exact .bind fun inner => ensures_build _

theorem ensures_operand (room : limits.base + 1 ≤ limits.maximum) :
    Ensures (operand limits reader) (Within limits) := by
  unfold operand
  refine .bind fun _ => .bind fun operators => .bind_of (ensures_primary room) ?_
  intro base baseFits
  refine .bind fun _ => .bind_of (ensures_postfixes _ baseFits) ?_
  intro chain chainFits
  exact ensures_applyPrefixes operators chainFits

theorem ensures_combine (least : Nat) (pending : Pending) {right : Measured}
    (fits : Within limits right) :
    Ensures (combine limits least pending right) fun result => Within limits result.2 := by
  induction pending generalizing right with
  | nil => exact .pure fits
  | cons waiting outer ih =>
      unfold combine
      refine .ite (fun _ => ?_) (fun _ => .pure fits)
      exact .bind_of (ensures_build _) fun _ => ih

theorem ensures_operatorChain (room : limits.base + 1 ≤ limits.maximum) (more : Nat)
    (pending : Pending) {right : Measured} (fits : Within limits right) :
    Ensures (operatorChain limits reader more pending right) (Within limits) := by
  induction more generalizing pending right with
  | zero => exact .bind_of (ensures_combine 0 pending fits) fun _ => .pure
  | succ more ih =>
      unfold operatorChain
      apply Ensures.bind
      intro found
      split
      · exact .bind_of (ensures_combine 0 pending fits) fun _ => .pure
      · refine .bind fun combined => .bind fun _ => .bind_of (ensures_operand room) ?_
        intro next nextFits
        exact ih _ nextFits

theorem ensures_level (room : limits.base + 1 ≤ limits.maximum) :
    Ensures (level limits reader) (Within limits) := by
  unfold level binary
  refine .bind_of (.bind_of (ensures_operand room) fun first firstFits =>
    .bind fun _ => ensures_operatorChain room _ [] firstFits) ?_
  intro condition conditionFits
  refine .bind fun asked => .ite (fun _ => ?_) (fun _ => .pure conditionFits)
  exact .bind fun _ => .bind fun _ => .bind fun _ => .bind fun _ => ensures_build _

/-- No expression that is read is taller than the limit. -/
theorem ensures_expressionWithin {levels : Nat}
    (room : levels ≠ 0 → limits.base + levels ≤ limits.maximum) :
    Ensures (expressionWithin limits levels) (Within limits) := by
  cases levels with
  | zero => exact .deeper (.tooDeep _)
  | succ levels =>
      have left := room (Nat.succ_ne_zero levels)
      exact .deeper (ensures_level (by omega))

end TemplatedJson.Parse
