import TemplatedJson.Proofs.Supervision.Progress

/-!
# Expressions under supervision

Every level within a level stands behind an opening bracket, a question mark or a colon, and
every loop passes a token with each iteration.  So a supervisor of an expression has no
reason to step in.
-/

namespace TemplatedJson.Parse

variable {supervisor : Supervisor} {frame : Frame} {cursor : Cursor} {passed : Nat}
  {limits : Limits} {checked reader : Parse Measured}

/-! ### Operators -/

theorem obeysAt_prefixOperators {more fuel bound : Nat} (enough : cursor.tokensLeft ≤ more)
    (fueled : cursor.tokensLeft < fuel) (fewer : cursor.tokensLeft < bound) :
    ObeysAt frame cursor 0 0 (runAt (supervisor.prefixOperators frame fuel bound) cursor)
      (runAt (prefixOperators more) cursor) := by
  induction more generalizing cursor fuel bound with
  | zero =>
      obtain _ | fuel := fuel
      · exact absurd fueled (Nat.not_lt_zero _)
      · have ended := Cursor.kind_of_tokensLeft (Nat.le_zero.mp enough)
        unfold Supervisor.prefixOperators prefixOperators
        refine obeysAt_iteration_bind fewer ?_
        rw [runAt_currentKind_bind, ended]
        exact .pure (Nat.le_refl _)
  | succ more ih =>
      obtain _ | fuel := fuel
      · exact absurd fueled (Nat.not_lt_zero _)
      · unfold Supervisor.prefixOperators prefixOperators
        refine obeysAt_iteration_bind fewer ?_
        rw [runAt_currentKind_bind, runAt_currentKind_bind]
        cases kind : cursor.current.kind with
        | symbol symbol =>
            dsimp only
            cases PrefixOperator.ofSymbol? symbol with
            | none => exact .pure (Nat.le_refl _)
            | some operator =>
                refine (obeysAt_discard_advance kind).bind fun _ after _ left => ?_
                refine ObeysAt.bind ?_ fun _ _ _ _ => .pure (Nat.zero_le 1)
                have others := @ih after fuel cursor.tokensLeft (by omega) (by omega) (by omega)
                exact others.weaken (Nat.zero_le _) (Nat.le_refl _)
        | _ => exact .pure (Nat.le_refl _)

theorem obeys_applyPrefixes (operators : List PrefixOperator) (operand : Measured) :
    Obeys frame passed passed (applyPrefixes limits operators operand)
      (applyPrefixes limits operators operand) := by
  induction operators with
  | nil => exact obeys_pure (Nat.le_refl _)
  | cons operator operators ih => exact ih.bind fun tree => obeys_build _ _ (Nat.le_refl _)

theorem obeys_combine (least : Nat) (pending : Pending) (right : Measured) :
    Obeys frame passed passed (combine limits least pending right)
      (combine limits least pending right) := by
  induction pending generalizing right with
  | nil => exact obeys_pure (Nat.le_refl _)
  | cons waiting outer ih =>
      obtain ⟨left, operator⟩ := waiting
      unfold combine
      apply Obeys.ite
      · exact (obeys_build _ _ (Nat.le_refl _)).bind fun tree => ih tree
      · exact obeys_pure (Nat.le_refl _)

/-! ### Selectors and primary expressions -/

theorem obeys_propertyName :
    Obeys frame passed passed (supervisor.propertyName frame) propertyName := by
  refine Obeys.watched (obeys_advance_bind fun token => ?_)
  split
  · exact obeys_pure (Nat.le_add_right _ _)
  · exact obeys_pure (Nat.le_add_right _ _)
  · exact obeys_pure (Nat.le_add_right _ _)
  · exact obeys_failAt _ _

section Levels

variable (reads : Obeys frame 1 1 checked reader)

include reads

theorem obeys_bracketKey :
    Obeys frame 1 1 (supervisor.bracketKey frame checked) (bracketKey reader) := by
  have computed : Obeys frame 1 1 (checked >>= fun key => pure (Selector.key key))
      (reader >>= fun key => pure (Selector.key key)) :=
    reads.bind fun key => obeys_pure (Nat.le_refl _)
  refine Obeys.watched fun cursor => ?_
  unfold bracketKey
  rw [runAt_currentKind_bind, runAt_currentKind_bind]
  split
  · refine obeys_peek.bind (fun token => ?_) cursor
    split
    · exact obeys_discard_advance.bind fun _ => obeys_pure (Nat.le_refl _)
    · exact computed
  · exact computed cursor

theorem obeys_selector :
    Obeys frame 0 1 (supervisor.selector frame checked) (selector reader) := by
  refine Obeys.watched fun cursor => ?_
  unfold selector
  rw [runAt_isAt_bind, runAt_isAt_bind]
  split
  · next found =>
      have atDot : cursor.current.kind = .symbol .dot := by simpa using found
      refine (obeysAt_discard_advance atDot).bind fun _ after _ _ => ?_
      exact (obeys_propertyName.bind fun name => obeys_pure (Nat.le_refl _)) after
  · refine (obeys_expect .leftBracket).bind (fun _ => ?_) cursor
    refine (obeys_bracketKey reads).bind fun picked => ?_
    exact (obeys_expect .rightBracket).bind fun _ => obeys_pure (Nat.le_succ _)

theorem obeys_scopeSelector :
    Obeys frame 0 1 (supervisor.scopeSelector frame checked) (scopeSelector reader) := by
  refine Obeys.watched fun cursor => ?_
  unfold scopeSelector
  rw [runAt_isAtSelector_bind, runAt_isAtSelector_bind]
  split
  · exact obeys_selector reads cursor
  · exact .fail _

theorem obeys_primary :
    Obeys frame 0 0 (supervisor.primary limits frame checked) (primary limits reader) := by
  have named : ∀ name, Obeys frame 1 0
      (supervisor.scopeSelector frame checked >>= fun selector =>
        build limits (.scope name selector))
      (scopeSelector reader >>= fun selector => build limits (.scope name selector)) :=
    fun name => ((obeys_scopeSelector reads).weaken (Nat.zero_le _) (Nat.zero_le _)).bind
      fun selector => obeys_build _ _ (Nat.zero_le _)
  refine Obeys.watched (obeys_advance_bind fun token => ?_)
  obtain ⟨kind, raw, offset⟩ := token
  cases kind with
  | number =>
      dsimp only
      cases Literal.number? raw with
      | some literal => exact obeys_pure (Nat.zero_le _)
      | none => exact obeys_throw _
  | string content quote => exact obeys_pure (Nat.zero_le _)
  | boolean value => exact obeys_pure (Nat.zero_le _)
  | null => exact obeys_pure (Nat.zero_le _)
  | identifier name => exact obeys_pure (Nat.zero_le _)
  | scope name => exact named name
  | endOfInput => exact obeys_failAt _ _
  | symbol symbol =>
      cases symbol with
      | dollar => exact named _
      | leftParenthesis =>
          refine reads.bind fun inner => (obeys_expect .rightParenthesis).bind fun _ => ?_
          exact obeys_build _ _ (Nat.zero_le _)
      | _ => exact obeys_failAt _ _

/-! ### Operands -/

theorem obeysAt_postfixes {more fuel bound : Nat} (base : Measured)
    (enough : cursor.tokensLeft ≤ more) (fueled : cursor.tokensLeft < fuel)
    (fewer : cursor.tokensLeft < bound) :
    ObeysAt frame cursor 0 0
      (runAt (supervisor.postfixes limits frame checked fuel bound base) cursor)
      (runAt (postfixes limits reader more base) cursor) := by
  induction more generalizing cursor fuel bound base with
  | zero =>
      obtain _ | fuel := fuel
      · exact absurd fueled (Nat.not_lt_zero _)
      · have ended := Cursor.kind_of_tokensLeft (Nat.le_zero.mp enough)
        unfold Supervisor.postfixes postfixes
        refine obeysAt_iteration_bind fewer ?_
        rw [runAt_isAt_bind, if_neg (by simp [ended]), runAt_isAtSelector_bind,
          if_neg (by simp [ended])]
        exact .pure (Nat.le_refl _)
  | succ more ih =>
      obtain _ | fuel := fuel
      · exact absurd fueled (Nat.not_lt_zero _)
      · unfold Supervisor.postfixes postfixes
        refine obeysAt_iteration_bind fewer ?_
        rw [runAt_isAt_bind, runAt_isAt_bind]
        split
        · next found =>
            have opens : cursor.current.kind = .symbol .leftParenthesis := by simpa using found
            refine (obeysAt_discard_advance opens).bind fun _ after _ left => ?_
            refine (obeys_listUntil reads _ after).bind fun trees behind _ leftBehind => ?_
            refine (obeys_build limits (.call base trees) (Nat.le_refl _) behind).bind
              fun call last _ leftLast => ?_
            have more := @ih last fuel cursor.tokensLeft call (by omega) (by omega) (by omega)
            exact more.weaken (Nat.zero_le _) (Nat.zero_le _)
        · rw [runAt_isAtSelector_bind, runAt_isAtSelector_bind]
          split
          · refine (obeys_selector reads cursor).bind fun picked after _ left => ?_
            refine (obeys_build limits (.select base picked) (Nat.le_refl _) after).bind
              fun selection last _ leftLast => ?_
            have more := @ih last fuel cursor.tokensLeft selection (by omega) (by omega) (by omega)
            exact more.weaken (Nat.zero_le _) (Nat.zero_le _)
          · exact .pure (Nat.le_refl _)

theorem obeys_operand :
    Obeys frame 0 0 (supervisor.operand limits frame checked) (operand limits reader) := by
  refine Obeys.watched fun cursor => ?_
  unfold operand
  rw [runAt_get_bind, runAt_get_bind]
  have begins := cursor.tokensLeft_le_remaining
  refine (obeysAt_prefixOperators begins (Nat.lt_succ_self _) (Nat.lt_succ_self _)).bind
    fun operators middle _ _ => ?_
  refine ((obeys_primary reads) middle).bind fun base after _ _ => ?_
  rw [runAt_get_bind, runAt_get_bind]
  have enough := after.tokensLeft_le_remaining
  refine (obeysAt_postfixes reads base enough (Nat.lt_succ_self _) (Nat.lt_succ_self _)).bind
    fun operand last _ _ => ?_
  exact obeys_applyPrefixes operators operand last

theorem obeysAt_operatorChain {more fuel bound : Nat} (pending : Pending) (right : Measured)
    (enough : cursor.tokensLeft ≤ more) (fueled : cursor.tokensLeft < fuel)
    (fewer : cursor.tokensLeft < bound) :
    ObeysAt frame cursor 0 0
      (runAt (supervisor.operatorChain limits frame checked fuel bound pending right) cursor)
      (runAt (operatorChain limits reader more pending right) cursor) := by
  have ends : ∀ pending right, Obeys frame 0 0
      (combine limits 0 pending right >>= fun result => pure result.2)
      (combine limits 0 pending right >>= fun result => pure result.2) :=
    fun pending right => (obeys_combine 0 pending right).bind fun _ => obeys_pure (Nat.le_refl _)
  induction more generalizing cursor fuel bound pending right with
  | zero =>
      obtain _ | fuel := fuel
      · exact absurd fueled (Nat.not_lt_zero _)
      · have ended := Cursor.kind_of_tokensLeft (Nat.le_zero.mp enough)
        unfold Supervisor.operatorChain operatorChain
        refine obeysAt_iteration_bind fewer ?_
        rw [runAt_currentOperator?_bind, ended]
        exact ends pending right cursor
  | succ more ih =>
      obtain _ | fuel := fuel
      · exact absurd fueled (Nat.not_lt_zero _)
      · unfold Supervisor.operatorChain operatorChain
        refine obeysAt_iteration_bind fewer ?_
        rw [runAt_currentOperator?_bind, runAt_currentOperator?_bind]
        cases known : operatorOf? cursor.current.kind with
        | none => exact ends pending right cursor
        | some operator =>
            have found := operatorOf?_eq_some_iff.mp known
            refine (obeys_combine operator.precedence pending right cursor).bind
              fun result after ran _ => ?_
            obtain rfl := eq_of_combine ran
            refine (obeysAt_discard_advance found).bind fun _ middle _ left => ?_
            have operands : Obeys frame 1 1 (supervisor.operand limits frame checked)
                (operand limits reader) :=
              (obeys_operand reads).weaken (Nat.zero_le _) (Nat.le_refl _)
            refine (operands middle).bind fun next last _ leftLast => ?_
            have others := @ih last fuel after.tokensLeft ((result.2, operator) :: result.1) next
              (by omega) (by omega) (by omega)
            exact others.weaken (Nat.zero_le _) (Nat.zero_le _)

/-! ### Levels -/

theorem obeys_binary :
    Obeys frame 0 0 (supervisor.binary limits frame checked) (binary limits reader) := by
  refine Obeys.watched ((obeys_operand reads).bind fun first cursor => ?_)
  rw [runAt_get_bind, runAt_get_bind]
  exact obeysAt_operatorChain reads [] first cursor.tokensLeft_le_remaining (Nat.lt_succ_self _)
    (Nat.lt_succ_self _)

theorem obeys_level :
    Obeys frame 0 0 (supervisor.level limits frame checked) (level limits reader) := by
  refine (obeys_binary reads).bind fun condition cursor => ?_
  rw [runAt_isAt_bind, runAt_isAt_bind]
  split
  · next found =>
      have asks : cursor.current.kind = .symbol .question := by simpa using found
      refine (obeysAt_discard_advance asks).bind fun _ after _ _ => ?_
      refine reads.bind (fun consequent => ?_) after
      refine (obeys_expect .colon).bind fun _ => ?_
      refine (reads.weaken (Nat.le_succ _) (Nat.le_succ _)).bind fun alternate => ?_
      exact obeys_build _ _ (Nat.zero_le _)
  · exact .pure (Nat.le_refl _)

end Levels

/-- Fuel for as many levels as there are tokens when a frame begins does not run out. -/
theorem obeys_expressionWith (limits : Limits) {fuel : Nat}
    (within : limits.maximum = frame.maximum) (fueled : frame.left ≤ fuel) :
    Obeys frame 1 1 (supervisor.expressionWith limits fuel frame)
      (expressionWithin limits frame.levels) := by
  induction fuel generalizing frame with
  | zero =>
      intro cursor _ begun
      omega
  | succ fuel ih =>
      unfold Supervisor.expressionWith
      cases known : frame.levels with
      | zero =>
          unfold expressionWithin
          rw [within]
          exact obeys_enter_of_none known
      | succ levels =>
          refine obeys_enter known fun left fewer => obeys_level ?_
          rw [← Frame.levels_inside left known]
          exact ih within (Nat.le_of_lt_succ (Nat.lt_of_lt_of_le fewer fueled))

/-! ### Outermost expressions -/

theorem obeys_expression (limits : Limits) (within : limits.maximum = frame.maximum) :
    Obeys frame 1 1 (supervisor.expression limits frame) (expression limits) := by
  refine Obeys.watched fun cursor counts begun => ?_
  have levels : limits.maximum - cursor.depth = frame.levels := by
    rw [within, counts.counted, Frame.levels]
  unfold expression
  rw [runAt_get_bind, levels]
  have reads : Obeys frame 1 1 (supervisor.expressionWith limits frame.left frame)
      (expressionWithin limits frame.levels) :=
    obeys_expressionWith limits within (Nat.le_refl _)
  exact (reads.bind fun tree => obeys_pure (Nat.le_refl _)) cursor counts begun

theorem obeys_completeExpression (limits : Limits) (within : limits.maximum = frame.maximum) :
    Obeys frame 1 1 (supervisor.completeExpression limits frame) (completeExpression limits) :=
  Obeys.watched ((obeys_expression limits within).bind fun _ => obeys_expectEnd.bind fun _ =>
    obeys_pure (Nat.le_refl _))

end TemplatedJson.Parse
