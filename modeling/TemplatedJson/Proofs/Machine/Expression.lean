import TemplatedJson.Proofs.Machine.Credit

/-!
# Expressions pay for themselves

Every node of an expression takes at least as many tokens as it adds to the height of the
tree, and every level within a level stands behind a token.  So a machine that reads an
expression is not trapped, as long as there is room for its tokens.
-/

namespace TemplatedJson

theorem Measured.tallest_le_worth (trees : List Measured) :
    tallest trees ≤ worthOfAll Measured.height trees := by
  induction trees with
  | nil => exact Nat.le_refl 0
  | cons first rest ih =>
      exact Nat.max_le.mpr ⟨Nat.le_add_right _ _, Nat.le_trans ih (Nat.le_add_left _ _)⟩

namespace Parse

variable {account : Account} {cursor : Cursor} {Value Image : Type} {held : Nat}
  {worth : Value → Nat} {image : Image → Nat}

/-! ### Operations -/

theorem add_eq {machine : Machine} {first second : Nat}
    (fits : first + second ≤ machine.greatest) :
    machine.add first second = pure (first + second) :=
  if_pos fits

theorem subtract_eq {machine : Machine} {first second : Nat} (fits : second ≤ first) :
    machine.subtract first second = pure (first - second) :=
  if_pos fits

/-- A level takes a credit and gives it back. -/
theorem pays_deeper {parser other : Parse Value} (inside : Pays account held worth parser other) :
    Pays account (held + 1) (fun value => worth value + 1) (account.machine.deeper parser)
      (deeper other) := by
  intro cursor sees counted fits
  have inWord := account.fits
  obtain ⟨same, balanced⟩ := inside { cursor with depth := cursor.depth + 1 } sees
    (Nat.le_succ_of_le counted) (by simp only [Cursor.tokensLeft] at fits ⊢; omega)
  unfold Machine.deeper deeper
  rw [runAt_get_bind, add_eq (by omega), pure_bind, runAt_modify_bind, runAt_modify_bind]
  rcases ran : runAt other { cursor with depth := cursor.depth + 1 } with ⟨error | value, middle⟩
  · rw [ran] at same balanced
    rw [runAt_bind_of_error same, runAt_bind_of_error ran]
    cases balanced with
    | error seesMiddle deeper paid =>
        refine ⟨rfl, .error seesMiddle (Nat.le_of_succ_le deeper) ?_⟩
        simp only [Cursor.tokensLeft] at paid ⊢
        omega
  · rw [ran] at same balanced
    rw [runAt_bind_of_ok same, runAt_bind_of_ok ran]
    cases balanced with
    | value seesMiddle depth paid =>
        have entered : 1 ≤ middle.depth := by
          rw [depth]
          exact Nat.le_add_left 1 _
        rw [runAt_get_bind, subtract_eq entered, pure_bind]
        have left : middle.depth - 1 = cursor.depth := by rw [depth, Nat.add_sub_cancel]
        refine ⟨rfl, .value seesMiddle left ?_⟩
        simp only [Cursor.tokensLeft] at paid ⊢
        omega

section Trees

variable {limits : Limits} {tree : Measured}

theorem machine_build_eq {machine : Machine} (grown : 0 < tree.height)
    (fits : limits.base + tree.height ≤ machine.greatest) :
    machine.build limits tree = build limits tree := by
  have height : tree.height - 1 + 1 = tree.height := Nat.sub_add_cancel grown
  unfold Machine.build build
  rw [add_eq (by omega), height, pure_bind, add_eq fits, pure_bind]

variable (low : limits.base ≤ account.base)

include low

/-- A node that is paid for can be built. -/
theorem pays_build_bind {next otherNext : Measured → Parse Image} (grown : 0 < tree.height)
    (paid : tree.height ≤ held) (rest : Pays account held image (next tree) (otherNext tree)) :
    Pays account held image (account.machine.build limits tree >>= next)
      (build limits tree >>= otherNext) := by
  intro cursor sees counted fits
  have inWord := account.fits
  rw [machine_build_eq grown (by omega)]
  unfold build
  split
  · rw [pure_bind, pure_bind]
    exact rest cursor sees counted fits
  · exact PaysAt.fail _ sees counted fits

theorem pays_build {worth : Measured → Nat} (grown : 0 < tree.height) (paid : tree.height ≤ held)
    (enough : worth tree ≤ held) :
    Pays account held worth (account.machine.build limits tree) (build limits tree) := by
  have built := pays_build_bind low grown paid (pays_pure enough)
  rwa [bind_pure, bind_pure] at built

end Trees

/-! ### Chains of operators -/

variable {limits : Limits} {checked reader : Parse Measured}

theorem pays_prefixOperators (more : Nat) :
    Pays account 0 (fun operators => operators.length) (prefixOperators more)
      (prefixOperators more) := by
  induction more with
  | zero => exact pays_pure (Nat.le_refl _)
  | succ more ih =>
      intro cursor
      unfold prefixOperators
      rw [runAt_currentKind_bind]
      split
      · next found =>
          split
          · refine (paysAt_discard_advance found).bind fun _ after _ => ?_
            have others : Pays account 1 (fun operators => operators.length + 1)
                (prefixOperators more) (prefixOperators more) :=
              ih.weaken (Nat.zero_le _) fun operators => Nat.le_refl _
            exact PaysAt.bind (others after) fun operators _ _ => .pure (Nat.le_refl _)
          · exact .pure (Nat.le_refl _)
      · exact .pure (Nat.le_refl _)

/-- What waiting operands are worth, each with its operator. -/
def Pending.credits : Pending → Nat
  | [] => 0
  | (left, _) :: outer => left.height + 1 + Pending.credits outer

section Trees

variable (low : limits.base ≤ account.base)

include low

theorem pays_applyPrefixes (operators : List PrefixOperator) (operand : Measured) :
    Pays account (operators.length + operand.height) (fun tree => tree.height)
      (account.machine.applyPrefixes limits operators operand)
      (applyPrefixes limits operators operand) := by
  induction operators with
  | nil => exact pays_pure (Nat.le_add_left _ _)
  | cons operator operators ih =>
      have inner : Pays account ((operator :: operators).length + operand.height)
          (fun tree => tree.height + 1) (account.machine.applyPrefixes limits operators operand)
          (applyPrefixes limits operators operand) :=
        ih.weaken (by simp only [List.length_cons]; omega) fun tree => by
          simp only [List.length_cons]
          omega
      exact inner.bind fun tree => pays_build low (Nat.succ_pos _) (Nat.le_refl _) (Nat.le_refl _)

theorem pays_combine (least : Nat) (pending : Pending) (right : Measured) :
    Pays account (Pending.credits pending + right.height)
      (fun result => Pending.credits result.1 + result.2.height)
      (account.machine.combine limits least pending right)
      (combine limits least pending right) := by
  induction pending generalizing right with
  | nil => exact pays_pure (Nat.le_refl _)
  | cons waiting outer ih =>
      obtain ⟨left, operator⟩ := waiting
      have height : (Measured.binary operator left right).height =
        max left.height right.height + 1 := rfl
      have waits : Pending.credits ((left, operator) :: outer) =
        left.height + 1 + Pending.credits outer := rfl
      unfold Machine.combine combine
      apply Pays.ite
      · refine pays_build_bind low (Nat.succ_pos _) (by omega) ?_
        exact (ih _).weaken (by omega) fun result => by omega
      · exact pays_pure (Nat.le_refl _)

/-- Once no operator is left, all waiting operands are combined. -/
theorem pays_combine_all (pending : Pending) (right : Measured) :
    Pays account (Pending.credits pending + right.height) (fun tree => tree.height)
      (account.machine.combine limits 0 pending right >>= fun result => pure result.2)
      (combine limits 0 pending right >>= fun result => pure result.2) :=
  (pays_combine low 0 pending right).bind fun _ => pays_pure (Nat.le_add_left _ _)

end Trees

/-! ### Selectors and primary expressions -/

theorem pays_propertyName : Pays account held (fun _ => held) propertyName propertyName := by
  apply pays_advance_bind
  intro token _
  split
  · exact pays_pure (Nat.le_add_right _ _)
  · exact pays_pure (Nat.le_add_right _ _)
  · exact pays_pure (Nat.le_add_right _ _)
  · exact pays_failAt _ _

section Levels

variable (reads : Pays account 1 (fun tree => tree.height + 1) checked reader)

include reads

theorem pays_bracketKey :
    Pays account 1 (fun selector => Measured.selectorHeight selector + 1) (bracketKey checked)
      (bracketKey reader) := by
  have computed : Pays account 1 (fun selector => Measured.selectorHeight selector + 1)
      (checked >>= fun key => pure (Selector.key key))
      (reader >>= fun key => pure (Selector.key key)) :=
    reads.bind fun key => pays_pure (Nat.le_refl _)
  intro cursor
  unfold bracketKey
  rw [runAt_currentKind_bind, runAt_currentKind_bind]
  split
  · refine pays_peek_bind (fun token => ?_) cursor
    split
    · exact pays_discard_advance.bind fun _ => pays_pure (Nat.le_refl _)
    · exact computed
  · exact computed cursor

/-- What a selector adds to the height is paid for with its brackets. -/
theorem pays_selector :
    Pays account 0 (fun selector => Measured.selectorHeight selector + 1) (selector checked)
      (selector reader) := by
  intro cursor
  unfold selector
  rw [runAt_isAt_bind, runAt_isAt_bind]
  split
  · next found =>
      have atDot : cursor.current.kind = .symbol .dot := by simpa using found
      refine (paysAt_discard_advance atDot).bind fun _ after _ => ?_
      exact PaysAt.bind (pays_propertyName after) fun name _ _ => .pure (Nat.le_refl _)
  · refine (pays_expect .leftBracket).bind (fun _ => ?_) cursor
    refine (pays_bracketKey reads).bind fun picked => ?_
    exact (pays_expect .rightBracket).bind fun _ => pays_pure (Nat.le_succ _)

theorem pays_scopeSelector :
    Pays account 0 (fun selector => Measured.selectorHeight selector + 1) (scopeSelector checked)
      (scopeSelector reader) := by
  intro cursor
  unfold scopeSelector
  rw [runAt_isAtSelector_bind, runAt_isAtSelector_bind]
  split
  · exact pays_selector reads cursor
  · exact .fail _

variable (low : limits.base ≤ account.base)

include low

theorem pays_primary :
    Pays account 0 (fun tree => tree.height) (account.machine.primary limits checked)
      (primary limits reader) := by
  have named : ∀ name, Pays account 1 (fun tree => tree.height)
      (scopeSelector checked >>= fun selector =>
        account.machine.build limits (.scope name selector))
      (scopeSelector reader >>= fun selector => build limits (.scope name selector)) := by
    intro name
    refine ((pays_scopeSelector reads).weaken (Nat.zero_le 1) fun selector => Nat.le_refl _).bind
      fun selector => ?_
    exact pays_build low (Nat.succ_pos _) (Nat.le_succ _) (Nat.le_succ _)
  apply pays_advance_bind
  rintro ⟨kind, raw, offset⟩ _
  cases kind with
  | number =>
      dsimp only
      cases Literal.number? raw with
      | some literal => exact pays_pure (Nat.le_refl _)
      | none => exact pays_throw _
  | string content quote => exact pays_pure (Nat.le_refl _)
  | boolean value => exact pays_pure (Nat.le_refl _)
  | null => exact pays_pure (Nat.le_refl _)
  | identifier name => exact pays_pure (Nat.le_refl _)
  | scope name => exact named name
  | endOfInput => exact pays_failAt _ _
  | symbol symbol =>
      cases symbol with
      | dollar => exact named _
      | leftParenthesis =>
          refine reads.bind fun inner => (pays_expect .rightParenthesis).bind fun _ => ?_
          exact pays_build low (Nat.succ_pos _) (Nat.le_succ _) (Nat.le_succ _)
      | _ => exact pays_failAt _ _

/-! ### Operands -/

/-- Calls are paid for with their parentheses and selections with their selectors. -/
theorem pays_postfixes (more : Nat) (base : Measured) :
    Pays account base.height (fun tree => tree.height)
      (account.machine.postfixes limits checked more base) (postfixes limits reader more base) := by
  induction more generalizing base with
  | zero => exact pays_pure (Nat.le_refl _)
  | succ more ih =>
      intro cursor
      unfold Machine.postfixes postfixes
      rw [runAt_isAt_bind, runAt_isAt_bind]
      split
      · next found =>
          have opens : cursor.current.kind = .symbol .leftParenthesis := by simpa using found
          refine (paysAt_discard_advance opens).bind fun _ after _ => ?_
          have arguments : Pays account (base.height + 1)
              (fun trees => base.height + (worthOfAll Measured.height trees + 2))
              (listUntil .rightParenthesis checked) (listUntil .rightParenthesis reader) :=
            (pays_listUntil reads .rightParenthesis).weaken (Nat.le_add_left _ _)
              fun trees => by omega
          refine PaysAt.bind (arguments after) fun trees after _ => ?_
          have tallest := Measured.tallest_le_worth trees
          have height : (Measured.call base trees).height =
            max base.height (Measured.tallest trees) + 1 := rfl
          refine pays_build_bind low (Nat.succ_pos _) (by omega) ?_ after
          exact (ih _).weaken (by omega) fun tree => by omega
      · rw [runAt_isAtSelector_bind, runAt_isAtSelector_bind]
        split
        · have selects : Pays account base.height
              (fun selector => base.height + (Measured.selectorHeight selector + 1))
              (selector checked) (selector reader) :=
            (pays_selector reads).weaken (Nat.zero_le _) fun selector => by omega
          refine PaysAt.bind (selects cursor) fun picked after _ => ?_
          have height : (Measured.select base picked).height =
            max base.height (Measured.selectorHeight picked) + 1 := rfl
          refine pays_build_bind low (Nat.succ_pos _) (by omega) ?_ after
          exact (ih _).weaken (by omega) fun tree => by omega
        · exact .pure (Nat.le_refl _)

theorem pays_operand :
    Pays account 0 (fun tree => tree.height) (account.machine.operand limits checked)
      (operand limits reader) := by
  intro cursor
  unfold Machine.operand operand
  rw [runAt_get_bind, runAt_get_bind]
  refine Pays.bind (pays_prefixOperators _) (fun operators => ?_) cursor
  have base : Pays account operators.length (fun tree => operators.length + tree.height)
      (account.machine.primary limits checked) (primary limits reader) :=
    (pays_primary reads low).weaken (Nat.zero_le _) fun tree => by omega
  refine base.bind fun tree cursor => ?_
  rw [runAt_get_bind, runAt_get_bind]
  have chain : Pays account (operators.length + tree.height)
      (fun tree => operators.length + tree.height)
      (account.machine.postfixes limits checked cursor.remaining tree)
      (postfixes limits reader cursor.remaining tree) :=
    (pays_postfixes reads low _ tree).weaken (by omega) fun tree => by omega
  exact chain.bind (fun operand => pays_applyPrefixes low operators operand) cursor

theorem pays_operatorChain (more : Nat) (pending : Pending) (right : Measured) :
    Pays account (Pending.credits pending + right.height) (fun tree => tree.height)
      (account.machine.operatorChain limits checked more pending right)
      (operatorChain limits reader more pending right) := by
  induction more generalizing pending right with
  | zero => exact pays_combine_all low pending right
  | succ more ih =>
      intro cursor
      unfold Machine.operatorChain operatorChain
      rw [runAt_currentOperator?_bind, runAt_currentOperator?_bind]
      cases known : operatorOf? cursor.current.kind with
      | none => exact pays_combine_all low pending right cursor
      | some operator =>
          have found := operatorOf?_eq_some_iff.mp known
          refine PaysAt.bind (pays_combine low operator.precedence pending right cursor)
            fun result after ran => ?_
          obtain rfl := eq_of_combine ran
          obtain ⟨outer, left⟩ := result
          refine PaysAt.bind (paysAt_discard_advance found) fun _ after _ => ?_
          have next : Pays account (Pending.credits outer + left.height + 1)
              (fun tree => Pending.credits ((left, operator) :: outer) + tree.height)
              (account.machine.operand limits checked) (operand limits reader) :=
            (pays_operand reads low).weaken (Nat.zero_le _) fun tree => by
              rw [Pending.credits]
              omega
          exact next.bind (fun tree => ih _ tree) after

/-! ### Levels -/

theorem pays_binary :
    Pays account 0 (fun tree => tree.height) (account.machine.binary limits checked)
      (binary limits reader) := by
  refine (pays_operand reads low).bind fun first cursor => ?_
  rw [runAt_get_bind, runAt_get_bind]
  exact (pays_operatorChain reads low _ [] first).weaken (by simp [Pending.credits])
    (fun tree => by simp [Pending.credits]) cursor

/-- The marks of a choice pay for the levels of its parts. -/
theorem pays_level :
    Pays account 0 (fun tree => tree.height) (account.machine.level limits checked)
      (level limits reader) := by
  refine (pays_binary reads low).bind fun condition cursor => ?_
  rw [runAt_isAt_bind, runAt_isAt_bind]
  split
  · next found =>
      have asks : cursor.current.kind = .symbol .question := by simpa using found
      refine (paysAt_discard_advance asks).bind fun _ after _ => ?_
      have first : Pays account (condition.height + 1)
          (fun tree => condition.height + (tree.height + 1)) checked reader :=
        reads.weaken (Nat.le_add_left _ _) fun tree => by omega
      refine first.bind (fun consequent => ?_) after
      refine (pays_expect .colon).bind fun _ => ?_
      have second : Pays account (condition.height + (consequent.height + 1) + 1)
          (fun tree => condition.height + consequent.height + tree.height + 2) checked reader :=
        reads.weaken (Nat.le_add_left _ _) fun tree => by omega
      refine second.bind fun alternate => ?_
      have height : (Measured.conditional condition consequent alternate).height =
        max (max condition.height consequent.height) alternate.height + 1 := rfl
      exact pays_build low (Nat.succ_pos _) (by omega) (by omega)
  · exact .pure (Nat.le_refl _)

end Levels

theorem pays_expressionWithin (low : limits.base ≤ account.base) (levels : Nat) :
    Pays account 1 (fun tree => tree.height + 1)
      (account.machine.expressionWithin limits levels) (expressionWithin limits levels) := by
  induction levels with
  | zero => exact pays_deeper (pays_tooDeep limits.maximum)
  | succ levels ih => exact pays_deeper (pays_level ih low)

theorem pays_expression (low : limits.base ≤ account.base) :
    Pays account 1 (fun _ => 1) (account.machine.expression limits) (expression limits) := by
  intro cursor
  unfold Machine.expression expression
  rw [runAt_get_bind, runAt_get_bind]
  exact PaysAt.bind (pays_expressionWithin low _ cursor) fun tree _ _ =>
    .pure (Nat.le_add_left _ _)

theorem pays_completeExpression (low : limits.base ≤ account.base) :
    Pays account 1 (fun _ => 1) (account.machine.completeExpression limits)
      (completeExpression limits) :=
  (pays_expression low).bind fun _ => pays_expectEnd.bind fun _ => pays_pure (Nat.le_refl _)

end Parse

end TemplatedJson
