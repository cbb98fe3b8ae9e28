import TemplatedJson.Proofs.Expr.Grammar
import TemplatedJson.Proofs.Reading.Passes

/-!
# What the expression parser reads is derived by the grammar

A successful run of a parser passes tokens from which the grammar derives the
tree that it yields.  This is shown for the reader of one level under the
assumption that it holds of the reader for the next level.
-/

namespace TemplatedJson.Grammar

open Parse

/-- Every success of a parser passes tokens that derive the phrase of its
value. -/
def Reads {Value : Type} (parser : Parse Value) (phrase : Value → Phrase) : Prop :=
  ∀ ⦃cursor value after⦄, runAt parser cursor = (.ok value, after) →
    ∃ tokens, cursor.Passes tokens after ∧ Derives (phrase value) tokens

variable {limits : Limits} {reader : Parse Measured} {cursor after : Cursor}

theorem build_eq_ok {tree built : Measured}
    (run : runAt (build limits tree) cursor = (.ok built, after)) :
    built = tree ∧ after = cursor := by
  unfold build at run
  split at run
  · exact runAt_pure_eq_ok.mp run
  · simp at run

/-! ### Selectors -/

theorem propertyName_eq_ok {name : String}
    (run : runAt propertyName cursor = (.ok name, after)) :
    propertyName? cursor.current = some name ∧ cursor.following? = some after := by
  unfold propertyName at run
  obtain ⟨token, middle, moved, rest⟩ := runAt_bind_eq_ok.mp run
  obtain ⟨rfl, known⟩ := runAt_advance_eq_ok.mp moved
  unfold propertyName?
  split at rest <;> simp_all

theorem ne_endOfInput_of_propertyName? {token : Token} {name : String}
    (found : propertyName? token = some name) : token.kind ≠ .endOfInput := by
  intro ended
  simp [propertyName?, ended] at found

/-- A computed key is no lone name, because the token after a lone name is
looked at first. -/
theorem bracketKey_reads (reads : Reads reader fun tree => .expression tree.expr)
    {selector : Selector Measured} {opening : Token}
    (run : runAt (bracketKey reader) cursor = (.ok selector, after))
    (opens : opening.kind = .symbol .leftBracket)
    (closes : after.current.kind = .symbol .rightBracket) :
    ∃ tokens, cursor.Passes tokens after ∧
      Derives (.selector (selector.map Measured.expr))
        (opening :: (tokens ++ [after.current])) := by
  have computed : ∀ {start : Cursor} {tree : Measured},
      (∀ name, start.current.kind = .identifier name → start.following? ≠ some after) →
      runAt reader start = (.ok tree, after) →
      ∃ tokens, start.Passes tokens after ∧
        Derives (.selector (.key tree.expr)) (opening :: (tokens ++ [after.current])) := by
    intro start tree notLone inside
    obtain ⟨tokens, passed, derivation⟩ := reads inside
    refine ⟨tokens, passed, .bracketKey opens derivation ?_ closes⟩
    intro name named
    have isName : (Phrase.expression tree.expr).tree? = some (.identifier name) := by
      simp [Phrase.tree?, named]
    obtain ⟨token, rfl, kind⟩ := derivation.eq_of_identifier isName
    obtain ⟨rfl, notEnd, middle, known, ended⟩ := Cursor.passes_cons_iff.mp passed
    rw [Cursor.passes_nil_iff.mp ended] at notLone
    exact notLone name kind known
  unfold bracketKey at run
  rw [runAt_currentKind_bind] at run
  split at run
  · next name named =>
      obtain ⟨next, start, looked, rest⟩ := runAt_bind_eq_ok.mp run
      obtain ⟨rfl, following, known, rfl⟩ := runAt_peek_eq_ok.mp looked
      split at rest
      · obtain ⟨_, moved, rfl⟩ := runAt_bind_pure_eq_ok.mp rest
        have moved := runAt_discard_advance_eq_ok.mp moved
        exact ⟨[start.current], Cursor.passes_current (by simp [named]) moved,
          .bracketName opens named closes⟩
      · next notClosing =>
          obtain ⟨tree, inside, rfl⟩ := runAt_bind_pure_eq_ok.mp rest
          apply computed _ inside
          intro _ _ same
          rw [known, Option.some.injEq] at same
          rw [same] at notClosing
          exact notClosing closes
  · next notName =>
      obtain ⟨tree, inside, rfl⟩ := runAt_bind_pure_eq_ok.mp run
      apply computed _ inside
      intro name named
      exact absurd named (notName name)

theorem selector_reads (reads : Reads reader fun tree => .expression tree.expr) :
    Reads (selector reader) fun selector => .selector (selector.map Measured.expr) := by
  intro cursor selector after run
  unfold Parse.selector at run
  rw [runAt_isAt_bind] at run
  split at run
  · next dotted =>
      have dot : cursor.current.kind = .symbol .dot := by simpa using dotted
      obtain ⟨_, middle, moved, rest⟩ := runAt_bind_eq_ok.mp run
      have moved := runAt_discard_advance_eq_ok.mp moved
      obtain ⟨name, named, rfl⟩ := runAt_bind_pure_eq_ok.mp rest
      obtain ⟨found, known⟩ := propertyName_eq_ok named
      have passed := Cursor.passes_current (ne_endOfInput_of_propertyName? found) known
      exact ⟨_, .token (by simp [dot]) moved passed, .property dot found⟩
  · obtain ⟨_, middle, opened, rest⟩ := runAt_bind_eq_ok.mp run
    obtain ⟨opens, known⟩ := runAt_expect_eq_ok.mp opened
    obtain ⟨inner, last, inside, rest⟩ := runAt_bind_eq_ok.mp rest
    obtain ⟨_, closed, rfl⟩ := runAt_bind_pure_eq_ok.mp rest
    obtain ⟨closes, ended⟩ := runAt_expect_eq_ok.mp closed
    obtain ⟨tokens, passed, derivation⟩ := bracketKey_reads reads inside opens closes
    have passedLast := Cursor.passes_current (by simp [closes]) ended
    exact ⟨_, .token (by simp [opens]) known (passed.append passedLast), derivation⟩

/-! ### Primary expressions -/

theorem scopeSelector_reads (reads : Reads reader fun tree => .expression tree.expr) :
    Reads (scopeSelector reader) fun selector => .selector (selector.map Measured.expr) := by
  intro cursor selector after run
  unfold scopeSelector at run
  rw [runAt_isAtSelector_bind] at run
  split at run
  · exact selector_reads reads run
  · simp at run

theorem primary_reads (reads : Reads reader fun tree => .expression tree.expr) :
    Reads (primary limits reader) fun tree => .primary tree.expr := by
  intro cursor tree after run
  unfold primary at run
  obtain ⟨token, middle, moved, rest⟩ := runAt_bind_eq_ok.mp run
  obtain ⟨rfl, known⟩ := runAt_advance_eq_ok.mp moved
  have leaf : ∀ {leaf : Literal}, literal? cursor.current = some leaf →
      cursor.current.kind ≠ .endOfInput → tree = .literal leaf ∧ after = middle →
      ∃ tokens, cursor.Passes tokens after ∧ Derives (.primary tree.expr) tokens := by
    rintro leaf found notEnd ⟨rfl, rfl⟩
    exact ⟨_, Cursor.passes_current notEnd known, .literal found⟩
  have scope : ∀ {name : String}, scopeName? cursor.current = some name →
      cursor.current.kind ≠ .endOfInput →
      runAt (do build limits (.scope name (← scopeSelector reader))) middle = (.ok tree, after) →
      ∃ tokens, cursor.Passes tokens after ∧ Derives (.primary tree.expr) tokens := by
    intro name found notEnd selected
    obtain ⟨selector, last, read, built⟩ := runAt_bind_eq_ok.mp selected
    obtain ⟨rfl, rfl⟩ := build_eq_ok built
    obtain ⟨tokens, passed, derivation⟩ := scopeSelector_reads reads read
    exact ⟨_, .token notEnd known passed, .scope found derivation⟩
  split at rest
  · next kind =>
      split at rest
      · next number found =>
          exact leaf (by simp [literal?, kind, found]) (by simp [kind])
            (runAt_pure_eq_ok.mp rest)
      · simp at rest
  · next content quote kind =>
      exact leaf (by simp [literal?, kind]) (by simp [kind]) (runAt_pure_eq_ok.mp rest)
  · next value kind =>
      exact leaf (by simp [literal?, kind]) (by simp [kind]) (runAt_pure_eq_ok.mp rest)
  · next kind =>
      exact leaf (by simp [literal?, kind]) (by simp [kind]) (runAt_pure_eq_ok.mp rest)
  · next name kind =>
      obtain ⟨rfl, rfl⟩ := runAt_pure_eq_ok.mp rest
      exact ⟨_, Cursor.passes_current (by simp [kind]) known, .identifier kind⟩
  · next name kind => exact scope (by simp [scopeName?, kind]) (by simp [kind]) rest
  · next kind => exact scope (by simp [scopeName?, kind]) (by simp [kind]) rest
  · next kind =>
      obtain ⟨inner, last, inside, rest⟩ := runAt_bind_eq_ok.mp rest
      obtain ⟨_, final, closed, built⟩ := runAt_bind_eq_ok.mp rest
      obtain ⟨closes, ended⟩ := runAt_expect_eq_ok.mp closed
      obtain ⟨rfl, rfl⟩ := build_eq_ok built
      obtain ⟨tokens, passed, derivation⟩ := reads inside
      have passedLast := Cursor.passes_current (by simp [closes]) ended
      exact ⟨_, .token (by simp [kind]) known (passed.append passedLast),
        .parenthesized kind derivation closes⟩
  · simp at rest

/-! ### Calls and selectors -/

theorem arguments_derive (reads : Reads reader fun tree => .expression tree.expr)
    {trees : List Measured} (separated : Separated reader cursor trees after) :
    ∃ tokens, cursor.Passes tokens after ∧
      Derives (.arguments (trees.map Measured.expr)) tokens := by
  induction separated with
  | last read =>
      obtain ⟨tokens, passed, derivation⟩ := reads read
      exact ⟨tokens, passed, .lastArgument derivation⟩
  | @comma cursor middle next after tree trees read atComma moved later ih =>
      obtain ⟨before, passedFirst, first⟩ := reads read
      obtain ⟨others, passedRest, rest⟩ := ih
      have passed : middle.Passes (middle.current :: others) after :=
        .token (by simp [atComma]) moved passedRest
      cases trees with
      | nil => cases later
      | cons second trees => exact ⟨_, passedFirst.append passed, .argument first atComma rest⟩

/-- The loop over calls and selectors extends the chain that it starts with. -/
theorem postfixes_reads (reads : Reads reader fun tree => .expression tree.expr)
    {more : Nat} {base tree : Measured} {before : List Token}
    (run : runAt (postfixes limits reader more base) cursor = (.ok tree, after))
    (chain : Derives (.chain base.expr) before) :
    ∃ tokens, cursor.Passes tokens after ∧ Derives (.chain tree.expr) (before ++ tokens) := by
  induction more generalizing cursor base before with
  | zero =>
      obtain ⟨rfl, rfl⟩ := runAt_pure_eq_ok.mp run
      exact ⟨[], .none _, by simpa using chain⟩
  | succ more ih =>
      unfold postfixes at run
      rw [runAt_isAt_bind] at run
      split at run
      · next called =>
          have opens : cursor.current.kind = .symbol .leftParenthesis := by simpa using called
          obtain ⟨_, middle, moved, inner⟩ := runAt_bind_eq_ok.mp run
          have moved := runAt_discard_advance_eq_ok.mp moved
          obtain ⟨trees, last, listed, growing⟩ := runAt_bind_eq_ok.mp inner
          obtain ⟨built, final, grown, rest⟩ := runAt_bind_eq_ok.mp growing
          obtain ⟨rfl, rfl⟩ := build_eq_ok grown
          obtain ⟨inside, closing, closes, passed, arguments⟩ :
              ∃ inside closing, Token.kind closing = .symbol .rightParenthesis ∧
                middle.Passes (inside ++ [closing]) final ∧
                Derives (.arguments (trees.map Measured.expr)) inside := by
            rcases listUntil_eq_ok listed with
              ⟨rfl, closes, known⟩ | ⟨-, stop, separated, closes, known⟩
            · exact ⟨[], _, closes, Cursor.passes_current (by simp [closes]) known, .noArgument⟩
            · obtain ⟨inside, passed, arguments⟩ := arguments_derive reads separated
              exact ⟨inside, _, closes,
                passed.append (Cursor.passes_current (by simp [closes]) known), arguments⟩
          obtain ⟨tokens, passedRest, derivation⟩ :=
            ih rest (.call chain opens arguments closes)
          refine ⟨_, (Cursor.Passes.token (by simp [opens]) moved passed).append passedRest, ?_⟩
          simpa using derivation
      · rw [runAt_isAtSelector_bind] at run
        split at run
        · obtain ⟨selector, last, read, growing⟩ := runAt_bind_eq_ok.mp run
          obtain ⟨built, final, grown, rest⟩ := runAt_bind_eq_ok.mp growing
          obtain ⟨rfl, rfl⟩ := build_eq_ok grown
          obtain ⟨others, passed, selected⟩ := selector_reads reads read
          obtain ⟨tokens, passedRest, derivation⟩ := ih rest (.select chain selected)
          refine ⟨_, passed.append passedRest, ?_⟩
          simpa using derivation
        · obtain ⟨rfl, rfl⟩ := runAt_pure_eq_ok.mp run
          exact ⟨[], .none _, by simpa using chain⟩

/-! ### Operands -/

theorem prefixOperators_read {more : Nat} {operators : List PrefixOperator}
    (run : runAt (prefixOperators more) cursor = (.ok operators, after)) :
    ∃ signs, cursor.Passes signs after ∧ Signs operators signs := by
  induction more generalizing cursor operators with
  | zero =>
      obtain ⟨rfl, rfl⟩ := runAt_pure_eq_ok.mp run
      exact ⟨[], .none _, rfl⟩
  | succ more ih =>
      unfold prefixOperators at run
      rw [runAt_currentKind_bind] at run
      split at run
      · next symbol kind =>
          split at run
          · next operator found =>
              obtain ⟨_, middle, moved, rest⟩ := runAt_bind_eq_ok.mp run
              obtain ⟨others, later, rfl⟩ := runAt_bind_pure_eq_ok.mp rest
              have sign := PrefixOperator.ofSymbol?_eq_some_iff.mp found
              have moved := runAt_discard_advance_eq_ok.mp moved
              obtain ⟨signs, passed, read⟩ := ih later
              refine ⟨_, .token (by simp [kind]) moved passed, ?_⟩
              exact Signs.cons (by rw [kind, sign]) read
          · obtain ⟨rfl, rfl⟩ := runAt_pure_eq_ok.mp run
            exact ⟨[], .none _, rfl⟩
      · obtain ⟨rfl, rfl⟩ := runAt_pure_eq_ok.mp run
        exact ⟨[], .none _, rfl⟩

theorem applyPrefixes_eq_ok {operators : List PrefixOperator} {operand tree : Measured}
    (run : runAt (applyPrefixes limits operators operand) cursor = (.ok tree, after)) :
    tree.expr = prefixedBy operators operand.expr ∧ after = cursor := by
  induction operators generalizing tree after with
  | nil =>
      obtain ⟨rfl, rfl⟩ := runAt_pure_eq_ok.mp run
      exact ⟨rfl, rfl⟩
  | cons operator operators ih =>
      obtain ⟨inner, middle, inside, grown⟩ := runAt_bind_eq_ok.mp run
      obtain ⟨same, rfl⟩ := ih inside
      obtain ⟨rfl, rfl⟩ := build_eq_ok grown
      exact ⟨congrArg (Expr.prefixed operator) same, rfl⟩

theorem operand_reads (reads : Reads reader fun tree => .expression tree.expr) :
    Reads (Parse.operand limits reader) fun tree => .operand tree.expr := by
  intro cursor tree after run
  unfold Parse.operand at run
  rw [runAt_get_bind] at run
  obtain ⟨operators, first, signed, afterSigns⟩ := runAt_bind_eq_ok.mp run
  obtain ⟨base, second, based, afterBase⟩ := runAt_bind_eq_ok.mp afterSigns
  rw [runAt_get_bind] at afterBase
  obtain ⟨chain, third, chained, applied⟩ := runAt_bind_eq_ok.mp afterBase
  obtain ⟨signs, passedSigns, spelled⟩ := prefixOperators_read signed
  obtain ⟨head, passedHead, primary⟩ := primary_reads reads based
  obtain ⟨tail, passedTail, derivation⟩ := postfixes_reads reads chained (.unchained primary)
  obtain ⟨same, rfl⟩ := applyPrefixes_eq_ok applied
  refine ⟨_, passedSigns.append (passedHead.append passedTail), ?_⟩
  change Derives (.operand tree.expr) _
  rw [same]
  exact (Derives.bare derivation).prefixedBy spelled

/-! ### Binary operators -/

/-- Left operands that wait for their right ones, together with their operators,
derive from the tokens before the current operand.  Their operators bind less
tightly than `bound`, and the less tightly the further out they wait. -/
inductive Waiting : (bound : Nat) → Pending → List Token → Prop where
  | none {bound : Nat} : Waiting bound [] []
  | operand {bound : Nat} {operator : BinaryOperator} {left : Measured} {outer : Pending}
      {before tokens : List Token} {sign : Token} :
      operator.precedence < bound → Waiting operator.precedence outer before →
        Derives (.level operator.precedence left.expr) tokens →
          sign.kind = .symbol operator.symbol →
            Waiting bound ((left, operator) :: outer) (before ++ (tokens ++ [sign]))

/-- Combining waiting operands leaves those that bind less tightly than `least`
and yields an operand of that level. -/
theorem combine_reads {least bound : Nat} {pending outer : Pending} {right tree : Measured}
    {before tokens : List Token}
    (run : runAt (combine limits least pending right) cursor = (.ok (outer, tree), after))
    (waiting : Waiting bound pending before) (leastLe : least ≤ bound)
    (boundLe : bound ≤ operandLevel) (operand : Derives (.level bound right.expr) tokens) :
    after = cursor ∧ ∃ waited combined, before ++ tokens = waited ++ combined ∧
      Waiting least outer waited ∧ Derives (.level least tree.expr) combined := by
  induction waiting generalizing right tokens with
  | none =>
      obtain ⟨same, rfl⟩ := runAt_pure_eq_ok.mp run
      obtain ⟨rfl, rfl⟩ := Prod.mk.inj same
      exact ⟨rfl, [], tokens, rfl, .none, operand.loosen leastLe boundLe⟩
  | @operand bound operator left outer before leftTokens sign tighter waiting leftOperand kind ih =>
      unfold combine at run
      split at run
      · next least =>
          obtain ⟨built, middle, grown, rest⟩ := runAt_bind_eq_ok.mp run
          obtain ⟨rfl, rfl⟩ := build_eq_ok grown
          have joined : Derives (.level operator.precedence (.binary operator left.expr right.expr))
              (leftTokens ++ sign :: tokens) :=
            .binary leftOperand kind (operand.loosen tighter boundLe)
          have result := ih rest least (Nat.le_of_lt (precedence_lt operator)) joined
          simpa using result
      · next notLeast =>
          obtain ⟨same, rfl⟩ := runAt_pure_eq_ok.mp run
          obtain ⟨rfl, rfl⟩ := Prod.mk.inj same
          exact ⟨rfl, _, tokens, rfl, .operand (by omega) waiting leftOperand kind,
            operand.loosen leastLe boundLe⟩

/-- No operator binds less tightly than the first level. -/
theorem combine_zero (limits : Limits) (pending : Pending) (right : Measured) :
    combine limits 0 pending right = combine limits 1 pending right := by
  induction pending generalizing right with
  | nil => rfl
  | cons waiting outer ih =>
      obtain ⟨left, operator⟩ := waiting
      have binds : 1 ≤ operator.precedence := precedence_pos operator
      simp only [combine, Nat.zero_le, binds, if_true, ih]

/-- Once all waiting operands are combined, the tree derives from everything
that was read. -/
theorem combine_all_reads {pending outer : Pending} {right tree : Measured}
    {before tokens : List Token}
    (run : runAt (combine limits 0 pending right) cursor = (.ok (outer, tree), after))
    (waiting : Waiting operandLevel pending before)
    (operand : Derives (.level operandLevel right.expr) tokens) :
    after = cursor ∧ Derives (.level 1 tree.expr) (before ++ tokens) := by
  rw [combine_zero] at run
  obtain ⟨rfl, waited, combined, same, waitingOuter, derivation⟩ :=
    combine_reads run waiting (by decide) (Nat.le_refl _) operand
  refine ⟨rfl, ?_⟩
  cases waitingOuter with
  | none =>
      rw [same]
      exact derivation
  | @operand _ operator _ _ _ _ _ tooLoose _ _ _ =>
      have positive := precedence_pos operator
      omega

theorem operatorChain_reads (reads : Reads reader fun tree => .expression tree.expr)
    {more : Nat} {pending : Pending} {right tree : Measured} {before tokens : List Token}
    (run : runAt (operatorChain limits reader more pending right) cursor = (.ok tree, after))
    (waiting : Waiting operandLevel pending before)
    (operand : Derives (.level operandLevel right.expr) tokens) :
    ∃ others, cursor.Passes others after ∧
      Derives (.level 1 tree.expr) (before ++ (tokens ++ others)) := by
  have finish : ∀ {cursor : Cursor} {pending : Pending} {right : Measured}
      {before tokens : List Token},
      runAt (do return (← combine limits 0 pending right).2) cursor = (.ok tree, after) →
      Waiting operandLevel pending before → Derives (.level operandLevel right.expr) tokens →
      ∃ others, cursor.Passes others after ∧
        Derives (.level 1 tree.expr) (before ++ (tokens ++ others)) := by
    intro cursor pending right before tokens run waiting operand
    obtain ⟨⟨outer, combined⟩, all, rfl⟩ := runAt_bind_pure_eq_ok.mp run
    obtain ⟨rfl, derivation⟩ := combine_all_reads all waiting operand
    exact ⟨[], .none _, by simpa using derivation⟩
  induction more generalizing cursor pending right before tokens with
  | zero => exact finish run waiting operand
  | succ more ih =>
      unfold operatorChain at run
      rw [runAt_currentOperator?_bind] at run
      split at run
      · exact finish run waiting operand
      · next operator found =>
          obtain ⟨⟨outer, left⟩, middle, combined, moving⟩ := runAt_bind_eq_ok.mp run
          obtain ⟨rfl, waited, joined, same, waitingOuter, leftOperand⟩ :=
            combine_reads combined waiting (Nat.le_of_lt (precedence_lt operator))
              (Nat.le_refl _) operand
          obtain ⟨_, second, moved, reading⟩ := runAt_bind_eq_ok.mp moving
          have moved := runAt_discard_advance_eq_ok.mp moved
          obtain ⟨next, third, read, looping⟩ := runAt_bind_eq_ok.mp reading
          have kind := operatorOf?_eq_some_iff.mp found
          obtain ⟨nextTokens, passedNext, nextOperand⟩ := operand_reads reads read
          obtain ⟨others, passedRest, derivation⟩ :=
            ih looping (.operand (precedence_lt operator) waitingOuter leftOperand kind)
              (.single nextOperand)
          refine ⟨_, (Cursor.Passes.token (by simp [kind]) moved passedNext).append passedRest, ?_⟩
          have regroup : before ++ (tokens ++ (middle.current :: nextTokens ++ others)) =
              waited ++ (joined ++ [middle.current]) ++ (nextTokens ++ others) := by
            rw [← List.append_assoc, same]
            simp
          rw [regroup]
          exact derivation

theorem binary_reads (reads : Reads reader fun tree => .expression tree.expr) :
    Reads (Parse.binary limits reader) fun tree => .level 1 tree.expr := by
  intro cursor tree after run
  unfold Parse.binary at run
  obtain ⟨first, middle, read, rest⟩ := runAt_bind_eq_ok.mp run
  rw [runAt_get_bind] at rest
  obtain ⟨tokens, passed, operand⟩ := operand_reads reads read
  obtain ⟨others, passedRest, derivation⟩ :=
    operatorChain_reads reads rest .none (.single operand)
  exact ⟨_, passed.append passedRest, derivation⟩

/-! ### Whole expressions -/

theorem level_reads (reads : Reads reader fun tree => .expression tree.expr) :
    Reads (Parse.level limits reader) fun tree => .expression tree.expr := by
  intro cursor tree after run
  unfold Parse.level at run
  obtain ⟨condition, first, decided, rest⟩ := runAt_bind_eq_ok.mp run
  obtain ⟨whether, passedWhether, chain⟩ := binary_reads reads decided
  rw [runAt_isAt_bind] at rest
  split at rest
  · next asked =>
      have question : first.current.kind = .symbol .question := by simpa using asked
      obtain ⟨_, second, moved, afterQuestion⟩ := runAt_bind_eq_ok.mp rest
      have moved := runAt_discard_advance_eq_ok.mp moved
      obtain ⟨consequent, third, readYes, afterYes⟩ := runAt_bind_eq_ok.mp afterQuestion
      obtain ⟨_, fourth, divided, afterColon⟩ := runAt_bind_eq_ok.mp afterYes
      obtain ⟨colon, known⟩ := runAt_expect_eq_ok.mp divided
      obtain ⟨alternate, last, readNo, grown⟩ := runAt_bind_eq_ok.mp afterColon
      obtain ⟨rfl, rfl⟩ := build_eq_ok grown
      obtain ⟨yes, passedYes, yesDerivation⟩ := reads readYes
      obtain ⟨no, passedNo, noDerivation⟩ := reads readNo
      refine ⟨_, passedWhether.append (.token (by simp [question]) moved
        (passedYes.append (.token (by simp [colon]) known passedNo))), ?_⟩
      exact .conditional chain question yesDerivation colon noDerivation
  · obtain ⟨rfl, rfl⟩ := runAt_pure_eq_ok.mp rest
    exact ⟨whether, passedWhether, .chained chain⟩

theorem expressionWithin_reads (limits : Limits) (levels : Nat) :
    Reads (expressionWithin limits levels) fun tree => .expression tree.expr := by
  induction levels with
  | zero =>
      intro cursor tree after run
      obtain ⟨middle, inside, -⟩ := runAt_deeper_eq_ok.mp run
      simp at inside
  | succ levels ih =>
      intro cursor tree after run
      obtain ⟨middle, inside, rfl⟩ := runAt_deeper_eq_ok.mp run
      obtain ⟨tokens, passed, derivation⟩ := level_reads ih inside
      exact ⟨tokens, passed.of_deeper, derivation⟩

end TemplatedJson.Grammar
