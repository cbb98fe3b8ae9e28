import TemplatedJson.Proofs.Expr.Completeness
import TemplatedJson.Proofs.Expr.Soundness

/-!
# Where parsers of expressions stop

A loop over tokens stops where a token does not continue it.  It never stops earlier, since
its bound counts all tokens that are left.  So no token that could continue an expression
stands behind one that was read.
-/

namespace TemplatedJson

/-! ### Bounds of loops -/

namespace Cursor

variable {cursor middle after : Cursor} {tokens : List Token} {more : Nat}

/-- Whether a bound is large enough for all tokens up to the end of the text. -/
def Enough (more : Nat) (cursor : Cursor) : Prop :=
  cursor.current.kind ≠ .endOfInput → cursor.remaining ≤ more

theorem enough_remaining (cursor : Cursor) : cursor.Enough cursor.remaining :=
  fun _ => Nat.le_refl _

/-- Only at the end of the text no step is left. -/
theorem Enough.atEnd (enough : cursor.Enough 0) : cursor.current.kind = .endOfInput :=
  Decidable.not_not.mp fun notEnd => Nat.not_succ_le_zero _ (enough notEnd)

theorem Passes.remaining_lt (passed : cursor.Passes tokens after) (nonempty : tokens ≠ [])
    (notEnd : after.current.kind ≠ .endOfInput) : after.remaining < cursor.remaining := by
  induction passed with
  | none => exact absurd rfl nonempty
  | @token cursor middle after tokens _ known later ih =>
      obtain ⟨notMore, fewer⟩ := remaining_following? known
      cases tokens with
      | nil =>
          obtain rfl := passes_nil_iff.mp later
          exact fewer notEnd
      | cons second tokens => exact Nat.lt_of_lt_of_le (ih (by simp) notEnd) notMore

/-- After a step over some tokens, one step less is enough. -/
theorem Enough.step (enough : cursor.Enough (more + 1)) (passed : cursor.Passes tokens after)
    (nonempty : tokens ≠ []) : after.Enough more := by
  intro notEnd
  have fewer := passed.remaining_lt nonempty notEnd
  match tokens, nonempty with
  | first :: others, _ =>
      obtain ⟨rfl, begins, -⟩ := passes_cons_iff.mp passed
      have bound := enough begins
      omega

end Cursor

namespace Grammar

open Parse

variable {limits : Limits} {reader : Parse Measured} {cursor after : Cursor} {more : Nat}

/-- Nothing is read at the end of the text. -/
theorem Reads.not_atEnd (reads : Reads reader fun tree => .expression tree.expr) {tree : Measured}
    (run : runAt reader cursor = (.ok tree, after)) : cursor.current.kind ≠ .endOfInput := by
  obtain ⟨tokens, passed, derivation⟩ := reads run
  obtain ⟨first, rest, rfl, -⟩ := derivation.starts rfl
  obtain ⟨rfl, notEnd, -⟩ := Cursor.passes_cons_iff.mp passed
  exact notEnd

/-- Whether no token behind what the parser read continues an expression. -/
def EndsExpression (reader : Parse Measured) : Prop :=
  ∀ ⦃cursor tree after⦄, runAt reader cursor = (.ok tree, after) →
    continuesExpression after.current.kind = false

theorem prefixOperators_ends {operators : List PrefixOperator} (enough : cursor.Enough more)
    (run : runAt (prefixOperators more) cursor = (.ok operators, after))
    (operator : PrefixOperator) :
    after.current.kind ≠ .symbol operator.symbol := by
  induction more generalizing cursor operators with
  | zero =>
      obtain ⟨rfl, rfl⟩ := runAt_pure_eq_ok.mp run
      simp [enough.atEnd]
  | succ more ih =>
      unfold prefixOperators at run
      rw [runAt_currentKind_bind] at run
      split at run
      · next symbol kind =>
          split at run
          · obtain ⟨_, middle, moved, rest⟩ := runAt_bind_eq_ok.mp run
            obtain ⟨others, later, rfl⟩ := runAt_bind_pure_eq_ok.mp rest
            have known := runAt_discard_advance_eq_ok.mp moved
            exact ih (enough.step (Cursor.passes_current (by simp [kind]) known) (by simp)) later
          · next noPrefix =>
              obtain ⟨rfl, rfl⟩ := runAt_pure_eq_ok.mp run
              intro same
              rw [kind, Token.Kind.symbol.injEq] at same
              simp [PrefixOperator.ofSymbol?_eq_some_iff.mpr same] at noPrefix
      · next noSymbol =>
          obtain ⟨rfl, rfl⟩ := runAt_pure_eq_ok.mp run
          exact noSymbol operator.symbol

theorem commaSeparated_ends (reads : Reads reader fun tree => .expression tree.expr)
    (ends : EndsExpression reader) {trees : List Measured} (enough : cursor.Enough more)
    (run : runAt (commaSeparated reader more) cursor = (.ok trees, after)) :
    after.current.kind ≠ .symbol .comma ∧ continuesExpression after.current.kind = false := by
  induction more generalizing cursor trees with
  | zero =>
      obtain ⟨tree, read, rfl⟩ := runAt_bind_pure_eq_ok.mp run
      exact absurd enough.atEnd (reads.not_atEnd read)
  | succ more ih =>
      unfold commaSeparated at run
      obtain ⟨first, middle, read, rest⟩ := runAt_bind_eq_ok.mp run
      rw [runAt_isAt_bind] at rest
      split at rest
      · next atComma =>
          obtain ⟨_, next, moved, rest⟩ := runAt_bind_eq_ok.mp rest
          obtain ⟨others, later, rfl⟩ := runAt_bind_pure_eq_ok.mp rest
          obtain ⟨tokens, passed, -⟩ := reads read
          have comma : middle.current.kind = .symbol .comma := by simpa using atComma
          have passedComma := Cursor.passes_current (by simp [comma])
            (runAt_discard_advance_eq_ok.mp moved)
          exact ih (enough.step (passed.append passedComma) (by simp)) later
      · next notComma =>
          obtain ⟨rfl, rfl⟩ := runAt_pure_eq_ok.mp rest
          exact ⟨by simpa using notComma, ends read⟩

/-- The arguments of a call are read up to the closing parenthesis. -/
theorem listUntil_reads (reads : Reads reader fun tree => .expression tree.expr)
    {trees : List Measured}
    (run : runAt (listUntil .rightParenthesis reader) cursor = (.ok trees, after)) :
    ∃ inside closing, Token.kind closing = .symbol .rightParenthesis ∧
      cursor.Passes (inside ++ [closing]) after ∧
      Derives (.arguments (trees.map Measured.expr)) inside := by
  rcases listUntil_eq_ok run with ⟨rfl, closes, known⟩ | ⟨-, stop, separated, closes, known⟩
  · exact ⟨[], _, closes, Cursor.passes_current (by simp [closes]) known, .noArgument⟩
  · obtain ⟨inside, passed, arguments⟩ := arguments_derive reads separated
    exact ⟨inside, _, closes, passed.append (Cursor.passes_current (by simp [closes]) known),
      arguments⟩

theorem postfixes_ends (reads : Reads reader fun tree => .expression tree.expr)
    {base tree : Measured} (enough : cursor.Enough more)
    (run : runAt (postfixes limits reader more base) cursor = (.ok tree, after)) :
    continuesChain after.current.kind = false := by
  induction more generalizing cursor base with
  | zero =>
      obtain ⟨rfl, rfl⟩ := runAt_pure_eq_ok.mp run
      rw [enough.atEnd]
      rfl
  | succ more ih =>
      unfold postfixes at run
      rw [runAt_isAt_bind] at run
      split at run
      · next called =>
          have opens : cursor.current.kind = .symbol .leftParenthesis := by simpa using called
          obtain ⟨_, middle, moved, inner⟩ := runAt_bind_eq_ok.mp run
          obtain ⟨trees, last, listed, growing⟩ := runAt_bind_eq_ok.mp inner
          obtain ⟨built, final, grown, rest⟩ := runAt_bind_eq_ok.mp growing
          obtain ⟨rfl, rfl⟩ := build_eq_ok grown
          obtain ⟨inside, closing, -, passed, -⟩ := listUntil_reads reads listed
          have passedAll := Cursor.Passes.token (by simp [opens])
            (runAt_discard_advance_eq_ok.mp moved) passed
          exact ih (enough.step passedAll (by simp)) rest
      · next notCalled =>
          rw [runAt_isAtSelector_bind] at run
          split at run
          · obtain ⟨selector, last, read, growing⟩ := runAt_bind_eq_ok.mp run
            obtain ⟨built, final, grown, rest⟩ := runAt_bind_eq_ok.mp growing
            obtain ⟨rfl, rfl⟩ := build_eq_ok grown
            obtain ⟨tokens, passed, selected⟩ := selector_reads reads read
            obtain ⟨first, others, rfl, -⟩ := selected.selector_starts
            exact ih (enough.step passed (by simp)) rest
          · next notSelected =>
              obtain ⟨rfl, rfl⟩ := runAt_pure_eq_ok.mp run
              unfold continuesChain
              split <;> simp_all

theorem operand_ends (reads : Reads reader fun tree => .expression tree.expr) {tree : Measured}
    (run : runAt (Parse.operand limits reader) cursor = (.ok tree, after)) :
    continuesChain after.current.kind = false := by
  unfold Parse.operand at run
  rw [runAt_get_bind] at run
  obtain ⟨operators, first, signed, afterSigns⟩ := runAt_bind_eq_ok.mp run
  obtain ⟨base, second, based, afterBase⟩ := runAt_bind_eq_ok.mp afterSigns
  rw [runAt_get_bind] at afterBase
  obtain ⟨chain, third, chained, applied⟩ := runAt_bind_eq_ok.mp afterBase
  obtain ⟨-, rfl⟩ := applyPrefixes_eq_ok applied
  exact postfixes_ends reads second.enough_remaining chained

/-- Combining operands passes no token. -/
theorem combine_stays {least : Nat} {pending : Pending} {right : Measured}
    {combined : Pending × Measured}
    (run : runAt (combine limits least pending right) cursor = (.ok combined, after)) :
    after = cursor := by
  induction pending generalizing right with
  | nil => exact (runAt_pure_eq_ok.mp run).2
  | cons waiting outer ih =>
      obtain ⟨left, operator⟩ := waiting
      unfold combine at run
      split at run
      · obtain ⟨built, middle, grown, rest⟩ := runAt_bind_eq_ok.mp run
        obtain ⟨rfl, rfl⟩ := build_eq_ok grown
        exact ih rest
      · exact (runAt_pure_eq_ok.mp run).2

theorem operatorChain_ends (reads : Reads reader fun tree => .expression tree.expr)
    {pending : Pending} {right tree : Measured} (enough : cursor.Enough more)
    (unchained : continuesChain cursor.current.kind = false)
    (run : runAt (operatorChain limits reader more pending right) cursor = (.ok tree, after)) :
    continuesChain after.current.kind = false ∧ operatorOf? after.current.kind = none := by
  induction more generalizing cursor pending right with
  | zero =>
      obtain ⟨combined, all, rfl⟩ := runAt_bind_pure_eq_ok.mp run
      rw [combine_stays all]
      exact ⟨unchained, by rw [enough.atEnd]; rfl⟩
  | succ more ih =>
      unfold operatorChain at run
      rw [runAt_currentOperator?_bind] at run
      split at run
      · next noOperator =>
          obtain ⟨combined, all, rfl⟩ := runAt_bind_pure_eq_ok.mp run
          rw [combine_stays all]
          exact ⟨unchained, noOperator⟩
      · next operator found =>
          obtain ⟨⟨outer, left⟩, middle, combined, moving⟩ := runAt_bind_eq_ok.mp run
          obtain rfl := combine_stays combined
          obtain ⟨_, second, moved, reading⟩ := runAt_bind_eq_ok.mp moving
          obtain ⟨next, third, read, looping⟩ := runAt_bind_eq_ok.mp reading
          have kind := operatorOf?_eq_some_iff.mp found
          obtain ⟨tokens, passed, -⟩ := operand_reads reads read
          have passedAll := Cursor.Passes.token (by simp [kind])
            (runAt_discard_advance_eq_ok.mp moved) passed
          exact ih (enough.step passedAll (by simp)) (operand_ends reads read) looping

theorem binary_ends (reads : Reads reader fun tree => .expression tree.expr) {tree : Measured}
    (run : runAt (Parse.binary limits reader) cursor = (.ok tree, after)) :
    continuesChain after.current.kind = false ∧ operatorOf? after.current.kind = none := by
  unfold Parse.binary at run
  obtain ⟨first, middle, read, rest⟩ := runAt_bind_eq_ok.mp run
  rw [runAt_get_bind] at rest
  exact operatorChain_ends reads middle.enough_remaining (operand_ends reads read) rest

theorem level_ends (reads : Reads reader fun tree => .expression tree.expr)
    (ends : EndsExpression reader) : EndsExpression (Parse.level limits reader) := by
  intro cursor tree after run
  unfold Parse.level at run
  obtain ⟨condition, first, decided, rest⟩ := runAt_bind_eq_ok.mp run
  obtain ⟨unchained, noOperator⟩ := binary_ends reads decided
  rw [runAt_isAt_bind] at rest
  split at rest
  · obtain ⟨_, second, moved, afterQuestion⟩ := runAt_bind_eq_ok.mp rest
    obtain ⟨consequent, third, readYes, afterYes⟩ := runAt_bind_eq_ok.mp afterQuestion
    obtain ⟨_, fourth, divided, afterColon⟩ := runAt_bind_eq_ok.mp afterYes
    obtain ⟨alternate, last, readNo, grown⟩ := runAt_bind_eq_ok.mp afterColon
    obtain ⟨rfl, rfl⟩ := build_eq_ok grown
    exact ends readNo
  · next notAsked =>
      obtain ⟨rfl, rfl⟩ := runAt_pure_eq_ok.mp rest
      exact continuesExpression_eq_false_iff.mpr ⟨unchained, by simpa using notAsked, noOperator⟩

/-- Behind an expression stands no token that could continue it. -/
theorem expressionWithin_ends (limits : Limits) (levels : Nat) :
    EndsExpression (expressionWithin limits levels) := by
  induction levels with
  | zero =>
      intro cursor tree after run
      obtain ⟨middle, inside, -⟩ := runAt_deeper_eq_ok.mp run
      simp at inside
  | succ levels ih =>
      intro cursor tree after run
      obtain ⟨middle, inside, rfl⟩ := runAt_deeper_eq_ok.mp run
      have outside := level_ends (expressionWithin_reads limits levels) ih inside
      exact outside

end Grammar

end TemplatedJson
