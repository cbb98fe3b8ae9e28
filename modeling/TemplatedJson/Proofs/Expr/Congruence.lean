import TemplatedJson.Proofs.Reading.Congruence

/-!
# The expression parser respects relations

The expression parser is made of steps, and it consults its limit in two places
only: when a node is built, and when no level is left.  So it is related to itself
by whatever respects the steps, even under another limit, as long as building and
refusing under the two limits are related.
-/

namespace TemplatedJson.Parse

/-- Whether building a node and refusing to go deeper under two limits are related. -/
structure Congruence.Agrees (congr : Congruence) (limits others : Limits) : Prop where
  build : ∀ tree : Measured, Alike congr (build limits tree) (build others tree)
  refuses : ∀ {Value : Type},
    Alike congr (tooDeep limits.maximum : Parse Value) (tooDeep others.maximum)

/-- Limits that leave the same room agree if their refusals do. -/
theorem Congruence.Agrees.of_fits {congr : Congruence} {limits others : Limits}
    (fits : ∀ height,
      limits.base + height ≤ limits.maximum ↔ others.base + height ≤ others.maximum)
    (refuses : ∀ {Value : Type},
      Alike congr (tooDeep limits.maximum : Parse Value) (tooDeep others.maximum)) :
    congr.Agrees limits others where
  build tree := by
    unfold Parse.build
    simp only [fits tree.height]
    exact .ite (.pure _) refuses
  refuses := refuses

namespace Alike

variable {congr : Congruence} {limits others : Limits} {reader other : Parse Measured}

/-! ### Selectors and primary expressions -/

theorem propertyName : Alike congr propertyName propertyName := by
  apply advance_bind
  rintro ⟨kind, raw, offset⟩ ⟨_, _, otherOffset⟩ meets
  obtain ⟨rfl, rfl⟩ : kind = _ ∧ raw = _ := ⟨congr.kind_eq meets, congr.raw_eq meets⟩
  dsimp only
  split
  · exact .related (pure _)
  · exact .related (pure _)
  · exact .related (pure _)
  · exact failAt meets _

theorem bracketKey (reads : Alike congr reader other) :
    Alike congr (bracketKey reader) (bracketKey other) := by
  have computed : Alike congr (reader >>= fun key => Pure.pure (Selector.key key))
      (other >>= fun key => Pure.pure (Selector.key key)) :=
    reads.bind fun _ => pure _
  apply currentKind.bind
  intro kind
  split
  · apply peek_bind
    intro token other meets
    rw [congr.kind_eq meets]
    exact ite (discard_advance.bind fun _ => pure _) computed
  · exact computed

theorem selector (reads : Alike congr reader other) :
    Alike congr (selector reader) (selector other) := by
  refine (isAt .dot).bind fun _ => ite ?_ ?_
  · exact discard_advance.bind fun _ => propertyName.bind fun _ => pure _
  · refine (expect .leftBracket).bind fun _ => reads.bracketKey.bind fun picked => ?_
    exact (expect .rightBracket).bind fun _ => pure _

theorem scopeSelector (reads : Alike congr reader other) :
    Alike congr (scopeSelector reader) (scopeSelector other) :=
  isAtSelector.bind fun _ => ite reads.selector (unexpected _)

theorem primary (agrees : congr.Agrees limits others) (reads : Alike congr reader other) :
    Alike congr (primary limits reader) (primary others other) := by
  apply advance_bind
  rintro ⟨kind, raw, offset⟩ ⟨_, _, otherOffset⟩ meets
  obtain ⟨rfl, rfl⟩ : kind = _ ∧ raw = _ := ⟨congr.kind_eq meets, congr.raw_eq meets⟩
  dsimp only
  split
  · split
    · exact .related (pure _)
    · exact .refused ⟨rfl, rfl⟩
  · exact .related (pure _)
  · exact .related (pure _)
  · exact .related (pure _)
  · exact .related (pure _)
  · exact .related (reads.scopeSelector.bind fun _ => agrees.build _)
  · exact .related (reads.scopeSelector.bind fun _ => agrees.build _)
  · exact .related (reads.bind fun _ => (expect .rightParenthesis).bind fun _ => agrees.build _)
  · exact failAt meets _

/-! ### Operands -/

theorem prefixOperators (more : Nat) :
    Alike congr (prefixOperators more) (prefixOperators more) := by
  induction more with
  | zero => exact pure _
  | succ more ih =>
      apply currentKind.bind
      intro kind
      split
      · split
        · exact discard_advance.bind fun _ => ih.bind fun _ => pure _
        · exact pure _
      · exact pure _

theorem postfixes (agrees : congr.Agrees limits others) (reads : Alike congr reader other)
    (more : Nat) (base : Measured) :
    Alike congr (postfixes limits reader more base) (postfixes others other more base) := by
  induction more generalizing base with
  | zero => exact pure _
  | succ more ih =>
      refine (isAt .leftParenthesis).bind fun _ => ite ?_ ?_
      · refine discard_advance.bind fun _ => (reads.listUntil .rightParenthesis).bind fun _ => ?_
        exact (agrees.build _).bind ih
      · refine isAtSelector.bind fun _ => ite ?_ (pure _)
        exact reads.selector.bind fun _ => (agrees.build _).bind ih

theorem applyPrefixes (agrees : congr.Agrees limits others) (operators : List PrefixOperator)
    (operand : Measured) :
    Alike congr (applyPrefixes limits operators operand)
      (applyPrefixes others operators operand) := by
  induction operators with
  | nil => exact pure _
  | cons operator operators ih => exact ih.bind fun _ => agrees.build _

theorem operand (agrees : congr.Agrees limits others) (reads : Alike congr reader other) :
    Alike congr (operand limits reader) (operand others other) := by
  apply look
  intro cursor otherCursor _ remaining
  rw [remaining]
  apply About.related
  refine (prefixOperators _).bind fun operators => (primary agrees reads).bind fun base => ?_
  apply look
  intro cursor otherCursor _ remaining
  rw [remaining]
  apply About.related
  exact (postfixes agrees reads _ base).bind fun _ => applyPrefixes agrees operators _

/-! ### Chains of operators and whole expressions -/

theorem combine (agrees : congr.Agrees limits others) (least : Nat) (pending : Pending)
    (right : Measured) :
    Alike congr (combine limits least pending right) (combine others least pending right) := by
  induction pending generalizing right with
  | nil => exact pure _
  | cons waiting outer ih => exact ite ((agrees.build _).bind ih) (pure _)

theorem operatorChain (agrees : congr.Agrees limits others) (reads : Alike congr reader other)
    (more : Nat) (pending : Pending) (right : Measured) :
    Alike congr (operatorChain limits reader more pending right)
      (operatorChain others other more pending right) := by
  have last : ∀ pending right, Alike congr
      (Parse.combine limits 0 pending right >>= fun combined => Pure.pure combined.2)
      (Parse.combine others 0 pending right >>= fun combined => Pure.pure combined.2) :=
    fun pending right => (combine agrees 0 pending right).bind fun _ => pure _
  induction more generalizing pending right with
  | zero => exact last pending right
  | succ more ih =>
      apply currentOperator?.bind
      intro found
      split
      · exact last pending right
      · refine (combine agrees _ pending right).bind fun combined => ?_
        refine discard_advance.bind fun _ => (operand agrees reads).bind fun next => ?_
        exact ih _ next

theorem binary (agrees : congr.Agrees limits others) (reads : Alike congr reader other) :
    Alike congr (binary limits reader) (binary others other) := by
  apply (operand agrees reads).bind
  intro first
  apply look
  intro cursor otherCursor _ remaining
  rw [remaining]
  exact .related (operatorChain agrees reads _ [] first)

theorem level (agrees : congr.Agrees limits others) (reads : Alike congr reader other) :
    Alike congr (level limits reader) (level others other) := by
  refine (binary agrees reads).bind fun condition => (isAt .question).bind fun _ => ite ?_ (pure _)
  refine discard_advance.bind fun _ => reads.bind fun consequent => ?_
  exact (expect .colon).bind fun _ => reads.bind fun _ => agrees.build _

/-- Expressions are related as long as as many levels are left. -/
theorem expressionWithin (agrees : congr.Agrees limits others) (levels : Nat) :
    Alike congr (expressionWithin limits levels) (expressionWithin others levels) := by
  induction levels with
  | zero => exact agrees.refuses.deeper
  | succ levels ih => exact (level agrees ih).deeper

end Alike

end TemplatedJson.Parse
