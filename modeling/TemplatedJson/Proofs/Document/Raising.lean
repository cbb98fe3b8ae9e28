import TemplatedJson.Proofs.Document.Recognition
import TemplatedJson.Proofs.Node.Congruence
import TemplatedJson.Proofs.Reading.Raising
import TemplatedJson.Proofs.Template.Range

/-!
# Raising the limit only admits more

The limit on nesting refuses texts, and it does nothing else.  A result that is no
refusal stays the same under every higher limit, be it a tree or another error.  A
refusal turns into a tree, or into an error at the same place or later.  This holds
for expressions inside strings too, because their errors keep their order when they
are moved to the document.
-/

namespace TemplatedJson

/-- Whether a result under a limit gives way to the result under a higher one only as far
as a refusal does. -/
inductive GivesWay (low high : Nat) {Tree : Type} :
    Except ParseError Tree → Except ParseError Tree → Prop
  | tree {tree : Tree} : GivesWay low high (.ok tree) (.ok tree)
  | error {error : ParseError} : error.cause.limit? = none →
      GivesWay low high (.error error) (.error error)
  | refused {offset : Nat} {result : Except ParseError Tree} :
      (∀ error, result = .error error → offset ≤ error.offset ∧
        (error.cause.limit? = none ∨ error.cause.limit? = some high)) →
        GivesWay low high (.error ⟨.tooDeeplyNested low, offset⟩) result

namespace Parse

variable {low high base : Nat}

theorem Outlasts.givesWay {Value : Type} {ending other : Ending Value}
    (outlasts : Outlasts low high ending other) : GivesWay low high ending.1 other.1 := by
  cases outlasts with
  | value _ => exact .tree
  | error noLimit => exact .error noLimit
  | refused onward =>
      refine .refused fun error failed => ?_
      cases onward with
      | value _ _ => cases failed
      | error behind names =>
          obtain rfl := Except.error.inj failed
          exact ⟨behind, names⟩

/-! ### Expressions -/

theorem raising_agrees (raised : low ≤ high) (base : Nat) :
    (raising low high).Agrees ⟨low, base⟩ ⟨high, base⟩ := by
  have refuses : ∀ {Value : Type} (cursor : Cursor), cursor.Stands →
      Onward (some high) cursor.current.offset (runAt (tooDeep high : Parse Value) cursor) :=
    fun cursor _ => .error (Nat.le_refl _) (.inr rfl)
  constructor
  · intro tree cursor stands
    unfold build
    dsimp only
    by_cases fits : base + tree.height ≤ low
    · rw [if_pos fits, if_pos (Nat.le_trans fits raised)]
      exact (raising low high).yield tree cursor stands
    · rw [if_neg fits]
      have ahead : Onward (some high) cursor.current.offset
          (runAt (if base + tree.height ≤ high then pure tree else tooDeep high) cursor) := by
        split
        · exact .value stands (Nat.le_refl _)
        · exact refuses cursor stands
      exact ⟨.refused ahead, ahead⟩
  · intro Value cursor stands
    exact ⟨.refused (refuses cursor stands), refuses cursor stands⟩

/-- With more levels left an expression is read as far as with fewer. -/
theorem alike_expressionWithin (raised : low ≤ high) (base levels more : Nat) :
    Alike (raising low high) (expressionWithin ⟨low, base⟩ levels)
      (expressionWithin ⟨high, base⟩ (levels + more)) := by
  induction levels with
  | zero =>
      have agrees := raising_agrees (Nat.le_refl high) base
      exact Raised.of_tooDeep (Alike.expressionWithin agrees (0 + more))
  | succ levels ih =>
      rw [Nat.succ_add]
      have agrees := raising_agrees raised base
      exact Alike.deeper (Alike.level agrees ih)

/-- Under a higher limit more levels are left at any depth. -/
theorem exists_levels (raised : low ≤ high) (depth : Nat) :
    ∃ more, high - depth = low - depth + more :=
  Nat.exists_eq_add_of_le (Nat.sub_le_sub_right raised depth)

theorem alike_expression (raised : low ≤ high) (base : Nat) :
    Alike (raising low high) (Parse.expression ⟨low, base⟩) (Parse.expression ⟨high, base⟩) := by
  intro cursor stands
  unfold Parse.expression
  rw [runAt_get_bind, runAt_get_bind]
  dsimp only
  obtain ⟨more, levels⟩ := exists_levels raised cursor.depth
  rw [levels]
  have read := alike_expressionWithin raised base (low - cursor.depth) more
  exact (read.bind fun tree => .pure tree.expr) cursor stands

theorem alike_completeExpression (raised : low ≤ high) (base : Nat) :
    Alike (raising low high) (completeExpression ⟨low, base⟩)
      (completeExpression ⟨high, base⟩) := by
  exact (alike_expression raised base).bind fun _ => Alike.expectEnd.bind fun _ => .pure _

end Parse

theorem Expr.givesWay_parseInside {low high : Nat} (raised : low ≤ high) (depth : Nat)
    (text : String) :
    GivesWay low high (parseInside low depth text) (parseInside high depth text) := by
  cases located : Cursor.ofText text depth with
  | error error =>
      unfold parseInside
      rw [located]
      exact .error (ParseError.limit?_of_isLexical (Cursor.isLexical_of_ofText located))
  | ok cursor =>
      rw [parseInside_of_ofText located, parseInside_of_ofText located]
      have stands := Cursor.stands_of_ofText located
      exact (Parse.alike_completeExpression raised depth cursor stands).1.givesWay

namespace Parse

variable {low high : Nat}

/-! ### Values without containers -/

theorem onward_jsonNumber {cursor : Cursor} (stands : cursor.Stands) {bound offset : Nat}
    (behind : bound ≤ cursor.current.offset) (place : bound ≤ offset) (sign digits : String) :
    Onward none bound (runAt (jsonNumber sign digits offset) cursor) := by
  unfold jsonNumber
  split
  · split
    · exact .error place (.inl rfl)
    · exact .value stands behind
  · exact .error place (.inl rfl)

theorem alike_unsignedNumber : Alike (raising low high) unsignedNumber unsignedNumber := by
  apply Raised.of_onward
  intro cursor stands
  unfold unsignedNumber
  rw [runAt_get_bind, discard_advance_bind]
  apply Onward.advance stands (Nat.le_refl _)
  intro after standsAfter behind
  exact onward_jsonNumber standsAfter behind (Nat.le_refl _) _ _

theorem alike_negativeNumber : Alike (raising low high) negativeNumber negativeNumber := by
  apply Raised.of_onward
  intro cursor stands
  unfold negativeNumber
  apply Onward.advance stands (Nat.le_refl _)
  intro digits standsDigits behind
  rw [runAt_get_bind]
  dsimp only
  split
  · rw [discard_advance_bind]
    apply Onward.advance standsDigits behind
    intro after standsAfter behindAfter
    exact onward_jsonNumber standsAfter behindAfter (Nat.le_refl _) _ _
  · exact .error behind (.inl rfl)

/-- A string is passed, or it is refused where it begins. -/
theorem onward_jsonString {cursor : Cursor} (stands : cursor.Stands) :
    (∃ content after, runAt jsonString cursor = (.ok (content, cursor.current), after) ∧
      after.Stands ∧ cursor.current.stop ≤ after.current.offset) ∨
    ∃ error after, runAt jsonString cursor = (.error error, after) ∧
      error.cause.limit? = none ∧ cursor.current.offset ≤ error.offset := by
  unfold jsonString
  rw [runAt_get_bind]
  dsimp only
  split
  · next content _ =>
      rw [discard_advance_bind]
      rcases answered : cursor.upcoming.next with ⟨error | token, upcoming⟩
      · rw [runAt_bind_of_error (runAt_advance_of_error answered)]
        obtain ⟨noLimit, later⟩ := stands.of_error answered
        exact .inr ⟨error, _, rfl, noLimit, cursor.current.offset_le_of_stop_le later⟩
      · rw [runAt_bind_of_ok (runAt_advance_of_ok answered)]
        obtain ⟨standsNext, later⟩ := stands.of_ok answered
        exact .inl ⟨content, _, rfl, standsNext, later⟩
  · exact .inr ⟨_, cursor, rfl, rfl, Nat.le_refl _⟩
  · exact .inr ⟨_, cursor, rfl, rfl, Nat.le_refl _⟩

/-- The expression in a string gives way as it does alone, because its errors keep their
order and lie in the string. -/
theorem raised_stringValue (raised : low ≤ high) {cursor : Cursor} (stands : cursor.Stands)
    (content : String) {token : Token} (behind : token.stop ≤ cursor.current.offset) :
    Outlasts low high (runAt (stringValue low content token) cursor)
        (runAt (stringValue high content token) cursor) ∧
      Onward (some high) token.offset (runAt (stringValue high content token) cursor) := by
  have passed := token.offset_le_of_stop_le behind
  cases found : Template.detect? content with
  | none =>
      rw [runAt_stringValue_of_plain found, runAt_stringValue_of_plain found]
      exact ⟨.value stands, .value stands passed⟩
  | some embedded =>
      rw [runAt_stringValue_of_embedded found, runAt_stringValue_of_embedded found]
      have gives := Expr.givesWay_parseInside raised cursor.depth embedded.source
      generalize Expr.parseInside low cursor.depth embedded.source = tight at gives ⊢
      generalize Expr.parseInside high cursor.depth embedded.source = loose at gives ⊢
      cases gives with
      | tree => exact ⟨.value stands, .value stands passed⟩
      | error noLimit => exact ⟨.error noLimit, .error (Nat.le_add_right _ _) (.inl noLimit)⟩
      | @refused offset _ later =>
          cases loose with
          | ok tree =>
              have inside := Template.rawIndex_le token.raw (embedded.start + offset)
              have place : token.offset + Template.rawIndex token.raw (embedded.start + offset) ≤
                  cursor.current.offset := by
                unfold Token.stop at behind
                omega
              exact ⟨.refused (.value stands place), .value stands passed⟩
          | error error =>
              obtain ⟨notBefore, names⟩ := later error rfl
              have ordered := Template.rawIndex_mono token.raw
                (Nat.add_le_add_left notBefore embedded.start)
              exact ⟨.refused (.error (Nat.add_le_add_left ordered _) names),
                .error (Nat.le_add_right _ _) names⟩

theorem alike_stringNode (raised : low ≤ high) :
    Alike (raising low high) (stringNode low) (stringNode high) := by
  intro cursor stands
  unfold stringNode
  rcases onward_jsonString stands with
    ⟨content, after, ran, standsAfter, behind⟩ | ⟨error, after, ran, noLimit, later⟩
  · rw [runAt_bind_of_ok ran, runAt_bind_of_ok ran]
    exact raised_stringValue raised standsAfter content behind
  · rw [runAt_bind_of_error ran, runAt_bind_of_error ran]
    exact ⟨.error noLimit, .error later (.inl noLimit)⟩

theorem raising_leaves (raised : low ≤ high) : (raising low high).Leaves low high where
  unsigned := alike_unsignedNumber
  signed := .signedNumber alike_negativeNumber
  string := alike_stringNode raised
  refuses := (raising_agrees raised 0).refuses

theorem alike_valueWithin (raised : low ≤ high) (levels more : Nat) :
    Alike (raising low high) (valueWithin low levels) (valueWithin high (levels + more)) := by
  have leaves := raising_leaves raised
  have self := raising_leaves (Nat.le_refl high)
  induction levels with
  | zero =>
      rw [Nat.zero_add]
      cases more with
      | zero => exact Alike.valueWithin leaves 0
      | succ more =>
          have inside := Alike.valueWithin self more
          exact Alike.value leaves (Raised.of_tooDeep inside.object.deeper)
            (Raised.of_tooDeep inside.array.deeper)
  | succ levels ih =>
      rw [Nat.succ_add]
      exact Alike.value leaves ih.object.deeper ih.array.deeper

theorem alike_completeValue (raised : low ≤ high) :
    Alike (raising low high) (completeValue low) (completeValue high) := by
  intro cursor stands
  unfold completeValue
  rw [runAt_get_bind, runAt_get_bind]
  obtain ⟨more, levels⟩ := exists_levels raised cursor.depth
  rw [levels]
  have read := alike_valueWithin raised (low - cursor.depth) more
  exact (read.bind fun node => Alike.expectEnd.bind fun _ => .pure node) cursor stands

theorem raising_framed (raised : low ≤ high) : (raising low high).Framed low high where
  value := alike_completeValue raised
  expression := alike_expression raised 0

end Parse

/-! ### Whole texts -/

variable {low high : Nat}

/-- What gives way at a cursor gives way for the whole text. -/
theorem givesWay_observe {Tree : Type} {mode : Mode} {parser other : Parse Tree} {text : String}
    (raised : Parse.Raised low high parser other) :
    GivesWay low high (observe mode parser text ⟨low⟩).result
      (observe mode other text ⟨high⟩).result := by
  unfold observe
  cases located : Cursor.ofText text 0 with
  | error error =>
      exact .error (ParseError.limit?_of_isLexical (Cursor.isLexical_of_ofText located))
  | ok cursor => exact (raised cursor (Cursor.stands_of_ofText located)).1.givesWay

/-- Whether the outcome under a higher limit differs from the one under a lower limit only
where that one is a refusal to nest any deeper.  The refusal then turns into a tree, or
into an error at the same place or later that names no limit but the higher one. -/
structure Outcome.OnlyAdmits (low high : Nat) {Tree : Type} (tight loose : Outcome Tree) :
    Prop where
  tree : ∀ tree, tight = .ofExcept (.ok tree) → loose = .ofExcept (.ok tree)
  error : ∀ error, tight = .ofExcept (.error error) →
    (∀ limit, error.cause ≠ .tooDeeplyNested limit) → loose = .ofExcept (.error error)
  refusal : ∀ limit offset, tight = .ofExcept (.error ⟨.tooDeeplyNested limit, offset⟩) →
    limit = low ∧ ((∃ tree, loose = .ofExcept (.ok tree)) ∨
      ∃ later, loose = .ofExcept (.error later) ∧ offset ≤ later.offset ∧
        ∀ named, later.cause = .tooDeeplyNested named → named = high)

theorem ParseError.Cause.limit?_eq_some_iff {cause : Cause} {limit : Nat} :
    cause.limit? = some limit ↔ cause = .tooDeeplyNested limit := by
  cases cause <;> simp [Cause.limit?]

theorem GivesWay.onlyAdmits {Tree : Type} {result other : Except ParseError Tree}
    (gives : GivesWay low high result other) :
    Outcome.OnlyAdmits low high (.ofExcept result) (.ofExcept other) := by
  constructor
  · intro tree same
    obtain rfl := Outcome.ofExcept_inj.mp same
    cases gives with
    | tree => rfl
  · intro error same notNested
    obtain rfl := Outcome.ofExcept_inj.mp same
    cases gives with
    | error _ => rfl
    | refused _ => exact absurd rfl (notNested low)
  · intro limit offset same
    obtain rfl := Outcome.ofExcept_inj.mp same
    cases gives with
    | error noLimit => cases noLimit
    | refused later =>
        refine ⟨rfl, ?_⟩
        cases other with
        | ok tree => exact .inl ⟨tree, rfl⟩
        | error error =>
            obtain ⟨behind, names⟩ := later error rfl
            refine .inr ⟨error, rfl, behind, fun named nested => ?_⟩
            rw [ParseError.Cause.limit?_eq_some_iff.mpr nested] at names
            simpa using names

/-- The limit only refuses texts.  Raising it changes no tree and no error but refusals,
and no refusal turns into an error further to the front. -/
theorem limit_only_refuses (text : String) (raised : low ≤ high) :
    Outcome.OnlyAdmits low high (parseDocument text ⟨low⟩) (parseDocument text ⟨high⟩) ∧
      Outcome.OnlyAdmits low high (parseExpression text ⟨low⟩) (parseExpression text ⟨high⟩) := by
  have document : Parse.Raised low high (Parse.document low) (Parse.document high) :=
    Parse.Alike.document (Parse.raising_framed raised)
  have expression := Parse.alike_completeExpression raised 0
  exact ⟨(givesWay_observe document).onlyAdmits, (givesWay_observe expression).onlyAdmits⟩

/-- A template that is too deep for the limit at its parenthesis turns out to be
unfinished behind it. -/
theorem limit_only_refuses_unfinished : 1 ≤ 3 ∧
    parseDocument "[\"=(a\"]" ⟨1⟩ = .ofExcept (.error ⟨.tooDeeplyNested 1, 3⟩) ∧
      ∃ later, parseDocument "[\"=(a\"]" ⟨3⟩ = .ofExcept (.error later) ∧ 3 ≤ later.offset ∧
        ∀ named, later.cause = .tooDeeplyNested named → named = 3 := by
  have raised : 1 ≤ 3 := by decide
  have refused : parseDocument "[\"=(a\"]" ⟨1⟩ = .ofExcept (.error ⟨.tooDeeplyNested 1, 3⟩) := by
    decide +kernel
  refine ⟨raised, refused, ?_⟩
  obtain ⟨-, turns⟩ := (limit_only_refuses "[\"=(a\"]" raised).1.refusal 1 3 refused
  rcases turns with ⟨tree, parsed⟩ | turns
  · have fails : (parseDocument "[\"=(a\"]" ⟨3⟩).success = false := by decide +kernel
    rw [parsed] at fails
    cases fails
  · exact turns

end TemplatedJson
