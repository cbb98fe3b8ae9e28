import TemplatedJson.Proofs.Reading.Order
import TemplatedJson.Proofs.Reading.Refusal

/-!
# Runs under a raised limit

Of two runs that begin at one place, the second may be under a higher limit.  As long
as the lower limit does not refuse the text, both runs go the same way.  Where it
does, the second run is already known to have gone at least as far, because no run
goes back: what it meets behind a token lies behind that token in the text.
-/

namespace TemplatedJson.Parse

variable {Value Image : Type} {named : Option Nat} {bound : Nat} {cursor : Cursor}

/-! ### Runs that never go back -/

/-- Whether a run keeps behind a place.  It stops there or later, or else it fails
there or later and names at most the given limit. -/
inductive Onward (named : Option Nat) (bound : Nat) {Value : Type} : Ending Value → Prop
  | value {value : Value} {after : Cursor} : after.Stands → bound ≤ after.current.offset →
      Onward named bound (.ok value, after)
  | error {error : ParseError} {after : Cursor} : bound ≤ error.offset →
      (error.cause.limit? = none ∨ error.cause.limit? = named) →
        Onward named bound (.error error, after)

namespace Onward

theorem goOn {next : Value → Parse Image} {ending : Ending Value}
    (onward : Onward named bound ending)
    (rest : ∀ value after, after.Stands → bound ≤ after.current.offset →
      Onward named bound (runAt (next value) after)) :
    Onward named bound (Parse.goOn next ending) := by
  cases onward with
  | value stands behind => exact rest _ _ stands behind
  | error behind names => exact .error behind names

theorem bind {parser : Parse Value} {next : Value → Parse Image}
    (first : Onward named bound (runAt parser cursor))
    (rest : ∀ value after, after.Stands → bound ≤ after.current.offset →
      Onward named bound (runAt (next value) after)) :
    Onward named bound (runAt (parser >>= next) cursor) := by
  rw [runAt_bind]
  exact first.goOn rest

theorem mono {ending : Ending Value} (onward : Onward named bound ending) {lower : Nat}
    (below : lower ≤ bound) : Onward named lower ending := by
  cases onward with
  | value stands behind => exact .value stands (Nat.le_trans below behind)
  | error behind names => exact .error (Nat.le_trans below behind) names

/-- A run that names no limit may as well name any. -/
theorem of_none {ending : Ending Value} (onward : Onward none bound ending) :
    Onward named bound ending := by
  cases onward with
  | value stands behind => exact .value stands behind
  | error behind names =>
      rw [or_self] at names
      exact .error behind (.inl names)

theorem advance {next : Token → Parse Image} (stands : cursor.Stands)
    (behind : bound ≤ cursor.current.offset)
    (rest : ∀ after, after.Stands → bound ≤ after.current.offset →
      Onward named bound (runAt (next cursor.current) after)) :
    Onward named bound (runAt (advance >>= next) cursor) := by
  rcases answered : cursor.upcoming.next with ⟨error | token, upcoming⟩
  · rw [runAt_bind_of_error (runAt_advance_of_error answered)]
    obtain ⟨noLimit, later⟩ := stands.of_error answered
    exact .error (Nat.le_trans behind (cursor.current.offset_le_of_stop_le later)) (.inl noLimit)
  · rw [runAt_bind_of_ok (runAt_advance_of_ok answered)]
    obtain ⟨standsNext, later⟩ := stands.of_ok answered
    exact rest _ standsNext (Nat.le_trans behind (cursor.current.offset_le_of_stop_le later))

end Onward

/-! ### Two runs -/

variable {low high : Nat}

/-- Whether a run under a higher limit ends as the run under the lower one does, or goes
at least as far as the refusal with which that one ends. -/
inductive Outlasts (low high : Nat) {Value : Type} : Ending Value → Ending Value → Prop
  | value {value : Value} {after : Cursor} : after.Stands →
      Outlasts low high (.ok value, after) (.ok value, after)
  | error {error : ParseError} {after : Cursor} : error.cause.limit? = none →
      Outlasts low high (.error error, after) (.error error, after)
  | refused {offset : Nat} {after : Cursor} {ending : Ending Value} :
      Onward (some high) offset ending →
        Outlasts low high (.error ⟨.tooDeeplyNested low, offset⟩, after) ending

theorem Outlasts.bind {parser other : Parse Value} {next otherNext : Value → Parse Image}
    (first : Outlasts low high (runAt parser cursor) (runAt other cursor))
    (rest : ∀ value after, after.Stands →
      Outlasts low high (runAt (next value) after) (runAt (otherNext value) after) ∧
        Onward (some high) after.current.offset (runAt (otherNext value) after)) :
    Outlasts low high (runAt (parser >>= next) cursor) (runAt (other >>= otherNext) cursor) := by
  rw [runAt_bind, runAt_bind]
  generalize runAt parser cursor = ending, runAt other cursor = otherEnding at first ⊢
  cases first with
  | value stands => exact (rest _ _ stands).1
  | error noLimit => exact .error noLimit
  | refused onward =>
      exact .refused (onward.goOn fun value after stands behind =>
        (rest value after stands).2.mono behind)

/-- Whether a parser under a higher limit outlasts another one wherever they begin,
without ever going back. -/
def Raised (low high : Nat) {Value : Type} (parser other : Parse Value) : Prop :=
  ∀ cursor : Cursor, cursor.Stands →
    Outlasts low high (runAt parser cursor) (runAt other cursor) ∧
      Onward (some high) cursor.current.offset (runAt other cursor)

namespace Raised

variable {parser other : Parse Value} {next otherNext : Value → Parse Image}

theorem bind (first : Raised low high parser other)
    (rest : ∀ value, Raised low high (next value) (otherNext value)) :
    Raised low high (parser >>= next) (other >>= otherNext) := by
  intro cursor stands
  obtain ⟨outlasts, onward⟩ := first cursor stands
  refine ⟨outlasts.bind fun value after => rest value after, ?_⟩
  exact onward.bind fun value after standsAfter behind =>
    ((rest value after standsAfter).2).mono behind

/-- A parser that names no limit outlasts itself. -/
theorem of_onward (onward : ∀ cursor : Cursor, cursor.Stands →
    Onward none cursor.current.offset (runAt parser cursor)) : Raised low high parser parser := by
  intro cursor stands
  refine ⟨?_, (onward cursor stands).of_none⟩
  have ends := onward cursor stands
  generalize runAt parser cursor = ending at ends
  cases ends with
  | value standsAfter _ => exact .value standsAfter
  | error _ names =>
      rw [or_self] at names
      exact .error names

/-- Where no level is left under the lower limit, it is enough that the other parser never
goes back. -/
theorem of_tooDeep (onward : Raised high high other other) :
    Raised low high (Parse.deeper (tooDeep low)) other := by
  intro cursor stands
  have ahead := (onward cursor stands).2
  exact ⟨.refused ahead, ahead⟩

theorem deeper (inside : Raised low high parser other) :
    Raised low high (deeper parser) (deeper other) := by
  intro cursor stands
  unfold Parse.deeper
  rw [runAt_modify_bind, runAt_modify_bind]
  have leave : ∀ value : Value, Raised low high
      (modify (fun cursor => { cursor with depth := cursor.depth - 1 }) >>= fun _ => pure value)
      (modify (fun cursor => { cursor with depth := cursor.depth - 1 }) >>= fun _ => pure value) :=
    fun value after standsAfter =>
      ⟨.value standsAfter, .value standsAfter (Nat.le_refl _)⟩
  exact inside.bind leave { cursor with depth := cursor.depth + 1 } stands

end Raised

/-- Outlasting respects the steps of parsers.  Both parsers meet the same tokens, because
they run in step until one of them stops. -/
def raising (low high : Nat) : Congruence where
  relates parser other := Raised low high parser other
  meets token other := token = other
  kind_eq := congrArg Token.kind
  raw_eq := congrArg Token.raw
  yield value := Raised.of_onward fun _ stands => .value stands (Nat.le_refl _)
  join := Raised.bind
  look := by
    intro Image next otherNext rest cursor stands
    rw [runAt_get_bind, runAt_get_bind]
    refine (rest cursor cursor rfl rfl).elim (fun related => related cursor stands) ?_
    intro cause blames
    have noLimit := blames.limit?_eq_none
    exact ⟨.error noLimit, .error (Nat.le_refl _) (.inl noLimit)⟩
  advance := by
    intro Image next otherNext rest cursor stands
    rcases answered : cursor.upcoming.next with ⟨error | token, upcoming⟩
    · rw [runAt_bind_of_error (runAt_advance_of_error answered),
        runAt_bind_of_error (runAt_advance_of_error answered)]
      obtain ⟨noLimit, behind⟩ := stands.of_error answered
      exact ⟨.error noLimit, .error (cursor.current.offset_le_of_stop_le behind) (.inl noLimit)⟩
    · rw [runAt_bind_of_ok (runAt_advance_of_ok answered),
        runAt_bind_of_ok (runAt_advance_of_ok answered)]
      obtain ⟨standsNext, behind⟩ := stands.of_ok answered
      refine (rest cursor.current cursor.current rfl).elim ?_ ?_
      · intro related
        obtain ⟨outlasts, onward⟩ := related _ standsNext
        exact ⟨outlasts, onward.mono (cursor.current.offset_le_of_stop_le behind)⟩
      · intro cause blames
        have noLimit := blames.limit?_eq_none
        exact ⟨.error noLimit, .error (Nat.le_refl _) (.inl noLimit)⟩
  peek := by
    intro Image next otherNext rest cursor stands
    rcases answered : cursor.upcoming.next with ⟨error | token, upcoming⟩
    · rw [runAt_bind_of_error (runAt_peek_of_error answered),
        runAt_bind_of_error (runAt_peek_of_error answered)]
      obtain ⟨noLimit, behind⟩ := stands.of_error answered
      exact ⟨.error noLimit, .error (cursor.current.offset_le_of_stop_le behind) (.inl noLimit)⟩
    · rw [runAt_bind_of_ok (runAt_peek_of_ok answered),
        runAt_bind_of_ok (runAt_peek_of_ok answered)]
      exact rest token token rfl cursor stands
  deeper := Raised.deeper

end TemplatedJson.Parse
