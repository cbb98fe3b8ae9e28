import TemplatedJson.Proofs.Reading.Run

/-!
# What every result of a parser satisfies

A parser ensures a property when every value that it yields, from any cursor,
has the property.  The rules follow the ways of joining parsers.
-/

namespace TemplatedJson.Parse

variable {Value Image : Type}

/-- Every value that the parser yields has the property. -/
def Ensures (parser : Parse Value) (holds : Value → Prop) : Prop :=
  ∀ ⦃cursor value after⦄, runAt parser cursor = (.ok value, after) → holds value

namespace Ensures

variable {parser other : Parse Value} {holds : Value → Prop}

theorem pure {value : Value} (known : holds value) : Ensures (pure value) holds := by
  intro cursor found after run
  obtain ⟨rfl, -⟩ := runAt_pure_eq_ok.mp run
  exact known

/-- A parser that never succeeds ensures everything. -/
theorem of_error (fails : ∀ cursor, ∃ error after, runAt parser cursor = (.error error, after)) :
    Ensures parser holds := by
  intro cursor value after run
  obtain ⟨error, stopped, failed⟩ := fails cursor
  simp [failed] at run

theorem throw (error : ParseError) : Ensures (throw error : Parse Value) holds :=
  of_error fun cursor => ⟨error, cursor, rfl⟩

theorem failAt (token : Token) (expected : String) :
    Ensures (failAt token expected : Parse Value) holds :=
  of_error fun cursor => ⟨_, cursor, rfl⟩

theorem tooDeep (maximum : Nat) : Ensures (tooDeep maximum : Parse Value) holds :=
  of_error fun cursor => ⟨_, cursor, rfl⟩

/-- What the second parser ensures for each value of the first one. -/
theorem bind {next : Value → Parse Image} {holds : Image → Prop}
    (rest : ∀ value, Ensures (next value) holds) : Ensures (parser >>= next) holds := by
  intro cursor image after run
  obtain ⟨value, middle, -, second⟩ := runAt_bind_eq_ok.mp run
  exact rest value second

/-- The second parser may rely on what the first one ensures. -/
theorem bind_of {next : Value → Parse Image} {between : Value → Prop} {holds : Image → Prop}
    (first : Ensures parser between) (rest : ∀ value, between value → Ensures (next value) holds) :
    Ensures (parser >>= next) holds := by
  intro cursor image after run
  obtain ⟨value, middle, begun, second⟩ := runAt_bind_eq_ok.mp run
  exact rest value (first begun) second

theorem ite {condition : Prop} [Decidable condition] (whenTrue : condition → Ensures parser holds)
    (whenFalse : ¬ condition → Ensures other holds) :
    Ensures (if condition then parser else other) holds := by
  split
  · next true => exact whenTrue true
  · next false => exact whenFalse false

theorem deeper (inside : Ensures parser holds) : Ensures (deeper parser) holds := by
  intro cursor value after run
  obtain ⟨middle, body, -⟩ := runAt_deeper_eq_ok.mp run
  exact inside body

end Ensures

end TemplatedJson.Parse
