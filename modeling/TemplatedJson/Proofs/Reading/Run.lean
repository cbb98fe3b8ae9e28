import TemplatedJson.Node.Parser

/-!
# Running parsers

A run of a parser at a cursor ends with a result and with the place where it
leaves the cursor.  The laws below take the run of a composite parser apart:
first for the ways of joining parsers, then for the parsers that look at the
current token or move past it.
-/

namespace TemplatedJson

/-- The cursor at the token after the current one, if the lexer answers with a
token. -/
def Cursor.following? (cursor : Cursor) : Option Cursor :=
  match cursor.upcoming.next with
  | (.ok token, upcoming) => some { cursor with current := token, upcoming := upcoming }
  | (.error _, _) => none

theorem Cursor.following?_of_next {cursor : Cursor} {token : Token} {upcoming : TokenStream}
    (answered : cursor.upcoming.next = (.ok token, upcoming)) :
    cursor.following? = some { cursor with current := token, upcoming := upcoming } := by
  simp only [following?, answered]

namespace Parse

variable {Value Image : Type} {cursor after : Cursor}

/-! ### Joining parsers -/

@[simp]
theorem runAt_pure (value : Value) (cursor : Cursor) :
    runAt (pure value) cursor = (.ok value, cursor) :=
  rfl

@[simp]
theorem runAt_throw (error : ParseError) (cursor : Cursor) :
    runAt (throw error : Parse Value) cursor = (.error error, cursor) :=
  rfl

/-- How a composite parser ends, given how its first part does: after a success the rest
runs where that part stopped, and a failure stands. -/
def goOn (next : Value → Parse Image) :
    Except ParseError Value × Cursor → Except ParseError Image × Cursor
  | (.ok value, middle) => runAt (next value) middle
  | (.error error, middle) => (.error error, middle)

theorem runAt_bind (parser : Parse Value) (next : Value → Parse Image) (cursor : Cursor) :
    runAt (parser >>= next) cursor = goOn next (runAt parser cursor) := by
  unfold runAt EStateM.run
  simp only [bind, EStateM.bind]
  cases parser cursor <;> rfl

/-- After a success the rest of a parser runs where the first part stopped. -/
theorem runAt_bind_of_ok {parser : Parse Value} {next : Value → Parse Image} {value : Value}
    {middle : Cursor} (first : runAt parser cursor = (.ok value, middle)) :
    runAt (parser >>= next) cursor = runAt (next value) middle := by
  rw [runAt_bind, first, goOn]

/-- A parser fails where its first part does. -/
theorem runAt_bind_of_error {parser : Parse Value} {next : Value → Parse Image}
    {error : ParseError} {middle : Cursor} (first : runAt parser cursor = (.error error, middle)) :
    runAt (parser >>= next) cursor = (.error error, middle) := by
  rw [runAt_bind, first, goOn]

/-- A composite parser succeeds when both of its parts do. -/
theorem runAt_bind_eq_ok {parser : Parse Value} {next : Value → Parse Image} {image : Image} :
    runAt (parser >>= next) cursor = (.ok image, after) ↔
      ∃ value middle, runAt parser cursor = (.ok value, middle) ∧
        runAt (next value) middle = (.ok image, after) := by
  constructor
  · intro whole
    rcases first : runAt parser cursor with ⟨error | value, middle⟩
    · simp [runAt_bind_of_error first] at whole
    · exact ⟨value, middle, rfl, by rwa [runAt_bind_of_ok first] at whole⟩
  · rintro ⟨value, middle, first, second⟩
    rw [runAt_bind_of_ok first, second]

theorem runAt_pure_eq_ok {value given : Value} :
    runAt (pure given) cursor = (.ok value, after) ↔ value = given ∧ after = cursor := by
  simp [eq_comm]

/-- A parser that only converts the result of another succeeds with it. -/
theorem runAt_bind_pure_eq_ok {parser : Parse Value} {convert : Value → Image} {image : Image} :
    runAt (parser >>= fun value => pure (convert value)) cursor = (.ok image, after) ↔
      ∃ value, runAt parser cursor = (.ok value, after) ∧ image = convert value := by
  rw [runAt_bind_eq_ok]
  constructor
  · rintro ⟨value, middle, first, second⟩
    obtain ⟨rfl, rfl⟩ := runAt_pure_eq_ok.mp second
    exact ⟨value, first, rfl⟩
  · rintro ⟨value, first, rfl⟩
    exact ⟨value, after, first, rfl⟩

/-- Replacing the result does not change whether a parser succeeds. -/
theorem runAt_map_eq_ok {parser : Parse Value} {replace : Value → Image} {image : Image} :
    runAt (replace <$> parser) cursor = (.ok image, after) ↔
      ∃ value, runAt parser cursor = (.ok value, after) ∧ image = replace value := by
  rw [map_eq_pure_bind]
  exact runAt_bind_pure_eq_ok

/-! ### Looking at the current token -/

@[simp]
theorem runAt_get_bind (next : Cursor → Parse Image) (cursor : Cursor) :
    runAt (get >>= next) cursor = runAt (next cursor) cursor :=
  runAt_bind_of_ok rfl

@[simp]
theorem runAt_currentKind_bind (next : Token.Kind → Parse Image) (cursor : Cursor) :
    runAt (currentKind >>= next) cursor = runAt (next cursor.current.kind) cursor :=
  runAt_bind_of_ok rfl

@[simp]
theorem runAt_isAt_bind (symbol : Symbol) (next : Bool → Parse Image) (cursor : Cursor) :
    runAt (isAt symbol >>= next) cursor =
      runAt (next (decide (cursor.current.kind = .symbol symbol))) cursor :=
  runAt_bind_of_ok rfl

@[simp]
theorem runAt_isAtSelector_bind (next : Bool → Parse Image) (cursor : Cursor) :
    runAt (isAtSelector >>= next) cursor =
      runAt (next (decide (cursor.current.kind = .symbol .dot) ||
        decide (cursor.current.kind = .symbol .leftBracket))) cursor :=
  runAt_bind_of_ok rfl

/-- The binary operator that a kind of token writes. -/
def operatorOf? : Token.Kind → Option BinaryOperator
  | .symbol symbol => BinaryOperator.ofSymbol? symbol
  | _ => none

@[simp]
theorem runAt_currentOperator?_bind (next : Option BinaryOperator → Parse Image)
    (cursor : Cursor) :
    runAt (currentOperator? >>= next) cursor =
      runAt (next (operatorOf? cursor.current.kind)) cursor := by
  apply runAt_bind_of_ok
  unfold currentOperator? operatorOf?
  rw [runAt_currentKind_bind]
  cases cursor.current.kind <;> rfl

theorem operatorOf?_eq_some_iff {kind : Token.Kind} {operator : BinaryOperator} :
    operatorOf? kind = some operator ↔ kind = .symbol operator.symbol := by
  unfold operatorOf?
  split
  · simp [BinaryOperator.ofSymbol?_eq_some_iff]
  · next notSymbol => simpa using notSymbol operator.symbol

@[simp]
theorem runAt_modify_bind (change : Cursor → Cursor) (next : PUnit → Parse Image)
    (cursor : Cursor) :
    runAt (modify change >>= next) cursor = runAt (next ⟨⟩) (change cursor) :=
  runAt_bind_of_ok rfl

/-! ### Counting levels -/

theorem runAt_deeper_eq_ok {body : Parse Value} {value : Value} :
    runAt (deeper body) cursor = (.ok value, after) ↔
      ∃ middle, runAt body { cursor with depth := cursor.depth + 1 } = (.ok value, middle) ∧
        after = { middle with depth := middle.depth - 1 } := by
  unfold deeper
  simp only [runAt_modify_bind, runAt_bind_eq_ok]
  constructor
  · rintro ⟨inner, middle, inside, rest⟩
    obtain ⟨rfl, rfl⟩ := runAt_pure_eq_ok.mp rest
    exact ⟨middle, inside, rfl⟩
  · rintro ⟨middle, inside, rfl⟩
    exact ⟨value, middle, inside, rfl⟩

/-! ### Failing at a token -/

@[simp]
theorem runAt_failAt (token : Token) (expected : String) (cursor : Cursor) :
    runAt (failAt token expected : Parse Value) cursor =
      (.error ⟨.unexpectedToken expected token.kind.describe, token.offset⟩, cursor) :=
  rfl

@[simp]
theorem runAt_unexpected (expected : String) (cursor : Cursor) :
    runAt (unexpected expected : Parse Value) cursor =
      (.error ⟨.unexpectedToken expected cursor.current.kind.describe, cursor.current.offset⟩,
        cursor) :=
  rfl

@[simp]
theorem runAt_tooDeep (maximum : Nat) (cursor : Cursor) :
    runAt (tooDeep maximum : Parse Value) cursor =
      (.error ⟨.tooDeeplyNested maximum, cursor.current.offset⟩, cursor) :=
  rfl

/-! ### Moving past a token -/

theorem runAt_advance_eq_ok {token : Token} :
    runAt advance cursor = (.ok token, after) ↔
      token = cursor.current ∧ cursor.following? = some after := by
  unfold runAt EStateM.run advance Cursor.following?
  rcases cursor.upcoming.next with ⟨_ | next, upcoming⟩
  · simp
  · simp [eq_comm]

theorem runAt_advance (known : cursor.following? = some after) :
    runAt advance cursor = (.ok cursor.current, after) :=
  runAt_advance_eq_ok.mpr ⟨rfl, known⟩

theorem runAt_discard_advance_eq_ok {nothing : PUnit} :
    runAt (discard advance) cursor = (.ok nothing, after) ↔ cursor.following? = some after := by
  change runAt ((fun _ => PUnit.unit) <$> advance) cursor = _ ↔ _
  rw [runAt_map_eq_ok]
  simp [runAt_advance_eq_ok]

theorem runAt_discard_advance (known : cursor.following? = some after) :
    runAt (discard advance) cursor = (.ok ⟨⟩, after) :=
  runAt_discard_advance_eq_ok.mpr known

theorem runAt_peek_eq_ok {token : Token} :
    runAt peek cursor = (.ok token, after) ↔
      after = cursor ∧ ∃ next, cursor.following? = some next ∧ token = next.current := by
  unfold runAt EStateM.run peek Cursor.following?
  rcases cursor.upcoming.next with ⟨_ | next, upcoming⟩
  · simp
  · simp [eq_comm, and_comm]

theorem runAt_peek (known : cursor.following? = some after) :
    runAt peek cursor = (.ok after.current, cursor) :=
  runAt_peek_eq_ok.mpr ⟨rfl, after, known, rfl⟩

theorem runAt_expect_eq_ok {symbol : Symbol} {nothing : Unit} :
    runAt (expect symbol) cursor = (.ok nothing, after) ↔
      cursor.current.kind = .symbol symbol ∧ cursor.following? = some after := by
  unfold expect
  rw [runAt_isAt_bind]
  by_cases found : cursor.current.kind = .symbol symbol
  · simpa [found] using runAt_discard_advance_eq_ok
  · simp [found]

theorem runAt_expect {symbol : Symbol} (found : cursor.current.kind = .symbol symbol)
    (known : cursor.following? = some after) :
    runAt (expect symbol) cursor = (.ok ⟨⟩, after) :=
  runAt_expect_eq_ok.mpr ⟨found, known⟩

theorem runAt_expectEnd_eq_ok {nothing : Unit} :
    runAt expectEnd cursor = (.ok nothing, after) ↔
      cursor.current.kind = .endOfInput ∧ cursor.following? = some after := by
  unfold expectEnd
  rw [runAt_currentKind_bind]
  by_cases ended : cursor.current.kind = .endOfInput
  · simpa [ended] using runAt_discard_advance_eq_ok
  · simp [ended]

/-! ### What the lexer answers -/

section Answers

variable {token : Token} {error : ParseError} {upcoming : TokenStream}

theorem runAt_advance_of_ok (answered : cursor.upcoming.next = (.ok token, upcoming)) :
    runAt advance cursor =
      (.ok cursor.current, { cursor with current := token, upcoming := upcoming }) := by
  simp [runAt, EStateM.run, advance, answered]

theorem runAt_advance_of_error (answered : cursor.upcoming.next = (.error error, upcoming)) :
    runAt advance cursor = (.error error, { cursor with upcoming := upcoming }) := by
  simp [runAt, EStateM.run, advance, answered]

theorem discard_advance_bind (next : PUnit → Parse Image) :
    (discard advance >>= next) = advance >>= fun _ => next ⟨⟩ := by
  change ((fun _ => PUnit.unit) <$> advance) >>= next = _
  rw [map_eq_pure_bind, bind_assoc]
  rfl

theorem runAt_peek_of_ok (answered : cursor.upcoming.next = (.ok token, upcoming)) :
    runAt peek cursor = (.ok token, cursor) := by
  simp [runAt, EStateM.run, peek, answered]

theorem runAt_peek_of_error (answered : cursor.upcoming.next = (.error error, upcoming)) :
    runAt peek cursor = (.error error, { cursor with upcoming := upcoming }) := by
  simp [runAt, EStateM.run, peek, answered]

end Answers

/-! ### Waiting operands -/

/-- Combining operands passes no token. -/
theorem eq_of_combine {least : Nat} {pending : Pending} {right : Measured} {cursor after : Cursor}
    {result : Pending × Measured}
    (run : runAt (combine limits least pending right) cursor = (.ok result, after)) :
    after = cursor := by
  induction pending generalizing right with
  | nil => exact (runAt_pure_eq_ok.mp run).2
  | cons waiting outer ih =>
      unfold combine at run
      split at run
      · obtain ⟨tree, middle, built, rest⟩ := runAt_bind_eq_ok.mp run
        unfold build at built
        split at built
        · obtain ⟨rfl, rfl⟩ := runAt_pure_eq_ok.mp built
          exact ih rest
        · cases built
      · exact (runAt_pure_eq_ok.mp run).2

/-! ### Items between commas -/

/-- Reading items one after another, each but the last one up to a comma that is
passed. -/
inductive Separated (item : Parse Value) : Cursor → List Value → Cursor → Prop where
  | last {cursor after : Cursor} {value : Value} :
      runAt item cursor = (.ok value, after) → Separated item cursor [value] after
  | comma {cursor middle next after : Cursor} {value : Value} {values : List Value} :
      runAt item cursor = (.ok value, middle) → middle.current.kind = .symbol .comma →
        middle.following? = some next → Separated item next values after →
          Separated item cursor (value :: values) after

theorem separated_of_runAt {item : Parse Value} {more : Nat} {values : List Value}
    (run : runAt (commaSeparated item more) cursor = (.ok values, after)) :
    Separated item cursor values after := by
  induction more generalizing cursor values with
  | zero =>
      obtain ⟨value, read, rfl⟩ := runAt_bind_pure_eq_ok.mp run
      exact .last read
  | succ more ih =>
      unfold commaSeparated at run
      obtain ⟨first, middle, read, rest⟩ := runAt_bind_eq_ok.mp run
      rw [runAt_isAt_bind] at rest
      split at rest
      · next atComma =>
          obtain ⟨_, next, moved, rest⟩ := runAt_bind_eq_ok.mp rest
          obtain ⟨others, later, rfl⟩ := runAt_bind_pure_eq_ok.mp rest
          exact .comma read (by simpa using atComma) (runAt_discard_advance_eq_ok.mp moved)
            (ih later)
      · obtain ⟨rfl, rfl⟩ := runAt_pure_eq_ok.mp rest
        exact .last read

/-- A list is empty and closed at once, or holds items before its closing
symbol. -/
theorem listUntil_eq_ok {closing : Symbol} {item : Parse Value} {values : List Value}
    (run : runAt (listUntil closing item) cursor = (.ok values, after)) :
    (values = [] ∧ cursor.current.kind = .symbol closing ∧ cursor.following? = some after) ∨
      cursor.current.kind ≠ .symbol closing ∧
        ∃ middle, Separated item cursor values middle ∧ middle.current.kind = .symbol closing ∧
          middle.following? = some after := by
  unfold listUntil at run
  rw [runAt_isAt_bind] at run
  split at run
  · next closed =>
      obtain ⟨_, moved, rfl⟩ := runAt_bind_pure_eq_ok.mp run
      exact .inl ⟨rfl, by simpa using closed, runAt_discard_advance_eq_ok.mp moved⟩
  · next unclosed =>
      rw [runAt_get_bind] at run
      obtain ⟨items, middle, inside, rest⟩ := runAt_bind_eq_ok.mp run
      obtain ⟨_, closed, rfl⟩ := runAt_bind_pure_eq_ok.mp rest
      obtain ⟨kind, known⟩ := runAt_expect_eq_ok.mp closed
      exact .inr ⟨by simpa using unclosed, middle, separated_of_runAt inside, kind, known⟩

end Parse

end TemplatedJson
