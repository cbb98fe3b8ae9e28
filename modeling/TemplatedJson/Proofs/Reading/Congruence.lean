import TemplatedJson.Proofs.Reading.Run

/-!
# Relations that all parsers respect

A parser reaches its text by a few steps only: it looks at the current token, moves
past it or peeks behind it.  A relation between parsers that respects these steps
and the ways of joining parsers is respected by every parser that is made of them.
-/

namespace TemplatedJson

/-- The limit that a cause names, if the limit is what refused the text. -/
def ParseError.Cause.limit? : Cause → Option Nat
  | .tooDeeplyNested limit => some limit
  | _ => none

theorem ParseError.limit?_of_isLexical {error : ParseError} (lexical : error.isLexical) :
    error.cause.limit? = none := by
  obtain ⟨cause, offset⟩ := error
  cases cause with
  | unexpectedToken expected found => cases lexical
  | tooDeeplyNested limit => cases lexical
  | unexpectedCharacter _ | unterminatedString | invalidEscape _ | invalidNumber _ => rfl

/-- Whether a parser may refuse a text at a token for a cause: something else was
expected there, or the token is no proper number. -/
def ParseError.Cause.Blames (token : Token) : Cause → Prop
  | .unexpectedToken _ _ => True
  | .invalidNumber raw => token.kind = .number ∧ raw = token.raw
  | _ => False

theorem ParseError.Cause.Blames.limit?_eq_none {token : Token} {cause : Cause}
    (blames : cause.Blames token) : cause.limit? = none := by
  cases cause with
  | tooDeeplyNested limit => cases blames
  | _ => rfl

namespace Parse

/-- Whether two parsers are related, or else both refuse the text at one of the two
given tokens each, and for the same cause. -/
inductive About (relates : {Value : Type} → Parse Value → Parse Value → Prop)
    (token other : Token) {Value : Type} : Parse Value → Parse Value → Prop where
  | related {parser otherParser : Parse Value} :
      relates parser otherParser → About relates token other parser otherParser
  | refused {cause : ParseError.Cause} : cause.Blames token →
      About relates token other (throw ⟨cause, token.offset⟩) (throw ⟨cause, other.offset⟩)

@[elab_as_elim]
theorem About.elim {relates : {Value : Type} → Parse Value → Parse Value → Prop}
    {token other : Token} {Value : Type} {motive : Parse Value → Parse Value → Prop}
    {parser otherParser : Parse Value} (about : About relates token other parser otherParser)
    (related : relates parser otherParser → motive parser otherParser)
    (refused : ∀ {cause : ParseError.Cause}, cause.Blames token →
      motive (throw ⟨cause, token.offset⟩) (throw ⟨cause, other.offset⟩)) :
    motive parser otherParser := by
  cases about with
  | related relates => exact related relates
  | refused blames => exact refused blames

/-- If failing at the tokens is related too, nothing is left to tell apart. -/
theorem About.relates {relates : {Value : Type} → Parse Value → Parse Value → Prop}
    {token other : Token} {Value : Type} {parser otherParser : Parse Value}
    (about : About relates token other parser otherParser)
    (refusals : ∀ {cause : ParseError.Cause}, cause.Blames token →
      relates (throw ⟨cause, token.offset⟩ : Parse Value) (throw ⟨cause, other.offset⟩)) :
    relates parser otherParser :=
  about.elim id refusals

/-- A relation between parsers that respects the steps and the ways of joining
parsers.  The tokens that the two parsers meet correspond to each other, and a parser
that looks at a token or passes it may fail there.  What the limit refuses is left
out, because it may differ. -/
structure Congruence where
  relates : {Value : Type} → Parse Value → Parse Value → Prop
  /-- Whether a token may be met where the other parser meets another one. -/
  meets : Token → Token → Prop
  kind_eq : ∀ {token other}, meets token other → token.kind = other.kind
  raw_eq : ∀ {token other}, meets token other → token.raw = other.raw
  yield : ∀ {Value : Type} (value : Value), relates (pure value) (pure value)
  join : ∀ {Value Image : Type} {parser other : Parse Value}
    {next otherNext : Value → Parse Image}, relates parser other →
      (∀ value, relates (next value) (otherNext value)) →
        relates (parser >>= next) (other >>= otherNext)
  look : ∀ {Image : Type} {next otherNext : Cursor → Parse Image},
    (∀ cursor other : Cursor, meets cursor.current other.current →
      cursor.remaining = other.remaining →
        About relates cursor.current other.current (next cursor) (otherNext other)) →
      relates (get >>= next) (get >>= otherNext)
  advance : ∀ {Image : Type} {next otherNext : Token → Parse Image},
    (∀ token other, meets token other → About relates token other (next token) (otherNext other)) →
      relates (advance >>= next) (advance >>= otherNext)
  peek : ∀ {Image : Type} {next otherNext : Token → Parse Image},
    (∀ token other, meets token other → relates (next token) (otherNext other)) →
      relates (peek >>= next) (peek >>= otherNext)
  deeper : ∀ {Value : Type} {parser other : Parse Value}, relates parser other →
    relates (deeper parser) (deeper other)

/-- Whether two parsers are related. -/
def Alike (congr : Congruence) {Value : Type} (parser other : Parse Value) : Prop :=
  congr.relates parser other

variable {Value Image : Type} {congr : Congruence}

namespace Alike

variable {parser other second otherSecond : Parse Value} {next otherNext : Value → Parse Image}

/-! ### Joining parsers -/

theorem pure (value : Value) : Alike congr (pure value) (pure value) :=
  congr.yield value

theorem bind (first : Alike congr parser other)
    (rest : ∀ value, Alike congr (next value) (otherNext value)) :
    Alike congr (parser >>= next) (other >>= otherNext) :=
  congr.join first rest

theorem map (first : Alike congr parser other) (replace : Value → Image) :
    Alike congr (replace <$> parser) (replace <$> other) := by
  rw [map_eq_pure_bind, map_eq_pure_bind]
  exact first.bind fun value => pure (replace value)

theorem ite {condition : Prop} [Decidable condition] (whenTrue : Alike congr parser other)
    (whenFalse : Alike congr second otherSecond) :
    Alike congr (if condition then parser else second)
      (if condition then other else otherSecond) := by
  split
  · exact whenTrue
  · exact whenFalse

/-! ### Looking at the current token -/

theorem look {next otherNext : Cursor → Parse Image}
    (rest : ∀ cursor other : Cursor, congr.meets cursor.current other.current →
      cursor.remaining = other.remaining →
        About congr.relates cursor.current other.current (next cursor) (otherNext other)) :
    Alike congr (get >>= next) (get >>= otherNext) :=
  congr.look rest

theorem currentKind : Alike congr currentKind currentKind := by
  apply look
  intro cursor other meets _
  rw [congr.kind_eq meets]
  exact .related (pure _)

theorem isAt (symbol : Symbol) : Alike congr (isAt symbol) (isAt symbol) :=
  currentKind.bind fun _ => pure _

theorem isAtSelector : Alike congr isAtSelector isAtSelector :=
  currentKind.bind fun _ => pure _

theorem currentOperator? : Alike congr currentOperator? currentOperator? := by
  apply currentKind.bind
  intro kind
  split
  · exact pure _
  · exact pure none

/-! ### Steps -/

theorem advance_bind {next otherNext : Token → Parse Image}
    (rest : ∀ token other, congr.meets token other →
      About congr.relates token other (next token) (otherNext other)) :
    Alike congr (advance >>= next) (advance >>= otherNext) :=
  congr.advance rest

theorem peek_bind {next otherNext : Token → Parse Image}
    (rest : ∀ token other, congr.meets token other →
      Alike congr (next token) (otherNext other)) :
    Alike congr (peek >>= next) (peek >>= otherNext) :=
  congr.peek rest

theorem discard_advance : Alike congr (discard advance) (discard advance) := by
  change Alike congr ((fun _ => PUnit.unit) <$> advance) ((fun _ => PUnit.unit) <$> advance)
  rw [map_eq_pure_bind]
  exact advance_bind fun _ _ _ => .related (pure _)

theorem deeper (inside : Alike congr parser other) : Alike congr (deeper parser) (deeper other) :=
  congr.deeper inside

/-! ### Failing -/

theorem failAt {token other : Token} (meets : congr.meets token other) (expected : String) :
    About congr.relates token other (failAt token expected : Parse Value)
      (failAt other expected) := by
  unfold Parse.failAt
  rw [congr.kind_eq meets]
  exact .refused trivial

theorem unexpected (expected : String) :
    Alike congr (unexpected expected : Parse Value) (unexpected expected) := by
  apply look
  intro cursor other meets _
  exact failAt meets expected

/-! ### Symbols, the end and lists -/

theorem expect (symbol : Symbol) : Alike congr (expect symbol) (expect symbol) :=
  (isAt symbol).bind fun _ => ite discard_advance (unexpected _)

theorem expectEnd : Alike congr expectEnd expectEnd :=
  currentKind.bind fun _ => ite discard_advance (unexpected _)

theorem commaSeparated (items : Alike congr parser other) (more : Nat) :
    Alike congr (commaSeparated parser more) (commaSeparated other more) := by
  induction more with
  | zero => exact items.bind fun _ => pure _
  | succ more ih =>
      refine items.bind fun first => (isAt .comma).bind fun _ => ite ?_ (pure _)
      exact discard_advance.bind fun _ => ih.bind fun _ => pure _

theorem listUntil (items : Alike congr parser other) (closing : Symbol) :
    Alike congr (listUntil closing parser) (listUntil closing other) := by
  refine (isAt closing).bind fun _ => ite ?_ ?_
  · exact discard_advance.bind fun _ => pure _
  · apply look
    intro cursor otherCursor _ remaining
    rw [remaining]
    exact .related ((items.commaSeparated _).bind fun _ => (expect closing).bind fun _ => pure _)

end Alike

end Parse

end TemplatedJson
