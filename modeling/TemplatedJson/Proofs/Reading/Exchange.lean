import TemplatedJson.Proofs.Lexing.Moved
import TemplatedJson.Proofs.Reading.Refusal

/-!
# One string for another

Two texts are the same but for one string in each, where a value is awaited.  Two runs of
a parser stand beside each other as long as they have passed the same tokens, or one string
each and the same tokens behind it.  The brackets that are open around the two strings tell
that no parser comes to them where it looks for a key.
-/

namespace TemplatedJson

/-! ### What is awaited behind some tokens -/

/-- What the tokens of a document before some place tell about the next one: which brackets
are open there, the innermost one first, and whether a value is awaited. -/
structure Spot where
  brackets : List Symbol
  awaits : Bool
deriving DecidableEq, Repr

namespace Spot

/-- The spot behind one more token. -/
def pass (spot : Spot) : Token.Kind → Spot
  | .symbol .leftBrace => ⟨.leftBrace :: spot.brackets, false⟩
  | .symbol .leftBracket => ⟨.leftBracket :: spot.brackets, true⟩
  | .symbol .rightBrace => ⟨spot.brackets.tail, false⟩
  | .symbol .rightBracket => ⟨spot.brackets.tail, false⟩
  | .symbol .colon => ⟨spot.brackets, true⟩
  | .symbol .comma => ⟨spot.brackets, spot.brackets.head? = some .leftBracket⟩
  | _ => ⟨spot.brackets, false⟩

/-- The spot behind tokens from the beginning of a document. -/
def behind (tokens : List Token) : Spot :=
  tokens.foldl (fun spot token => spot.pass token.kind) ⟨[], false⟩

end Spot

/-! ### Two strings -/

/-- Two strings at one place that hold the same expression, perhaps in different forms. -/
structure Exchange where
  token : Token
  other : Token
  content : String
  otherContent : String
  kind_eq : token.kind = .string content .double
  other_kind_eq : other.kind = .string otherContent .double
  embedded : Template.Embedded
  otherEmbedded : Template.Embedded
  found : Template.detect? content = some embedded
  otherFound : Template.detect? otherContent = some otherEmbedded
  source_eq : otherEmbedded.source = embedded.source
  offset_eq : other.offset = token.offset
  /-- How much longer the other string is. -/
  distance : Nat
  stop_eq : other.stop = token.stop + distance

namespace Exchange

variable {exchange : Exchange} {spot : Spot} {token other : Token}
  {answers others : List LexerAnswer}

/-- Whether two places are the same up to the strings, are those of the same character of
the expression in both, or are equally far behind them. -/
inductive Corresponds (exchange : Exchange) : Nat → Nat → Prop
  | before {place : Nat} : place ≤ exchange.token.offset → Corresponds exchange place place
  | inside {index : Nat} : index ≤ exchange.embedded.source.length →
      Corresponds exchange
        (exchange.token.offset +
          Template.rawIndex exchange.token.raw (exchange.embedded.start + index))
        (exchange.other.offset +
          Template.rawIndex exchange.other.raw (exchange.otherEmbedded.start + index))
  | behind {place : Nat} : exchange.token.stop ≤ place →
      Corresponds exchange place (place + exchange.distance)

/-- Whether two tokens are one before the strings, are the strings, or are one token behind
them. -/
inductive Meets (exchange : Exchange) : Token → Token → Prop
  | before {token : Token} : token.stop ≤ exchange.token.offset → Meets exchange token token
  | strings : Meets exchange exchange.token exchange.other
  | behind {token : Token} : exchange.token.stop ≤ token.offset →
      Meets exchange token (token.moved exchange.distance)

namespace Meets

theorem corresponds (meets : exchange.Meets token other) :
    exchange.Corresponds token.offset other.offset := by
  cases meets with
  | before early => exact .before (token.offset_le_of_stop_le early)
  | strings =>
      rw [exchange.offset_eq]
      exact .before (Nat.le_refl _)
  | behind late => exact .behind late

/-- The two strings apart, the tokens have the same kind and the same text. -/
theorem same_or (meets : exchange.Meets token other) :
    token.kind = other.kind ∧ token.raw = other.raw ∨
      token = exchange.token ∧ other = exchange.other := by
  cases meets with
  | before early => exact .inl ⟨rfl, rfl⟩
  | strings => exact .inr ⟨rfl, rfl⟩
  | behind late => exact .inl ⟨rfl, rfl⟩

/-- Kinds that are no strings are the same ones. -/
theorem kind_eq_iff (meets : exchange.Meets token other) {kind : Token.Kind}
    (notString : ∀ content quote, kind ≠ .string content quote) :
    token.kind = kind ↔ other.kind = kind := by
  rcases meets.same_or with ⟨sameKind, -⟩ | ⟨rfl, rfl⟩
  · rw [sameKind]
  · rw [exchange.kind_eq, exchange.other_kind_eq]
    exact iff_of_false (notString _ _).symm (notString _ _).symm

theorem raw_eq (meets : exchange.Meets token other)
    (notString : ∀ content quote, token.kind ≠ .string content quote) : token.raw = other.raw := by
  rcases meets.same_or with ⟨-, sameRaw⟩ | ⟨rfl, rfl⟩
  · exact sameRaw
  · exact absurd exchange.kind_eq (notString _ _)

theorem describe_eq (meets : exchange.Meets token other) :
    token.kind.describe = other.kind.describe := by
  rcases meets.same_or with ⟨sameKind, -⟩ | ⟨rfl, rfl⟩
  · rw [sameKind]
  · rw [exchange.kind_eq, exchange.other_kind_eq]
    rfl

end Meets

/-! ### Two runs -/

/-- Whether answers and other answers are the same ones behind the strings. -/
structure Past (exchange : Exchange) (answers others : List LexerAnswer) : Prop where
  others_eq : others = answers.map (LexerAnswer.moved exchange.distance)
  behind : ∀ answer ∈ answers, exchange.token.stop ≤ answer.offset

/-- Whether answers and other answers, at a spot before the strings, are the same tokens up
to them. -/
inductive Ahead (exchange : Exchange) : Spot → List LexerAnswer → List LexerAnswer → Prop
  | here {spot : Spot} {answers others : List LexerAnswer} : spot.awaits →
      exchange.Past answers others →
        Ahead exchange spot (.ok exchange.token :: answers) (.ok exchange.other :: others)
  | later {spot : Spot} {token : Token} {answers others : List LexerAnswer} :
      token.stop ≤ exchange.token.offset → Ahead exchange (spot.pass token.kind) answers others →
        Ahead exchange spot (.ok token :: answers) (.ok token :: others)

/-- Whether answers and other answers, at a spot, are those of two runs beside each other. -/
def Alongside (exchange : Exchange) (spot : Spot) (answers others : List LexerAnswer) : Prop :=
  exchange.Ahead spot answers others ∨ exchange.Past answers others

/-- Whether two cursors are beside each other, at a spot. -/
structure Beside (exchange : Exchange) (spot : Spot) (cursor other : Cursor) : Prop where
  depth : cursor.depth = other.depth
  answers : exchange.Alongside spot (.ok cursor.current :: cursor.upcoming.pending)
    (.ok other.current :: other.upcoming.pending)
  settled : exchange.Past [cursor.upcoming.settled] [other.upcoming.settled]

theorem Past.length_eq (past : exchange.Past answers others) : answers.length = others.length := by
  rw [past.others_eq, List.length_map]

theorem Past.tail {answer other : LexerAnswer}
    (past : exchange.Past (answer :: answers) (other :: others)) : exchange.Past answers others :=
  ⟨(List.cons.inj past.others_eq).2, (List.forall_mem_cons.mp past.behind).2⟩

theorem Past.head {answer other : LexerAnswer}
    (past : exchange.Past (answer :: answers) (other :: others)) :
    other = answer.moved exchange.distance ∧ exchange.token.stop ≤ answer.offset :=
  ⟨(List.cons.inj past.others_eq).1, (List.forall_mem_cons.mp past.behind).1⟩

theorem Past.head_token (past : exchange.Past (.ok token :: answers) (.ok other :: others)) :
    other = token.moved exchange.distance ∧ exchange.token.stop ≤ token.offset :=
  ⟨Except.ok.inj past.head.1, past.head.2⟩

theorem Ahead.length_eq (ahead : exchange.Ahead spot answers others) :
    answers.length = others.length := by
  induction ahead with
  | here _ past => simp [past.length_eq]
  | later _ _ ih => simp [ih]

theorem Past.append {more otherMore : List LexerAnswer} (past : exchange.Past answers others)
    (pastMore : exchange.Past more otherMore) :
    exchange.Past (answers ++ more) (others ++ otherMore) where
  others_eq := by rw [past.others_eq, pastMore.others_eq, List.map_append]
  behind := List.forall_mem_append.mpr ⟨past.behind, pastMore.behind⟩

theorem Ahead.append {more otherMore : List LexerAnswer} (ahead : exchange.Ahead spot answers others)
    (pastMore : exchange.Past more otherMore) :
    exchange.Ahead spot (answers ++ more) (others ++ otherMore) := by
  induction ahead with
  | here awaits past => exact .here awaits (past.append pastMore)
  | later early _ ih => exact .later early ih

theorem Alongside.append {more otherMore : List LexerAnswer}
    (alongside : exchange.Alongside spot answers others) (pastMore : exchange.Past more otherMore) :
    exchange.Alongside spot (answers ++ more) (others ++ otherMore) :=
  alongside.imp (fun ahead => ahead.append pastMore) fun past => past.append pastMore

theorem Alongside.length_eq (alongside : exchange.Alongside spot answers others) :
    answers.length = others.length :=
  alongside.elim Ahead.length_eq Past.length_eq

/-- Behind a token the answers are those at the next spot. -/
theorem Alongside.tail {answer : LexerAnswer}
    (alongside : exchange.Alongside spot (.ok token :: answers) (answer :: others)) :
    exchange.Alongside (spot.pass token.kind) answers others := by
  rcases alongside with ahead | past
  · cases ahead with
    | here _ past => exact .inr past
    | later _ ahead => exact .inl ahead
  · exact .inr past.tail

theorem Alongside.meets (alongside : exchange.Alongside spot (.ok token :: answers)
    (.ok other :: others)) : exchange.Meets token other := by
  rcases alongside with ahead | past
  · cases ahead with
    | here _ past => exact .strings
    | later early ahead => exact .before early
  · obtain ⟨rfl, late⟩ := past.head_token
    exact .behind late

/-- Where no value is awaited, the two strings are not met. -/
theorem Alongside.kind_eq (alongside : exchange.Alongside spot (.ok token :: answers)
    (.ok other :: others)) (awaits : spot.awaits = false) : token.kind = other.kind := by
  rcases alongside with ahead | past
  · cases ahead with
    | here awaited past =>
        rw [awaits] at awaited
        cases awaited
    | later early ahead => rfl
  · rw [past.head_token.1]
    rfl

theorem Past.touch_iff {next otherNext : Token}
    (past : exchange.Past (.ok next :: answers) (.ok otherNext :: others))
    (stop : other.stop = token.stop + exchange.distance) :
    next.offset = token.stop ↔ otherNext.offset = other.stop := by
  obtain ⟨rfl, -⟩ := past.head_token
  rw [stop]
  exact Nat.add_right_cancel_iff.symm

/-- Two tokens in a row touch in one run if they touch in the other. -/
theorem Alongside.touch_iff {next otherNext : Token}
    (alongside : exchange.Alongside spot (.ok token :: .ok next :: answers)
      (.ok other :: .ok otherNext :: others)) :
    next.offset = token.stop ↔ otherNext.offset = other.stop := by
  rcases alongside with ahead | past
  · cases ahead with
    | here _ past => exact past.touch_iff exchange.stop_eq
    | later _ ahead =>
        cases ahead with
        | here _ _ => rw [exchange.offset_eq]
        | later _ _ => rfl
  · obtain ⟨rfl, -⟩ := past.head_token
    exact past.tail.touch_iff (Nat.add_right_comm _ _ _)

namespace Beside

variable {cursor other : Cursor}

theorem meets (beside : exchange.Beside spot cursor other) :
    exchange.Meets cursor.current other.current :=
  beside.answers.meets

theorem remaining (beside : exchange.Beside spot cursor other) :
    cursor.remaining = other.remaining :=
  beside.answers.length_eq

/-- The lexer answers in both runs, and it goes on answering alike. -/
theorem exists_answers (beside : exchange.Beside spot cursor other) :
    ∃ answer upcoming otherAnswer otherUpcoming,
      cursor.upcoming.next = (answer, upcoming) ∧
        other.upcoming.next = (otherAnswer, otherUpcoming) ∧
          exchange.Alongside spot (.ok cursor.current :: answer :: upcoming.pending)
            (.ok other.current :: otherAnswer :: otherUpcoming.pending) ∧
              exchange.Past [upcoming.settled] [otherUpcoming.settled] := by
  obtain ⟨-, alongside, settled⟩ := beside
  have length := alongside.length_eq
  cases pending : cursor.upcoming.pending with
  | nil =>
      cases otherPending : other.upcoming.pending with
      | cons _ _ => simp [pending, otherPending] at length
      | nil =>
          rw [pending, otherPending] at alongside
          refine ⟨_, _, _, _, TokenStream.next_of_nil pending, TokenStream.next_of_nil otherPending,
            ?_, settled⟩
          rw [pending, otherPending]
          exact alongside.append settled
  | cons answer rest =>
      cases otherPending : other.upcoming.pending with
      | nil => simp [pending, otherPending] at length
      | cons otherAnswer otherRest =>
          rw [pending, otherPending] at alongside
          obtain ⟨first, later, sameSettled⟩ := TokenStream.next_of_cons pending
          obtain ⟨otherFirst, otherLater, otherSameSettled⟩ := TokenStream.next_of_cons otherPending
          refine ⟨_, _, _, _, Prod.ext first rfl, Prod.ext otherFirst rfl, ?_, ?_⟩
          · rw [later, otherLater]
            exact alongside
          · rw [sameSettled, otherSameSettled]
            exact settled

/-- A step leads to the next spot in both runs, or it fails behind the strings in both. -/
theorem next (beside : exchange.Beside spot cursor other) :
    (∃ token upcoming otherToken otherUpcoming, cursor.upcoming.next = (.ok token, upcoming) ∧
      other.upcoming.next = (.ok otherToken, otherUpcoming) ∧
        (token.offset = cursor.current.stop ↔ otherToken.offset = other.current.stop) ∧
          exchange.Beside (spot.pass cursor.current.kind)
            { cursor with current := token, upcoming := upcoming }
            { other with current := otherToken, upcoming := otherUpcoming }) ∨
      ∃ error upcoming otherUpcoming, cursor.upcoming.next = (.error error, upcoming) ∧
        other.upcoming.next = (.error (error.moved exchange.distance), otherUpcoming) ∧
          exchange.token.stop ≤ error.offset := by
  obtain ⟨answer, upcoming, otherAnswer, otherUpcoming, answered, otherAnswered, alongside,
    settled⟩ := beside.exists_answers
  cases answer with
  | ok token =>
      cases otherAnswer with
      | ok otherToken =>
          exact .inl ⟨token, upcoming, otherToken, otherUpcoming, answered, otherAnswered,
            alongside.touch_iff, beside.depth, alongside.tail, settled⟩
      | error error =>
          rcases alongside.tail with ahead | past
          · cases ahead
          · cases past.head.1
  | error error =>
      rcases alongside.tail with ahead | past
      · cases ahead
      · obtain ⟨rfl, late⟩ := past.head
        exact .inr ⟨error, upcoming, otherUpcoming, answered, otherAnswered, late⟩

end Beside

end Exchange

/-! ### Parsers -/

namespace Parse

/-- Whether two runs end with one value, beside each other at a spot with some property, or
fail for one cause at places that correspond. -/
inductive Twin (exchange : Exchange) (ends : Spot → Prop) {Value : Type} :
    Ending Value → Ending Value → Prop
  | value {value : Value} {spot : Spot} {after otherAfter : Cursor} : ends spot →
      exchange.Beside spot after otherAfter →
        Twin exchange ends (.ok value, after) (.ok value, otherAfter)
  | error {cause : ParseError.Cause} {place otherPlace : Nat} {after otherAfter : Cursor} :
      exchange.Corresponds place otherPlace →
        Twin exchange ends (.error ⟨cause, place⟩, after) (.error ⟨cause, otherPlace⟩, otherAfter)

/-- Whether two parsers that begin beside each other, at a spot with some property, end so
at a spot with another one. -/
def Twins (exchange : Exchange) (begins ends : Spot → Prop) {Value : Type}
    (parser other : Parse Value) : Prop :=
  ∀ ⦃spot : Spot⦄ ⦃cursor otherCursor : Cursor⦄, begins spot →
    exchange.Beside spot cursor otherCursor →
      Twin exchange ends (runAt parser cursor) (runAt other otherCursor)

variable {exchange : Exchange} {begins middle ends : Spot → Prop} {Value Image : Type}
  {parser other second otherSecond : Parse Value} {spot : Spot} {cursor otherCursor : Cursor}

theorem Twin.mono {wider : Spot → Prop} {ending otherEnding : Ending Value}
    (twin : Twin exchange ends ending otherEnding) (widens : ∀ spot, ends spot → wider spot) :
    Twin exchange wider ending otherEnding := by
  cases twin with
  | value ended beside => exact .value (widens _ ended) beside
  | error corresponds => exact .error corresponds

theorem Twin.bind {next otherNext : Value → Parse Image}
    (first : Twin exchange middle (runAt parser cursor) (runAt other otherCursor))
    (rest : ∀ value, Twins exchange middle ends (next value) (otherNext value)) :
    Twin exchange ends (runAt (parser >>= next) cursor) (runAt (other >>= otherNext) otherCursor) := by
  rw [runAt_bind, runAt_bind]
  generalize runAt parser cursor = ending, runAt other otherCursor = otherEnding at first ⊢
  cases first with
  | value ended beside => exact rest _ ended beside
  | error corresponds => exact .error corresponds

namespace Twins

theorem pure (value : Value) : Twins exchange begins begins (pure value) (pure value) :=
  fun _ _ _ begun beside => .value begun beside

theorem bind {next otherNext : Value → Parse Image}
    (first : Twins exchange begins middle parser other)
    (rest : ∀ value, Twins exchange middle ends (next value) (otherNext value)) :
    Twins exchange begins ends (parser >>= next) (other >>= otherNext) :=
  fun _ _ _ begun beside => (first begun beside).bind rest

theorem deeper (inside : Twins exchange begins ends parser other) :
    Twins exchange begins ends (deeper parser) (deeper other) := by
  have leave : ∀ value : Value, Twins exchange ends ends
      (modify (fun cursor => { cursor with depth := cursor.depth - 1 }) >>=
        fun _ => Pure.pure value)
      (modify (fun cursor => { cursor with depth := cursor.depth - 1 }) >>=
        fun _ => Pure.pure value) :=
    fun value _ _ _ ended beside =>
      .value ended ⟨congrArg (· - 1) beside.depth, beside.answers, beside.settled⟩
  intro spot cursor otherCursor begun beside
  unfold Parse.deeper
  rw [runAt_modify_bind, runAt_modify_bind]
  exact inside.bind leave begun ⟨congrArg (· + 1) beside.depth, beside.answers, beside.settled⟩

/-! ### Failing -/

theorem throw {place otherPlace : Nat} (corresponds : exchange.Corresponds place otherPlace)
    (cause : ParseError.Cause) :
    Twins exchange begins ends (throw ⟨cause, place⟩ : Parse Value) (throw ⟨cause, otherPlace⟩) :=
  fun _ _ _ _ _ => .error corresponds

theorem unexpected (expected : String) :
    Twins exchange begins ends (unexpected expected : Parse Value) (unexpected expected) := by
  intro spot cursor otherCursor _ beside
  rw [runAt_unexpected, runAt_unexpected, beside.meets.describe_eq]
  exact .error beside.meets.corresponds

theorem tooDeep (maximum : Nat) :
    Twins exchange begins ends (tooDeep maximum : Parse Value) (tooDeep maximum) := by
  intro spot cursor otherCursor _ beside
  rw [runAt_tooDeep, runAt_tooDeep]
  exact .error beside.meets.corresponds

end Twins

/-! ### Steps -/

theorem twin_advance (beside : exchange.Beside spot cursor otherCursor) :
    Twin exchange (· = spot.pass cursor.current.kind) (runAt (discard advance) cursor)
      (runAt (discard advance) otherCursor) := by
  change Twin _ _ (runAt ((fun _ => PUnit.unit) <$> advance) cursor)
    (runAt ((fun _ => PUnit.unit) <$> advance) otherCursor)
  rw [map_eq_pure_bind]
  rcases beside.next with ⟨token, upcoming, otherToken, otherUpcoming, answered, otherAnswered, -,
      besideNext⟩ | ⟨error, upcoming, otherUpcoming, answered, otherAnswered, late⟩
  · rw [runAt_bind_of_ok (runAt_advance_of_ok answered),
      runAt_bind_of_ok (runAt_advance_of_ok otherAnswered)]
    exact .value rfl besideNext
  · rw [runAt_bind_of_error (runAt_advance_of_error answered),
      runAt_bind_of_error (runAt_advance_of_error otherAnswered)]
    exact .error (.behind late)

namespace Twins

/-- A parser that passes a symbol if it is there comes to the spot behind the symbol. -/
theorem isAt_ite {symbol : Symbol} (whenAt : Twins exchange middle ends parser other)
    (leads : ∀ spot, begins spot → middle (spot.pass (.symbol symbol)))
    (otherwise : Twins exchange begins ends second otherSecond) :
    Twins exchange begins ends
      (isAt symbol >>= fun found => if found then discard advance >>= fun _ => parser else second)
      (isAt symbol >>= fun found =>
        if found then discard advance >>= fun _ => other else otherSecond) := by
  intro spot cursor otherCursor begun beside
  have sameKind : cursor.current.kind = .symbol symbol ↔ otherCursor.current.kind = .symbol symbol :=
    beside.meets.kind_eq_iff (by simp)
  rw [runAt_isAt_bind, runAt_isAt_bind]
  by_cases found : cursor.current.kind = .symbol symbol
  · have advanced : Twin exchange middle (runAt (discard advance) cursor)
        (runAt (discard advance) otherCursor) := by
      apply (twin_advance beside).mono
      rintro after rfl
      rw [found]
      exact leads spot begun
    simpa [found, sameKind.mp found] using advanced.bind fun _ => whenAt
  · simpa [found, mt sameKind.mpr found] using otherwise begun beside

theorem expect {symbol : Symbol} (leads : ∀ spot, begins spot → ends (spot.pass (.symbol symbol))) :
    Twins exchange begins ends (expect symbol) (expect symbol) := by
  have ended : Twins exchange ends ends (Pure.pure PUnit.unit) (Pure.pure PUnit.unit) := pure _
  have read := isAt_ite ended leads (unexpected symbol.quoted)
  have stops : (discard advance >>= fun _ => Pure.pure PUnit.unit) = discard advance := bind_pure _
  rw [stops] at read
  exact read

theorem expectEnd (leads : ∀ spot, begins spot → ends (spot.pass .endOfInput)) :
    Twins exchange begins ends expectEnd expectEnd := by
  intro spot cursor otherCursor begun beside
  have sameEnd : cursor.current.kind = .endOfInput ↔ otherCursor.current.kind = .endOfInput :=
    beside.meets.kind_eq_iff (by simp)
  unfold Parse.expectEnd
  rw [runAt_currentKind_bind, runAt_currentKind_bind]
  by_cases ended : cursor.current.kind = .endOfInput
  · rw [if_pos ended, if_pos (sameEnd.mp ended)]
    apply (twin_advance beside).mono
    rintro after rfl
    rw [ended]
    exact leads spot begun
  · rw [if_neg ended, if_neg (mt sameEnd.mpr ended)]
    exact unexpected _ begun beside

/-! ### Lists -/

theorem commaSeparated (items : Twins exchange begins ends parser other)
    (comma : ∀ spot, ends spot → begins (spot.pass (.symbol .comma))) (more : Nat) :
    Twins exchange begins ends (commaSeparated parser more) (commaSeparated other more) := by
  induction more with
  | zero => exact items.bind fun _ => pure _
  | succ more ih =>
      exact items.bind fun first => isAt_ite (ih.bind fun _ => pure _) comma (pure _)

theorem listUntil {closing : Symbol} {closed : Spot → Prop}
    (items : Twins exchange begins ends parser other)
    (comma : ∀ spot, ends spot → begins (spot.pass (.symbol .comma)))
    (closes : ∀ spot, begins spot ∨ ends spot → closed (spot.pass (.symbol closing))) :
    Twins exchange begins closed (listUntil closing parser) (listUntil closing other) := by
  refine isAt_ite (pure _) (fun spot begun => closes spot (.inl begun)) ?_
  intro spot cursor otherCursor begun beside
  rw [runAt_get_bind, runAt_get_bind, beside.remaining]
  have read := items.commaSeparated comma otherCursor.remaining
  have ended : Twins exchange ends closed (Parse.expect closing) (Parse.expect closing) :=
    expect fun spot ended => closes spot (.inr ended)
  exact (read.bind fun _ => ended.bind fun _ => pure _) begun beside

end Twins

end Parse

end TemplatedJson
