import TemplatedJson.Proofs.Lexing.Layout
import TemplatedJson.Proofs.Reading.Congruence
import TemplatedJson.Proofs.Reading.Refusal

/-!
# Parsing in parallel

Two texts have the same tokens up to their places.  Two runs of a parser that begin at
tokens with the same index then stay at tokens with the same index, because a parser
sees kinds and texts of tokens only.  Where one run fails the other one fails for the
same cause, as far behind the corresponding token.
-/

namespace TemplatedJson

/-! ### Cursors by index -/

/-- Whether a cursor stands at the token with an index, of tokens with an end after
them.  Behind the end there is nothing but the end again. -/
structure Cursor.At (tokens : List Token) (final : Token) (index : Nat) (cursor : Cursor) :
    Prop where
  current : (tokens ++ [final])[index]? = some cursor.current
  pending : cursor.upcoming.pending = (tokens.drop (index + 1)).map .ok
  settled : cursor.upcoming.settled = .ok final

namespace Cursor.At

variable {tokens : List Token} {final : Token} {index : Nat} {cursor : Cursor}

theorem index_le (standsAt : cursor.At tokens final index) : index ≤ tokens.length := by
  have inside := (List.getElem?_eq_some_iff.mp standsAt.current).1
  rw [List.length_append, List.length_singleton] at inside
  omega

theorem remaining (standsAt : cursor.At tokens final index) :
    cursor.remaining = tokens.length - (index + 1) + 1 := by
  unfold Cursor.remaining
  rw [standsAt.pending, List.length_map, List.length_drop]

/-- Behind a token stands the next one, and behind the end the end. -/
theorem exists_next (standsAt : cursor.At tokens final index) :
    ∃ token upcoming, cursor.upcoming.next = (.ok token, upcoming) ∧
      At tokens final (min (index + 1) tokens.length)
        { cursor with current := token, upcoming := upcoming } := by
  have pending := standsAt.pending
  have settled := standsAt.settled
  by_cases more : index + 1 < tokens.length
  · rw [List.drop_eq_getElem_cons more, List.map_cons] at pending
    obtain ⟨first, later, rest⟩ := TokenStream.next_of_cons pending
    refine ⟨tokens[index + 1], cursor.upcoming.next.2, Prod.ext first rfl, ?_⟩
    rw [Nat.min_eq_left (Nat.le_of_lt more)]
    refine ⟨?_, later, rest.trans settled⟩
    rw [List.getElem?_append_left more, List.getElem?_eq_getElem more]
  · rw [List.drop_eq_nil_of_le (by omega), List.map_nil] at pending
    refine ⟨final, cursor.upcoming, ?_, ?_⟩
    · rw [TokenStream.next_of_nil pending, settled]
    · rw [Nat.min_eq_right (by omega)]
      refine ⟨by simp, ?_, settled⟩
      rw [List.drop_eq_nil_of_le (by omega), List.map_nil]
      exact pending

end Cursor.At

/-- The first token of a text has the first index. -/
theorem Cursor.at_of_ofText {text : String} {tokens : List Token} {final : Token}
    (lexed : tokenize text = .ok (tokens ++ [final])) (depth : Nat) :
    ∃ cursor, Cursor.ofText text depth = .ok cursor ∧ cursor.At tokens final 0 ∧
      cursor.depth = depth := by
  obtain ⟨pending, settled⟩ := TokenStream.tokens_eq_ok_iff.mp lexed
  obtain ⟨first, upcoming, answered⟩ := TokenStream.exists_next_eq_ok pending settled
  have located : Cursor.ofText text depth = .ok ⟨first, upcoming, depth, []⟩ :=
    Cursor.ofText_eq_ok_iff.mpr ⟨answered, rfl, rfl⟩
  refine ⟨_, located, ?_, rfl⟩
  cases tokens with
  | nil =>
      rw [TokenStream.next_of_nil pending, settled] at answered
      obtain ⟨same, rfl⟩ := Prod.mk.inj answered
      obtain rfl := Except.ok.inj same
      exact ⟨rfl, pending, settled⟩
  | cons token tokens =>
      obtain ⟨current, later, rest⟩ := TokenStream.next_of_cons pending
      rw [answered] at current later rest
      obtain rfl := Except.ok.inj current
      exact ⟨rfl, later, rest.trans settled⟩

/-! ### Two layouts -/

/-- Two lists of tokens, each with the end of a text after it, that differ in places
only. -/
structure Layouts where
  tokens : List Token
  final : Token
  others : List Token
  otherFinal : Token
  ended : final.kind = .endOfInput
  same : (tokens ++ [final]).map Token.shape = (others ++ [otherFinal]).map Token.shape

namespace Layouts

variable (layouts : Layouts) {token other : Token}

/-- Whether two tokens have the same index. -/
def Meets (token other : Token) : Prop :=
  ∃ index : Nat, (layouts.tokens ++ [layouts.final])[index]? = some token ∧
    (layouts.others ++ [layouts.otherFinal])[index]? = some other

theorem length_eq : layouts.tokens.length = layouts.others.length := by
  simpa using congrArg List.length layouts.same

variable {layouts}

theorem Meets.shape (meets : layouts.Meets token other) : token.shape = other.shape := by
  obtain ⟨index, known, otherKnown⟩ := meets
  have same := congrArg (fun shapes => shapes[index]?) layouts.same
  rw [List.getElem?_map, List.getElem?_map, known, otherKnown] at same
  exact Option.some.inj same

end Layouts

namespace Parse

variable {layouts : Layouts} {allows : Token → Nat → Prop} {Value Image : Type}

/-- Whether two cursors stand at tokens with the same index and at the same depth. -/
def Beside (layouts : Layouts) (cursor other : Cursor) : Prop :=
  ∃ index, cursor.At layouts.tokens layouts.final index ∧
    other.At layouts.others layouts.otherFinal index ∧ cursor.depth = other.depth

/-- Whether two errors have one cause, and the same allowed distance from tokens with the
same index. -/
def Corresponds (layouts : Layouts) (allows : Token → Nat → Prop) (error other : ParseError) :
    Prop :=
  ∃ cause token otherToken distance, layouts.Meets token otherToken ∧ allows token distance ∧
    error = ⟨cause, token.offset + distance⟩ ∧ other = ⟨cause, otherToken.offset + distance⟩

/-- Whether two runs end with the same value beside each other, or with errors that
correspond. -/
inductive Parallel (layouts : Layouts) (allows : Token → Nat → Prop) {Value : Type} :
    Ending Value → Ending Value → Prop
  | value {value : Value} {after otherAfter : Cursor} : Beside layouts after otherAfter →
      Parallel layouts allows (.ok value, after) (.ok value, otherAfter)
  | error {error otherError : ParseError} {after otherAfter : Cursor} :
      Corresponds layouts allows error otherError →
        Parallel layouts allows (.error error, after) (.error otherError, otherAfter)

/-- Whether two parsers run in parallel wherever they begin beside each other. -/
def AreParallel (layouts : Layouts) (allows : Token → Nat → Prop) {Value : Type}
    (parser other : Parse Value) : Prop :=
  ∀ ⦃cursor otherCursor : Cursor⦄, Beside layouts cursor otherCursor →
    Parallel layouts allows (runAt parser cursor) (runAt other otherCursor)

namespace Beside

variable {cursor other : Cursor}

theorem meets (beside : Beside layouts cursor other) :
    layouts.Meets cursor.current other.current := by
  obtain ⟨index, standsAt, otherAt, -⟩ := beside
  exact ⟨index, standsAt.current, otherAt.current⟩

theorem remaining (beside : Beside layouts cursor other) :
    cursor.remaining = other.remaining := by
  obtain ⟨index, standsAt, otherAt, -⟩ := beside
  rw [standsAt.remaining, otherAt.remaining, layouts.length_eq]

theorem exists_next (beside : Beside layouts cursor other) :
    ∃ token upcoming otherToken otherUpcoming, cursor.upcoming.next = (.ok token, upcoming) ∧
      other.upcoming.next = (.ok otherToken, otherUpcoming) ∧
        Beside layouts { cursor with current := token, upcoming := upcoming }
          { other with current := otherToken, upcoming := otherUpcoming } := by
  obtain ⟨index, standsAt, otherAt, depth⟩ := beside
  obtain ⟨token, upcoming, answered, next⟩ := standsAt.exists_next
  obtain ⟨otherToken, otherUpcoming, otherAnswered, otherNext⟩ := otherAt.exists_next
  rw [← layouts.length_eq] at otherNext
  exact ⟨token, upcoming, otherToken, otherUpcoming, answered, otherAnswered, _, next, otherNext,
    depth⟩

end Beside

namespace AreParallel

variable {parser other : Parse Value}

theorem bind {next otherNext : Value → Parse Image}
    (first : AreParallel layouts allows parser other)
    (rest : ∀ value, AreParallel layouts allows (next value) (otherNext value)) :
    AreParallel layouts allows (parser >>= next) (other >>= otherNext) := by
  intro cursor otherCursor beside
  have begun := first beside
  rw [runAt_bind, runAt_bind]
  generalize runAt parser cursor = ending, runAt other otherCursor = otherEnding at begun ⊢
  cases begun with
  | value besideNext => exact rest _ besideNext
  | error corresponds => exact .error corresponds

theorem deeper (inside : AreParallel layouts allows parser other) :
    AreParallel layouts allows (deeper parser) (deeper other) := by
  have leave : ∀ value : Value, AreParallel layouts allows
      (modify (fun cursor => { cursor with depth := cursor.depth - 1 }) >>=
        fun _ => pure value)
      (modify (fun cursor => { cursor with depth := cursor.depth - 1 }) >>=
        fun _ => pure value) := by
    rintro value after otherAfter ⟨index, standsAt, otherAt, depth⟩
    exact .value ⟨index, ⟨standsAt.1, standsAt.2, standsAt.3⟩, ⟨otherAt.1, otherAt.2, otherAt.3⟩,
      congrArg (· - 1) depth⟩
  rintro cursor otherCursor ⟨index, standsAt, otherAt, depth⟩
  unfold Parse.deeper
  rw [runAt_modify_bind, runAt_modify_bind]
  exact inside.bind leave ⟨index, ⟨standsAt.1, standsAt.2, standsAt.3⟩,
    ⟨otherAt.1, otherAt.2, otherAt.3⟩, congrArg (· + 1) depth⟩

/-- Refusals at tokens with the same index correspond. -/
theorem throw (here : ∀ token, allows token 0) {token otherToken : Token}
    (meets : layouts.Meets token otherToken) (cause : ParseError.Cause) :
    AreParallel layouts allows (throw ⟨cause, token.offset⟩ : Parse Value)
      (throw ⟨cause, otherToken.offset⟩) :=
  fun _ _ _ => .error ⟨cause, token, otherToken, 0, meets, here token, rfl, rfl⟩

end AreParallel

/-- Running in parallel respects the steps of parsers. -/
def parallel (layouts : Layouts) (allows : Token → Nat → Prop) (here : ∀ token, allows token 0) :
    Congruence where
  relates parser other := AreParallel layouts allows parser other
  meets token other := layouts.Meets token other
  kind_eq meets := congrArg Prod.fst meets.shape
  raw_eq meets := congrArg Prod.snd meets.shape
  yield value := fun _ _ beside => .value beside
  join := AreParallel.bind
  look := by
    intro Image next otherNext rest cursor otherCursor beside
    rw [runAt_get_bind, runAt_get_bind]
    exact (rest cursor otherCursor beside.meets beside.remaining).relates
      (fun _ => AreParallel.throw here beside.meets _) beside
  advance := by
    intro Image next otherNext rest cursor otherCursor beside
    obtain ⟨token, upcoming, otherToken, otherUpcoming, answered, otherAnswered, besideNext⟩ :=
      beside.exists_next
    rw [runAt_bind_of_ok (runAt_advance_of_ok answered),
      runAt_bind_of_ok (runAt_advance_of_ok otherAnswered)]
    exact (rest _ _ beside.meets).relates
      (fun _ => AreParallel.throw here beside.meets _) besideNext
  peek := by
    intro Image next otherNext rest cursor otherCursor beside
    obtain ⟨token, upcoming, otherToken, otherUpcoming, answered, otherAnswered, besideNext⟩ :=
      beside.exists_next
    rw [runAt_bind_of_ok (runAt_peek_of_ok answered),
      runAt_bind_of_ok (runAt_peek_of_ok otherAnswered)]
    exact rest _ _ besideNext.meets beside
  deeper := AreParallel.deeper

end Parse

end TemplatedJson
