import TemplatedJson.Proofs.Lexing.Answers
import TemplatedJson.Proofs.Reading.Run

/-!
# Tokens that are left

The tokens that a cursor can still pass are those before the end of the text.  A step takes
one of them.  At the end it takes none, however often it is repeated, and neither does a
step that meets an error.
-/

namespace TemplatedJson

/-- How much passing a token is worth.  The mark at the end can be passed again and
again. -/
def Token.worth (token : Token) : Nat :=
  if token.kind = .endOfInput then 0 else 1

theorem Token.worth_le (token : Token) : token.worth ≤ 1 := by
  unfold worth
  split
  · exact Nat.zero_le 1
  · exact Nat.le_refl 1

theorem Token.worth_of_ne {token : Token} (notEnd : token.kind ≠ .endOfInput) : token.worth = 1 :=
  if_neg notEnd

theorem Token.worth_of_symbol {token : Token} {symbol : Symbol}
    (kind : token.kind = .symbol symbol) : token.worth = 1 :=
  worth_of_ne (by simp [kind])

namespace Cursor

variable {cursor after : Cursor} {upcoming : TokenStream}

/-- How many tokens can still be passed. -/
def tokensLeft (cursor : Cursor) : Nat :=
  cursor.upcoming.pending.countP Except.isOk + cursor.current.worth

/-- A step takes the token that it passes from those that are left. -/
theorem tokensLeft_of_ok {token : Token} (answered : cursor.upcoming.next = (.ok token, upcoming)) :
    tokensLeft { cursor with current := token, upcoming := upcoming } + cursor.current.worth =
      cursor.tokensLeft := by
  unfold tokensLeft
  dsimp only
  cases pending : cursor.upcoming.pending with
  | nil =>
      rw [TokenStream.next_of_nil pending] at answered
      obtain ⟨settled, rfl⟩ := Prod.mk.inj answered
      have ended := cursor.upcoming.settled_end token settled
      simp [pending, Token.worth, ended]
  | cons answer rest =>
      obtain ⟨first, later, -⟩ := TokenStream.next_of_cons pending
      rw [answered] at first later
      have notEnd : token.kind ≠ .endOfInput := by
        apply cursor.upcoming.pending_not_end token
        rw [pending, ← first]
        exact List.mem_cons_self
      rw [later, ← first, List.countP_cons_of_pos rfl, Token.worth_of_ne notEnd]

theorem tokensLeft_of_error {error : ParseError}
    (answered : cursor.upcoming.next = (.error error, upcoming)) :
    tokensLeft { cursor with upcoming := upcoming } = cursor.tokensLeft := by
  unfold tokensLeft
  dsimp only
  cases pending : cursor.upcoming.pending with
  | nil =>
      rw [TokenStream.next_of_nil pending] at answered
      rw [← (Prod.mk.inj answered).2, pending]
  | cons answer rest =>
      obtain ⟨first, later, -⟩ := TokenStream.next_of_cons pending
      rw [answered] at first later
      rw [later, ← first, List.countP_cons_of_neg Bool.false_ne_true]

theorem tokensLeft_of_following (known : cursor.following? = some after) :
    after.tokensLeft + cursor.current.worth = cursor.tokensLeft := by
  unfold following? at known
  split at known
  · next answered =>
      obtain rfl := Option.some.inj known
      exact tokensLeft_of_ok answered
  · cases known

/-- Where no tokens are left, the text ends. -/
theorem kind_of_tokensLeft (none : cursor.tokensLeft = 0) : cursor.current.kind = .endOfInput := by
  apply Decidable.byContradiction
  intro notEnd
  have worth := Token.worth_of_ne notEnd
  unfold tokensLeft at none
  omega

theorem tokensLeft_le_remaining (cursor : Cursor) : cursor.tokensLeft ≤ cursor.remaining :=
  Nat.add_le_add List.countP_le_length cursor.current.worth_le

/-- There are no more tokens than characters. -/
theorem StandsAt.tokensLeft_le {lexer : Lexer} (stands : cursor.StandsAt lexer) :
    cursor.tokensLeft ≤ lexer.rest.length := by
  have bound := lexer.length_pending_le
  unfold tokensLeft
  by_cases ended : cursor.current.kind = .endOfInput
  · have none := (StandsIn.pending_eq_nil stands ended).1
    have same := stands
    rw [StandsAt, StandsIn, TokenStream.next_of_nil none] at same
    rw [← (Prod.mk.inj same).2, none]
    simp [Token.worth, ended]
  · have tokens := List.countP_le_length (p := Except.isOk) (l := cursor.upcoming.pending)
    rw [(StandsIn.pending_eq_cons stands ended).1, List.length_cons] at bound
    rw [Token.worth_of_ne ended]
    omega

end Cursor

end TemplatedJson
