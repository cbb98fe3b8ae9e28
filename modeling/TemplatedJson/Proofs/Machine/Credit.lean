import TemplatedJson.Proofs.Machine.Parser
import TemplatedJson.Proofs.Reading.Left
import TemplatedJson.Proofs.Reading.Refusal

/-!
# Paying for depth and height

Every level of nesting and every node of a tree is paid for with a token.  A parser holds
credits: those that it was given, and one for each token that it passes.  Going a level
deeper takes a credit, which is given back on the way up, and a tree keeps as many as it
is tall.  As long as the depth, the tokens that are left and the credits that are held
fit into a machine word together, a machine is not trapped.
-/

namespace TemplatedJson

/-- What holds all the way while a machine reads: how many of the containers around count
for the height of a tree, how much room there is for the depth, the tokens that are left
and the credits that are held, and what is known of all answers. -/
structure Account where
  machine : Machine
  base : Nat
  room : Nat
  holds : LexerAnswer → Prop
  fits : room ≤ machine.greatest

/-- What several values are worth together. -/
def worthOfAll {Value : Type} (worth : Value → Nat) : List Value → Nat
  | [] => 0
  | first :: rest => worth first + worthOfAll worth rest

namespace Parse

variable {account : Account} {cursor after : Cursor} {Value Image : Type} {held : Nat}
  {worth : Value → Nat} {image : Image → Nat}

/-- Whether a run that began at a cursor with some credits ends in balance.  A success
restores the depth, and what its value is worth was paid for.  A failure may keep a
greater depth, which was paid for too. -/
inductive Balanced (account : Account) (cursor : Cursor) (held : Nat) {Value : Type}
    (worth : Value → Nat) : Ending Value → Prop
  | value {value : Value} {after : Cursor} : after.Sees account.holds → after.depth = cursor.depth →
      after.tokensLeft + worth value ≤ cursor.tokensLeft + held →
        Balanced account cursor held worth (.ok value, after)
  | error {error : ParseError} {after : Cursor} : after.Sees account.holds →
      cursor.depth ≤ after.depth →
      after.depth + after.tokensLeft ≤ cursor.depth + cursor.tokensLeft + held →
        Balanced account cursor held worth (.error error, after)

/-- Whether a machine comes to the same end as a run that began at a cursor with some
credits, and in balance, provided that there is room enough. -/
def PaysAt (account : Account) (cursor : Cursor) (held : Nat) (worth : Value → Nat)
    (checked plain : Ending Value) : Prop :=
  cursor.Sees account.holds → account.base ≤ cursor.depth →
    cursor.depth + cursor.tokensLeft + held ≤ account.room →
      checked = plain ∧ Balanced account cursor held worth plain

/-- Whether all runs of a parser pay for what they do, given some credits, and a machine
does the same. -/
def Pays (account : Account) (held : Nat) (worth : Value → Nat) (checked plain : Parse Value) :
    Prop :=
  ∀ cursor : Cursor, PaysAt account cursor held worth (runAt checked cursor) (runAt plain cursor)

/-! ### Ends of runs -/

theorem PaysAt.pure {value : Value} (enough : worth value ≤ held) :
    PaysAt account cursor held worth (.ok value, cursor) (.ok value, cursor) :=
  fun sees _ _ => ⟨rfl, .value sees rfl (Nat.add_le_add_left enough _)⟩

theorem PaysAt.fail (error : ParseError) :
    PaysAt account cursor held worth (.error error, cursor) (.error error, cursor) :=
  fun sees _ _ => ⟨rfl, .error sees (Nat.le_refl _) (Nat.le_add_right _ _)⟩

/-- Credits that are not needed are still there behind a run. -/
theorem PaysAt.weaken {checked plain : Ending Value} {less : Nat} {lower : Value → Nat}
    (pays : PaysAt account cursor less lower checked plain) (given : less ≤ held)
    (kept : ∀ value, worth value + less ≤ lower value + held) :
    PaysAt account cursor held worth checked plain := by
  intro sees counted fits
  obtain ⟨same, balanced⟩ := pays sees counted (by omega)
  refine ⟨same, ?_⟩
  cases balanced with
  | @value value after seesAfter depth paid =>
      have more := kept value
      exact .value seesAfter depth (by omega)
  | error seesAfter deeper paid => exact .error seesAfter deeper (by omega)

/-- What ends in balance behind a success is in balance as a whole. -/
theorem Balanced.behind {ending : Ending Image}
    (balanced : Balanced account after held image ending) {given : Nat} (depth : after.depth = cursor.depth)
    (paid : after.tokensLeft + held ≤ cursor.tokensLeft + given) :
    Balanced account cursor given image ending := by
  cases balanced with
  | value sees depthAfter paidAfter => exact .value sees (depthAfter.trans depth) (by omega)
  | error sees deeper paidAfter => exact .error sees (by omega) (by omega)

/-- Whether it succeeds or fails, a run does not take more than it was given. -/
theorem Balanced.ends {ending : Ending Value}
    (balanced : Balanced account cursor held worth ending) :
    ending.2.Sees account.holds ∧ cursor.depth ≤ ending.2.depth ∧
      ending.2.depth + ending.2.tokensLeft ≤ cursor.depth + cursor.tokensLeft + held := by
  cases balanced with
  | value sees depth paid => exact ⟨sees, Nat.le_of_eq depth.symm, by dsimp only; omega⟩
  | error sees deeper paid => exact ⟨sees, deeper, paid⟩

/-! ### Joining parsers -/

section Joining

variable {parser other : Parse Value} {next otherNext : Value → Parse Image}

theorem PaysAt.bind
    (first : PaysAt account cursor held worth (runAt parser cursor) (runAt other cursor))
    (rest : ∀ value after, runAt other cursor = (.ok value, after) →
      PaysAt account after (worth value) image (runAt (next value) after)
        (runAt (otherNext value) after)) :
    PaysAt account cursor held image (runAt (parser >>= next) cursor)
      (runAt (other >>= otherNext) cursor) := by
  intro sees counted fits
  obtain ⟨same, balanced⟩ := first sees counted fits
  rcases ran : runAt other cursor with ⟨error | value, middle⟩
  · rw [ran] at same balanced
    rw [runAt_bind_of_error same, runAt_bind_of_error ran]
    cases balanced with
    | error seesAfter deeper paid => exact ⟨rfl, .error seesAfter deeper paid⟩
  · rw [ran] at same balanced
    rw [runAt_bind_of_ok same, runAt_bind_of_ok ran]
    cases balanced with
    | value seesMiddle depth paid =>
        obtain ⟨sameRest, balancedRest⟩ :=
          rest value middle ran seesMiddle (by omega) (by omega)
        exact ⟨sameRest, balancedRest.behind depth paid⟩

theorem Pays.bind (first : Pays account held worth parser other)
    (rest : ∀ value, Pays account (worth value) image (next value) (otherNext value)) :
    Pays account held image (parser >>= next) (other >>= otherNext) :=
  fun cursor => (first cursor).bind fun value after _ => rest value after

theorem Pays.weaken {less : Nat} {lower : Value → Nat} (pays : Pays account less lower parser other)
    (given : less ≤ held) (kept : ∀ value, worth value + less ≤ lower value + held) :
    Pays account held worth parser other :=
  fun cursor => (pays cursor).weaken given kept

theorem Pays.ite {condition : Prop} [Decidable condition] {second otherSecond : Parse Value}
    (whenTrue : Pays account held worth parser other)
    (whenFalse : Pays account held worth second otherSecond) :
    Pays account held worth (if condition then parser else second)
      (if condition then other else otherSecond) := by
  split
  · exact whenTrue
  · exact whenFalse

end Joining

theorem pays_pure {value : Value} (enough : worth value ≤ held) :
    Pays account held worth (pure value) (pure value) :=
  fun _ => .pure enough

theorem Pays.map {parser other : Parse Value}
    (pays : Pays account held (fun _ => held) parser other) (replace : Value → Image) :
    Pays account held (fun _ => held) (replace <$> parser) (replace <$> other) := by
  rw [map_eq_pure_bind, map_eq_pure_bind]
  exact pays.bind fun _ => pays_pure (Nat.le_refl _)

theorem pays_throw (error : ParseError) :
    Pays account held worth (throw error : Parse Value) (throw error) :=
  fun _ => .fail error

theorem pays_failAt (token : Token) (expected : String) :
    Pays account held worth (failAt token expected : Parse Value) (failAt token expected) :=
  fun _ => .fail _

theorem pays_unexpected (expected : String) :
    Pays account held worth (unexpected expected : Parse Value) (unexpected expected) :=
  fun _ => .fail _

theorem pays_tooDeep (maximum : Nat) :
    Pays account held worth (tooDeep maximum : Parse Value) (tooDeep maximum) :=
  fun _ => .fail _

/-! ### Steps -/

/-- A token that is passed is worth a credit, and what is known of all answers is known of
it. -/
theorem paysAt_advance_bind {next otherNext : Token → Parse Image}
    (rest : account.holds (.ok cursor.current) →
      Pays account (held + cursor.current.worth) image (next cursor.current)
        (otherNext cursor.current)) :
    PaysAt account cursor held image (runAt (advance >>= next) cursor)
      (runAt (advance >>= otherNext) cursor) := by
  intro sees counted fits
  have passes : PaysAt account cursor held (fun _ => held + cursor.current.worth)
      (runAt advance cursor) (runAt advance cursor) := by
    intro _ _ _
    refine ⟨rfl, ?_⟩
    rcases answered : cursor.upcoming.next with ⟨error | token, upcoming⟩
    · rw [runAt_advance_of_error answered]
      have left := Cursor.tokensLeft_of_error answered
      exact .error ⟨sees.1, (sees.of_error answered).2⟩ (Nat.le_refl _) (by dsimp only; omega)
    · rw [runAt_advance_of_ok answered]
      have left := Cursor.tokensLeft_of_ok answered
      exact .value (sees.of_ok answered) rfl (by omega)
  refine passes.bind ?_ sees counted fits
  intro token after ran
  obtain ⟨rfl, -⟩ := runAt_advance_eq_ok.mp ran
  exact rest sees.1 after

theorem pays_advance_bind {next otherNext : Token → Parse Image}
    (rest : ∀ token, account.holds (.ok token) →
      Pays account (held + token.worth) image (next token) (otherNext token)) :
    Pays account held image (advance >>= next) (advance >>= otherNext) :=
  fun cursor => paysAt_advance_bind (rest cursor.current)

theorem pays_peek_bind {next otherNext : Token → Parse Image}
    (rest : ∀ token, Pays account held image (next token) (otherNext token)) :
    Pays account held image (peek >>= next) (peek >>= otherNext) := by
  suffices looks : Pays account held (fun _ : Token => held) peek peek from looks.bind rest
  intro cursor sees counted fits
  refine ⟨rfl, ?_⟩
  rcases answered : cursor.upcoming.next with ⟨error | token, upcoming⟩
  · rw [runAt_peek_of_error answered]
    have left := Cursor.tokensLeft_of_error answered
    exact .error ⟨sees.1, (sees.of_error answered).2⟩ (Nat.le_refl _) (by dsimp only; omega)
  · rw [runAt_peek_of_ok answered]
    exact .value sees rfl (Nat.le_refl _)

theorem pays_discard_advance :
    Pays account held (fun _ => held) (discard advance) (discard advance) := by
  change Pays account held _ ((fun _ => PUnit.unit) <$> advance) ((fun _ => PUnit.unit) <$> advance)
  rw [map_eq_pure_bind]
  exact pays_advance_bind fun token _ => pays_pure (Nat.le_add_right _ _)

/-- A symbol is worth a credit, even if nothing else is kept of it. -/
theorem paysAt_discard_advance {symbol : Symbol} (found : cursor.current.kind = .symbol symbol) :
    PaysAt account cursor held (fun _ => held + 1) (runAt (discard advance) cursor)
      (runAt (discard advance) cursor) := by
  change PaysAt account cursor held _ (runAt ((fun _ => PUnit.unit) <$> advance) cursor)
    (runAt ((fun _ => PUnit.unit) <$> advance) cursor)
  rw [map_eq_pure_bind]
  have worth : cursor.current.worth = 1 := by
    apply Token.worth_of_ne
    rw [found]
    exact nofun
  apply paysAt_advance_bind
  intro _
  rw [worth]
  exact pays_pure (Nat.le_refl _)

theorem pays_expect (symbol : Symbol) :
    Pays account held (fun _ => held + 1) (expect symbol) (expect symbol) := by
  intro cursor
  unfold expect
  rw [runAt_isAt_bind]
  split
  · next found => exact paysAt_discard_advance (by simpa using found)
  · exact .fail _

theorem pays_expectEnd : Pays account held (fun _ => held) expectEnd expectEnd := by
  intro cursor
  unfold expectEnd
  rw [runAt_currentKind_bind]
  split
  · exact pays_discard_advance cursor
  · exact .fail _

theorem pays_sight_bind {next otherNext : PUnit → Parse Image} (sighting : Template.Sighting)
    (rest : Pays account held image (next ⟨⟩) (otherNext ⟨⟩)) :
    Pays account held image
      (modify (fun cursor => { cursor with sightings := cursor.sightings ++ [sighting] }) >>= next)
      (modify (fun cursor => { cursor with sightings := cursor.sightings ++ [sighting] }) >>=
        otherNext) := by
  intro cursor sees counted fits
  rw [runAt_modify_bind, runAt_modify_bind]
  obtain ⟨same, balanced⟩ :=
    rest { cursor with sightings := cursor.sightings ++ [sighting] } sees counted fits
  exact ⟨same, balanced.behind rfl (Nat.le_refl _)⟩

/-! ### Lists -/

section Lists

variable {parser other : Parse Value}

/-- One credit pays for a level within any of the items, one after the other. -/
theorem pays_commaSeparated (items : Pays account 1 (fun value => worth value + 1) parser other)
    (more : Nat) :
    Pays account 1 (fun values => worthOfAll worth values + 1) (commaSeparated parser more)
      (commaSeparated other more) := by
  induction more with
  | zero => exact items.bind fun value => pays_pure (Nat.le_refl _)
  | succ more ih =>
      refine items.bind fun first cursor => ?_
      rw [runAt_isAt_bind, runAt_isAt_bind]
      split
      · next found =>
          have atComma : cursor.current.kind = .symbol .comma := by simpa using found
          refine (paysAt_discard_advance atComma).bind fun _ after _ => ?_
          have others : Pays account (worth first + 1 + 1)
              (fun values => worth first + 1 + worthOfAll worth values) _ _ :=
            ih.weaken (by omega) fun values => by omega
          refine others.bind (fun values => pays_pure ?_) after
          rw [worthOfAll]
          omega
      · exact .pure (Nat.le_refl _)

/-- The closing symbol is worth one credit more. -/
theorem pays_listUntil (items : Pays account 1 (fun value => worth value + 1) parser other)
    (closing : Symbol) :
    Pays account 1 (fun values => worthOfAll worth values + 2) (listUntil closing parser)
      (listUntil closing other) := by
  intro cursor
  unfold listUntil
  rw [runAt_isAt_bind, runAt_isAt_bind]
  split
  · next found =>
      have closed : cursor.current.kind = .symbol closing := by simpa using found
      exact (paysAt_discard_advance closed).bind fun _ _ _ => .pure (Nat.le_refl _)
  · rw [runAt_get_bind, runAt_get_bind]
    refine (pays_commaSeparated items _).bind (fun values => ?_) cursor
    exact (pays_expect closing).bind fun _ => pays_pure (Nat.le_refl _)

end Lists

end Parse

end TemplatedJson
