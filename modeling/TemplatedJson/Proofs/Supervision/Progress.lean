import TemplatedJson.Proofs.Reading.Refusal
import TemplatedJson.Proofs.Supervision.Parser

/-!
# Progress under supervision

Inside of a frame a parser is known to have passed some tokens since the frame began.  A
supervisor lets it do what it does without one, and where it succeeds, it is known to have
passed as many tokens as before and those that it passed itself.  The depth is then the one
that it began with.
-/

namespace TemplatedJson

/-- How many levels are left inside of a frame. -/
def Frame.levels (frame : Frame) : Nat :=
  frame.maximum - (frame.start + frame.active)

theorem Frame.levels_inside {frame : Frame} {levels : Nat} (left : Nat)
    (known : frame.levels = levels + 1) : (frame.inside left).levels = levels := by
  unfold Frame.levels at known ⊢
  simp only [inside]
  omega

namespace Parse

variable {supervisor : Supervisor} {frame : Frame} {cursor after : Cursor} {Value Image : Type}
  {passed reached further : Nat}

/-- Whether a run restores the depth if it succeeds, and then has passed `reached` tokens
if `passed` tokens had been passed before. -/
inductive Advances (cursor : Cursor) (passed reached : Nat) {Value : Type} : Ending Value → Prop
  | value {value : Value} {after : Cursor} : after.depth = cursor.depth →
      after.tokensLeft + reached ≤ cursor.tokensLeft + passed →
        Advances cursor passed reached (.ok value, after)
  | error {error : ParseError} {after : Cursor} :
      Advances cursor passed reached (.error error, after)

/-- Whether a supervisor comes to the same end as a run that began at a cursor inside of a
frame, with at least `passed` tokens passed since the frame began. -/
def ObeysAt (frame : Frame) (cursor : Cursor) (passed reached : Nat)
    (checked plain : Ending Value) : Prop :=
  frame.Counts cursor.depth → cursor.tokensLeft + passed ≤ frame.left →
    checked = plain ∧ Advances cursor passed reached plain

/-- Whether a supervisor comes to the same end as all runs of a parser inside of a frame. -/
def Obeys (frame : Frame) (passed reached : Nat) (checked plain : Parse Value) : Prop :=
  ∀ cursor : Cursor, ObeysAt frame cursor passed reached (runAt checked cursor) (runAt plain cursor)

/-! ### Ends of runs -/

theorem ObeysAt.pure {value : Value} (fewer : reached ≤ passed) :
    ObeysAt frame cursor passed reached (.ok value, cursor) (.ok value, cursor) :=
  fun _ _ => ⟨rfl, .value rfl (Nat.add_le_add_left fewer _)⟩

theorem ObeysAt.fail (error : ParseError) :
    ObeysAt frame cursor passed reached ((.error error, after) : Ending Value)
      (.error error, after) :=
  fun _ _ => ⟨rfl, .error⟩

/-- Less may be known of the tokens that were passed. -/
theorem ObeysAt.weaken {checked plain : Ending Value} {less fewer : Nat}
    (obeys : ObeysAt frame cursor less reached checked plain) (known : less ≤ passed)
    (kept : fewer + less ≤ reached + passed) : ObeysAt frame cursor passed fewer checked plain := by
  intro counts begun
  obtain ⟨same, advances⟩ := obeys counts (by omega)
  refine ⟨same, ?_⟩
  cases advances with
  | value depth left => exact .value depth (by omega)
  | error => exact .error

/-! ### Joining parsers -/

section Joining

variable {parser other : Parse Value} {next otherNext : Value → Parse Image}

/-- What advances behind a success advances as a whole. -/
theorem Advances.behind {ending : Ending Image} (advances : Advances after reached further ending)
    (depth : after.depth = cursor.depth)
    (left : after.tokensLeft + reached ≤ cursor.tokensLeft + passed) :
    Advances cursor passed further ending := by
  cases advances with
  | value depthRest leftRest =>
      exact .value (depthRest.trans depth) (Nat.le_trans leftRest left)
  | error => exact .error

theorem ObeysAt.bind
    (first : ObeysAt frame cursor passed reached (runAt parser cursor) (runAt other cursor))
    (rest : ∀ value after, runAt other cursor = (.ok value, after) →
      after.tokensLeft + reached ≤ cursor.tokensLeft + passed →
        ObeysAt frame after reached further (runAt (next value) after)
          (runAt (otherNext value) after)) :
    ObeysAt frame cursor passed further (runAt (parser >>= next) cursor)
      (runAt (other >>= otherNext) cursor) := by
  intro counts begun
  obtain ⟨same, advances⟩ := first counts begun
  rcases ran : runAt other cursor with ⟨error | value, middle⟩
  · rw [ran] at same
    rw [runAt_bind_of_error same, runAt_bind_of_error ran]
    exact ⟨rfl, .error⟩
  · rw [ran] at same advances
    rw [runAt_bind_of_ok same, runAt_bind_of_ok ran]
    cases advances with
    | value depth left =>
        obtain ⟨sameRest, advancesRest⟩ :=
          rest value middle ran left (by rwa [depth]) (Nat.le_trans left begun)
        exact ⟨sameRest, advancesRest.behind depth left⟩

theorem Obeys.bind (first : Obeys frame passed reached parser other)
    (rest : ∀ value, Obeys frame reached further (next value) (otherNext value)) :
    Obeys frame passed further (parser >>= next) (other >>= otherNext) :=
  fun cursor => (first cursor).bind fun value after _ _ => rest value after

theorem Obeys.weaken {less fewer : Nat} (obeys : Obeys frame less reached parser other)
    (known : less ≤ passed) (kept : fewer + less ≤ reached + passed) :
    Obeys frame passed fewer parser other :=
  fun cursor => (obeys cursor).weaken known kept

theorem Obeys.ite {condition : Prop} [Decidable condition] {second otherSecond : Parse Value}
    (whenTrue : Obeys frame passed reached parser other)
    (whenFalse : Obeys frame passed reached second otherSecond) :
    Obeys frame passed reached (if condition then parser else second)
      (if condition then other else otherSecond) := by
  split
  · exact whenTrue
  · exact whenFalse

end Joining

theorem obeys_pure {value : Value} (fewer : reached ≤ passed) :
    Obeys frame passed reached (pure value) (pure value) :=
  fun _ => .pure fewer

theorem Obeys.map {parser other : Parse Value} (obeys : Obeys frame passed reached parser other)
    (replace : Value → Image) :
    Obeys frame passed reached (replace <$> parser) (replace <$> other) := by
  rw [map_eq_pure_bind, map_eq_pure_bind]
  exact obeys.bind fun _ => obeys_pure (Nat.le_refl _)

theorem obeys_throw (error : ParseError) :
    Obeys frame passed reached (throw error : Parse Value) (throw error) :=
  fun _ => .fail error

theorem obeys_failAt (token : Token) (expected : String) :
    Obeys frame passed reached (failAt token expected : Parse Value) (failAt token expected) :=
  fun _ => .fail _

theorem obeys_unexpected (expected : String) :
    Obeys frame passed reached (unexpected expected : Parse Value) (unexpected expected) :=
  fun _ => .fail _

theorem obeys_build (limits : Limits) (tree : Measured) (fewer : reached ≤ passed) :
    Obeys frame passed reached (build limits tree) (build limits tree) := by
  unfold build
  split
  · exact obeys_pure fewer
  · exact fun _ => .fail _

/-! ### Steps -/

theorem obeysAt_advance :
    ObeysAt frame cursor passed (passed + cursor.current.worth) (runAt advance cursor)
      (runAt advance cursor) := by
  intro _ _
  refine ⟨rfl, ?_⟩
  rcases answered : cursor.upcoming.next with ⟨error | token, upcoming⟩
  · rw [runAt_advance_of_error answered]
    exact .error
  · rw [runAt_advance_of_ok answered]
    have left := Cursor.tokensLeft_of_ok answered
    exact .value rfl (by omega)

theorem obeys_advance_bind {next otherNext : Token → Parse Image}
    (rest : ∀ token, Obeys frame (passed + token.worth) reached (next token) (otherNext token)) :
    Obeys frame passed reached (advance >>= next) (advance >>= otherNext) := by
  intro cursor
  refine obeysAt_advance.bind fun token after ran _ => ?_
  obtain ⟨rfl, -⟩ := runAt_advance_eq_ok.mp ran
  exact rest _ after

theorem obeys_peek : Obeys frame passed passed peek peek := by
  intro cursor _ _
  refine ⟨rfl, ?_⟩
  rcases answered : cursor.upcoming.next with ⟨error | token, upcoming⟩
  · rw [runAt_peek_of_error answered]
    exact .error
  · rw [runAt_peek_of_ok answered]
    exact .value rfl (Nat.le_refl _)

theorem obeys_discard_advance :
    Obeys frame passed passed (discard advance) (discard advance) := by
  change Obeys frame passed passed ((fun _ => PUnit.unit) <$> advance)
    ((fun _ => PUnit.unit) <$> advance)
  rw [map_eq_pure_bind]
  exact obeys_advance_bind fun token => obeys_pure (Nat.le_add_right _ _)

theorem obeysAt_discard_advance {symbol : Symbol} (found : cursor.current.kind = .symbol symbol) :
    ObeysAt frame cursor passed (passed + 1) (runAt (discard advance) cursor)
      (runAt (discard advance) cursor) := by
  change ObeysAt frame cursor passed (passed + 1) (runAt ((fun _ => PUnit.unit) <$> advance) cursor)
    (runAt ((fun _ => PUnit.unit) <$> advance) cursor)
  rw [map_eq_pure_bind, ← Token.worth_of_symbol found]
  exact obeysAt_advance.bind fun _ _ _ _ => .pure (Nat.le_refl _)

theorem obeys_expect (symbol : Symbol) :
    Obeys frame passed (passed + 1) (expect symbol) (expect symbol) := by
  intro cursor
  unfold expect
  rw [runAt_isAt_bind]
  split
  · next found => exact obeysAt_discard_advance (by simpa using found)
  · exact .fail _

theorem obeys_expectEnd : Obeys frame passed passed expectEnd expectEnd := by
  intro cursor
  unfold expectEnd
  rw [runAt_currentKind_bind]
  split
  · exact obeys_discard_advance cursor
  · exact .fail _

/-! ### Checks -/

theorem runAt_require_bind {condition : Cursor → Bool} {next : Unit → Parse Value}
    (holds : condition cursor = true) :
    runAt (supervisor.require condition >>= next) cursor = runAt (next ⟨⟩) cursor := by
  apply runAt_bind_of_ok
  unfold Supervisor.require
  rw [runAt_get_bind, if_pos holds]
  rfl

/-- The depth is what it should be before and behind whatever obeys. -/
theorem ObeysAt.watched {parser other : Parse Value}
    (obeys : ObeysAt frame cursor passed reached (runAt parser cursor) (runAt other cursor)) :
    ObeysAt frame cursor passed reached (runAt (supervisor.watched frame parser) cursor)
      (runAt other cursor) := by
  intro counts begun
  obtain ⟨same, advances⟩ := obeys counts begun
  refine ⟨?_, advances⟩
  unfold Supervisor.watched
  rw [runAt_require_bind (decide_eq_true counts)]
  rcases ran : runAt other cursor with ⟨error | value, middle⟩
  · rw [ran] at same
    rw [runAt_bind_of_error same]
  · rw [ran] at same advances
    rw [runAt_bind_of_ok same]
    cases advances with
    | value depth left =>
        rw [← depth] at counts
        rw [runAt_require_bind (decide_eq_true counts), runAt_pure]

theorem Obeys.watched {parser other : Parse Value}
    (obeys : Obeys frame passed reached parser other) :
    Obeys frame passed reached (supervisor.watched frame parser) other :=
  fun cursor => (obeys cursor).watched

/-- An iteration goes on with fewer tokens left than the last one had. -/
theorem obeysAt_iteration_bind {bound : Nat} {next : Nat → Parse Value} {other : Ending Value}
    (fewer : cursor.tokensLeft < bound)
    (rest : ObeysAt frame cursor passed reached (runAt (next cursor.tokensLeft) cursor) other) :
    ObeysAt frame cursor passed reached (runAt (supervisor.iteration frame bound >>= next) cursor)
      other := by
  intro counts begun
  have begins : runAt (supervisor.iteration frame bound) cursor =
      (.ok cursor.tokensLeft, cursor) := by
    unfold Supervisor.iteration
    rw [runAt_require_bind (decide_eq_true counts), runAt_require_bind (decide_eq_true fewer),
      runAt_get_bind, runAt_pure]
  rw [runAt_bind_of_ok begins]
  exact rest counts begun

/-! ### Levels -/

theorem runAt_deeper_congr {parser other : Parse Value}
    (same : runAt parser { cursor with depth := cursor.depth + 1 } =
      runAt other { cursor with depth := cursor.depth + 1 }) :
    runAt (deeper parser) cursor = runAt (deeper other) cursor := by
  unfold deeper
  rw [runAt_modify_bind, runAt_modify_bind, runAt_bind, runAt_bind, same]

section Enter

variable {checked : Frame → Parse Value} {plain : Parse Value}

/-- A level beyond the limit is refused. -/
theorem obeys_enter_of_none (none : frame.levels = 0) :
    Obeys frame 1 reached (supervisor.enter frame checked) (deeper (tooDeep frame.maximum)) := by
  intro cursor counts begun
  have fewer : cursor.tokensLeft < frame.left := begun
  have beyond : frame.maximum < cursor.depth + 1 := by
    rw [counts.counted]
    unfold Frame.levels at none
    omega
  constructor
  · unfold Supervisor.enter
    rw [runAt_require_bind (decide_eq_true counts), runAt_require_bind (decide_eq_true fewer)]
    apply runAt_deeper_congr
    rw [runAt_get_bind, if_pos beyond]
  · unfold deeper
    rw [runAt_modify_bind, runAt_bind_of_error (runAt_tooDeep _ _)]
    exact .error

/-- A level within the limit has a frame of its own, which ends with it. -/
theorem obeys_enter {levels : Nat} (some : frame.levels = levels + 1)
    (inside : ∀ left, left < frame.left →
      Obeys (frame.inside left) 0 0 (checked (frame.inside left)) plain) :
    Obeys frame 1 1 (supervisor.enter frame checked) (deeper plain) := by
  intro cursor counts begun
  have fewer : cursor.tokensLeft < frame.left := begun
  have within : cursor.depth + 1 ≤ frame.maximum := by
    rw [counts.counted]
    unfold Frame.levels at some
    omega
  have deeperCounts : (frame.inside cursor.tokensLeft).Counts (cursor.depth + 1) :=
    ⟨by rw [counts.counted]; rfl, Nat.le_trans within (Nat.le_max_left _ _)⟩
  obtain ⟨same, advances⟩ := (inside cursor.tokensLeft fewer).watched
    { cursor with depth := cursor.depth + 1 } deeperCounts (Nat.le_refl _)
  constructor
  · unfold Supervisor.enter
    rw [runAt_require_bind (decide_eq_true counts), runAt_require_bind (decide_eq_true fewer)]
    apply runAt_deeper_congr
    rw [runAt_get_bind, if_neg (Nat.not_lt.mpr within)]
    exact same
  · unfold deeper
    rw [runAt_modify_bind]
    rcases ran : runAt plain { cursor with depth := cursor.depth + 1 } with ⟨error | value, middle⟩
    · rw [runAt_bind_of_error ran]
      exact .error
    · rw [ran] at advances
      rw [runAt_bind_of_ok ran, runAt_modify_bind, runAt_pure]
      cases advances with
      | value depth left =>
          refine .value ?_ (Nat.add_le_add_right left 1)
          rw [depth, Nat.add_sub_cancel]

end Enter

/-! ### Lists -/

section Lists

variable {parser other : Parse Value}

theorem obeysAt_commaSeparated (items : Obeys frame 1 1 parser other) {more fuel bound : Nat}
    (enough : cursor.tokensLeft ≤ more) (fueled : cursor.tokensLeft < fuel)
    (fewer : cursor.tokensLeft < bound) :
    ObeysAt frame cursor 1 1 (runAt (supervisor.commaSeparated frame parser fuel bound) cursor)
      (runAt (commaSeparated other more) cursor) := by
  induction more generalizing cursor fuel bound with
  | zero =>
      obtain _ | fuel := fuel
      · exact absurd fueled (Nat.not_lt_zero _)
      · unfold Supervisor.commaSeparated commaSeparated
        refine obeysAt_iteration_bind fewer ?_
        refine (items cursor).bind fun first after _ left => ?_
        have ended := Cursor.kind_of_tokensLeft (show after.tokensLeft = 0 by omega)
        rw [runAt_isAt_bind, if_neg (by simp [ended])]
        exact .pure (Nat.le_refl _)
  | succ more ih =>
      obtain _ | fuel := fuel
      · exact absurd fueled (Nat.not_lt_zero _)
      · unfold Supervisor.commaSeparated commaSeparated
        refine obeysAt_iteration_bind fewer ?_
        refine (items cursor).bind fun first after _ left => ?_
        rw [runAt_isAt_bind, runAt_isAt_bind]
        split
        · next found =>
            have atComma : after.current.kind = .symbol .comma := by simpa using found
            refine (obeysAt_discard_advance atComma).bind fun _ behind _ leftBehind => ?_
            have others := @ih behind fuel cursor.tokensLeft (by omega) (by omega) (by omega)
            exact (others.weaken (Nat.le_succ 1) (by omega)).bind fun _ _ _ _ =>
              .pure (Nat.le_refl _)
        · exact .pure (Nat.le_refl _)

theorem obeys_listUntil (items : Obeys frame 1 1 parser other) (closing : Symbol) :
    Obeys frame 1 1 (supervisor.listUntil frame closing parser) (listUntil closing other) := by
  refine Obeys.watched fun cursor => ?_
  unfold listUntil
  rw [runAt_isAt_bind, runAt_isAt_bind]
  split
  · exact (obeys_discard_advance.bind fun _ => obeys_pure (Nat.le_refl _)) cursor
  · rw [runAt_get_bind, runAt_get_bind]
    have enough := cursor.tokensLeft_le_remaining
    refine ObeysAt.bind (obeysAt_commaSeparated items enough (Nat.lt_succ_self _)
      (Nat.lt_succ_self _)) fun values after _ _ => ?_
    have ends : Obeys frame 1 1 (expect closing >>= fun _ => pure values)
        (expect closing >>= fun _ => pure values) :=
      (obeys_expect closing).bind fun _ => obeys_pure (Nat.le_succ 1)
    exact ends after

end Lists

end Parse

end TemplatedJson
