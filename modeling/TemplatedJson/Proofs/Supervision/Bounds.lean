import TemplatedJson.Proofs.Supervision.Value

/-!
# Parsing is bounded by the tokens that are left

Under supervision every session has the same answers and the same end as without.  So no
recursion and no loop runs out of fuel, however great the limit is and whatever failed
before, and no check fails.
-/

namespace TemplatedJson

open Parse

theorem supervised_answerAll_eq (supervisor : Supervisor) (maximum : Nat) (requests : List Request)
    (cursor : Cursor) :
    supervisor.answerAll maximum requests cursor = Request.answerAll maximum requests cursor := by
  induction requests generalizing cursor with
  | nil => rfl
  | cons request rest ih =>
      let frame := Frame.outermost maximum cursor
      have obeys : Obeys frame 1 1 (supervisor.request frame request) (request.parser maximum) :=
        obeys_request request
      obtain ⟨same, -⟩ := obeys cursor (Frame.counts_outermost maximum cursor) (Nat.le_refl _)
      simp only [Supervisor.answerAll, Request.answerAll]
      rw [show Frame.outermost maximum cursor = frame from rfl, same, ih]

/-- Every session is answered with fuel for one step of recursion and one iteration more
than there are tokens left.  An expression or a container inside of another one, and another
iteration of a loop, begins only behind a token that was passed meanwhile, and wherever a
part of the grammar is read, the depth counts what is being read.  A supervisor that checks
all of this, and may do anything where it does not hold, changes neither the answers nor the
end of a session.

At the beginning of a text there are no more tokens than characters.  The depth counts the
containers around the text, if any, and what is being read, and it is within the limit as
long as those around are.

A step takes the token that it passes from those that are left, unless the text ends there.
A step that meets an error stays at its token and takes none. -/
theorem parsing_bounded_by_tokens :
    (∀ (supervisor : Supervisor) (maximum : Nat) (requests : List Request) (start : Cursor),
      supervisor.answerAll maximum requests start = Request.answerAll maximum requests start) ∧
    (∀ (text : String) (base maximum : Nat) (start : Cursor),
      Cursor.ofText text base = .ok start →
        start.tokensLeft ≤ text.length ∧
          ∀ active left depth, (Frame.mk maximum start.depth active left).Counts depth →
            depth = base + active ∧ (base ≤ maximum → depth ≤ maximum)) ∧
    ∀ cursor : Cursor,
      (∀ token after, runAt advance cursor = (.ok token, after) →
        token = cursor.current ∧ after.tokensLeft + token.worth = cursor.tokensLeft) ∧
      ∀ error after, runAt advance cursor = (.error error, after) →
        after.current = cursor.current ∧ after.tokensLeft = cursor.tokensLeft := by
  refine ⟨supervised_answerAll_eq, ?_, fun cursor => ⟨?_, ?_⟩⟩
  · intro text base maximum start located
    obtain ⟨stands, surface, -⟩ := Cursor.ofText_eq_ok_iff.mp located
    have tokens := Cursor.StandsAt.tokensLeft_le stands
    refine ⟨String.length_toList ▸ tokens, ?_⟩
    rintro active left depth ⟨counted, within⟩
    rw [surface] at counted within
    exact ⟨counted, fun inside => by rwa [Nat.max_eq_left inside] at within⟩
  · intro token after ran
    obtain ⟨rfl, known⟩ := runAt_advance_eq_ok.mp ran
    exact ⟨rfl, Cursor.tokensLeft_of_following known⟩
  · intro error after ran
    rcases answered : cursor.upcoming.next with ⟨failure | token, upcoming⟩
    · rw [runAt_advance_of_error answered] at ran
      obtain ⟨-, rfl⟩ := Prod.mk.inj ran
      exact ⟨rfl, Cursor.tokensLeft_of_error answered⟩
    · rw [runAt_advance_of_ok answered] at ran
      cases ran

/-- With the greatest limit of a machine word a call is read up to the end of the text, where
another expression is missing.  Three expressions are being read where its inner parentheses
end.  An unfinished string behind a name cannot be passed, and so no token is taken. -/
theorem parsing_bounded_of_call :
    ∃ start token after, Cursor.ofText "f(a,(b))" 0 = .ok start ∧
      Supervisor.answerAll ⟨throw ⟨.unterminatedString, 0⟩⟩ (UInt64.size - 1)
          [.completeExpression, .expression] start =
        Request.answerAll (UInt64.size - 1) [.completeExpression, .expression] start ∧
      (Request.answerAll (UInt64.size - 1) [.completeExpression, .expression] start).1.map
        (fun answer => answer.toOption.isSome) = [true, false] ∧
      start.tokensLeft = 8 ∧ 8 ≤ "f(a,(b))".length ∧
      (Frame.mk (UInt64.size - 1) start.depth 3 4).Counts 3 ∧ 3 ≤ UInt64.size - 1 ∧
      runAt advance start = (.ok token, after) ∧ after.tokensLeft + token.worth = 8 ∧
      ∃ broken error behind, Cursor.ofText "a '" 0 = .ok broken ∧
        runAt advance broken = (.error error, behind) ∧ behind.current = broken.current ∧
        behind.tokensLeft = broken.tokensLeft := by
  have first : (Cursor.ofText "f(a,(b))" 0).toOption.isSome := by decide +kernel
  obtain ⟨start, found⟩ := Option.isSome_iff_exists.mp first
  have known : (Cursor.ofText "f(a,(b))" 0).toOption.map (fun cursor =>
      ((Request.answerAll (UInt64.size - 1) [.completeExpression, .expression] cursor).1.map
        (fun answer => answer.toOption.isSome), cursor.tokensLeft, cursor.depth,
        (runAt advance cursor).1.toOption.isSome)) = some ([true, false], 8, 0, true) := by
    decide +kernel
  rw [found] at known
  simp only [Option.map_some, Option.some.injEq, Prod.mk.injEq] at known
  obtain ⟨answers, tokens, depth, passes⟩ := known
  have located := eq_ok_of_toOption found
  rcases ran : runAt advance start with ⟨error | token, after⟩
  · rw [ran] at passes
    cases passes
  have second : (Cursor.ofText "a '" 0).toOption.isSome := by decide +kernel
  obtain ⟨broken, foundBroken⟩ := Option.isSome_iff_exists.mp second
  have stays : (Cursor.ofText "a '" 0).toOption.map (fun cursor =>
      (runAt advance cursor).1.toOption.isSome) = some false := by
    decide +kernel
  rw [foundBroken] at stays
  rcases failed : runAt advance broken with ⟨error | other, behind⟩
  · have counts : (Frame.mk (UInt64.size - 1) start.depth 3 4).Counts 3 := by
      rw [depth]
      decide +kernel
    obtain ⟨bounded, depths⟩ := parsing_bounded_by_tokens.2.1 _ _ (UInt64.size - 1) start located
    obtain ⟨taken, -⟩ := parsing_bounded_by_tokens.2.2 start
    obtain ⟨-, left⟩ := taken token after ran
    obtain ⟨-, kept⟩ := parsing_bounded_by_tokens.2.2 broken
    exact ⟨start, token, after, located, parsing_bounded_by_tokens.1 _ _ _ start, answers, tokens,
      tokens ▸ bounded, counts, (depths _ _ _ counts).2 (Nat.zero_le _), ran, left.trans tokens,
      broken, error, behind, eq_ok_of_toOption foundBroken, failed, kept error behind failed⟩
  · rw [Option.map_some, failed] at stays
    cases stays

end TemplatedJson
