import TemplatedJson.Proofs.Document.Recognition
import TemplatedJson.Proofs.Node.Inherited
import TemplatedJson.Proofs.Session.Answers
import TemplatedJson.Proofs.Session.Buffer

/-!
# What sessions keep, whatever fails

A failed request leaves the cursor where it stopped, and the next request goes on
from there.  Still no token is lost or handed out twice, a success restores the
depth and a failure never lowers it, and every tree of an answer fits under the
limit.
-/

namespace TemplatedJson

open Parse

/-- How deep a tree nests: its containers and the height of its expressions. -/
def Tree.nesting : Tree → Nat
  | .expression single => single.height
  | .value node => node.nesting
  | .document whole => whole.nesting

variable {maximum : Nat} {cursor after : Cursor}

/-! ### Trees of answers -/

theorem height_le_of_expression {tree : Expr}
    (run : runAt (Parse.expression ⟨maximum, 0⟩) cursor = (.ok tree, after)) :
    tree.height ≤ maximum := by
  unfold Parse.expression at run
  rw [runAt_get_bind] at run
  obtain ⟨measured, inside, rfl⟩ := runAt_bind_pure_eq_ok.mp run
  have fits := ensures_expressionWithin (by simp) inside
  unfold Within at fits
  rw [measured.height_eq]
  simpa using fits

/-- Wherever a request begins, its tree fits under the limit. -/
theorem Request.nesting_le_of_run (request : Request) {tree : Tree}
    (run : runAt (request.parser maximum) cursor = (.ok tree, after)) :
    tree.nesting ≤ maximum := by
  have values : ∀ {node after}, runAt (completeValue maximum) cursor = (.ok node, after) →
      node.nesting ≤ maximum := by
    intro node after read
    exact Nat.le_trans ((Node.inherited_nesting maximum).completeValue read) (Nat.sub_le _ _)
  have holds := request.holds_of_run height_le_of_expression values run
  match tree, holds with
  | .expression _, low => exact low
  | .value _, low => exact low
  | .document (.expression _), low => exact low
  | .document (.json _), low => exact low

/-! ### Sessions -/

/-- Whatever requests are sent to a cursor at the beginning of a text, and whatever
fails on the way, three things hold.

Every request follows a script, and following any scripts of the requests with a buffer
of one token gives the same answers.  The tokens that the lexer has answered since the
beginning are those handed out, then the current one, then the one kept behind it, if any.

A next request restores the depth if it succeeds, and never lowers it.  No container
around the text counts: the base of the limits of every request is zero.

Every tree of an answer fits under the limit. -/
theorem session_keeps_invariants (text : String) (maximum : Nat) (start : Cursor)
    (located : Cursor.ofText text 0 = .ok start) :
    (∀ request, ∃ script : Script Tree, script.parser = Request.parser maximum request) ∧
    (∃ first, Buffer.ofText text = .ok first ∧ ∀ script : Request → Script Tree,
      (∀ request, (script request).parser = request.parser maximum) →
        ∀ requests answers last, Buffer.playAll script requests first = (answers, last) →
          Request.answerAll maximum requests start = (answers, last.cursor) ∧
          last.answered = (Lexer.ofText text).answers last.answered.length ∧
          last.answered.filterMap Except.toOption =
            last.passed ++ last.current :: last.ahead.toList) ∧
    ∀ requests answers cursor,
      Request.answerAll maximum requests start = (answers, cursor) →
        (∀ request result after, runAt (Request.parser maximum request) cursor = (result, after) →
          cursor.depth ≤ after.depth ∧ ∀ tree, result = .ok tree → after.depth = cursor.depth) ∧
        ∀ tree, .ok tree ∈ answers → tree.nesting ≤ maximum := by
  refine ⟨Script.exists_parser_eq maximum, ?_, ?_⟩
  · obtain ⟨first, read, rfl, sound⟩ := Buffer.sound_of_ofText located
    refine ⟨first, read, ?_⟩
    intro script follows requests answers last played
    obtain ⟨same, soundLast⟩ := sound.playAll follows requests
    rw [played] at same soundLast
    exact ⟨same, soundLast.answered_eq, soundLast.tokens_eq⟩
  · intro requests answers cursor answered
    constructor
    · intro request result after run
      have governs : Motion.anywhere.Governs (request.parser maximum) :=
        Motion.anywhere.family.request maximum request
      exact (governs run).2
    · intro tree member
      have among : .ok tree ∈ (Request.answerAll maximum requests start).1 := by
        rw [answered]
        exact member
      obtain ⟨request, middle, after, -, run⟩ :=
        Request.exists_run_of_mem Motion.anywhere among
      exact request.nesting_le_of_run run

/-- The lexer meets an escape that is none, a value cannot be read there either, and
still the expression behind it is. -/
theorem session_goes_on : ∃ start, Cursor.ofText "[ \"\\q b" 0 = .ok start ∧
    (Request.answerAll 3 [.value, .value, .expression] start).1.map Except.toOption =
      [none, none, some (.expression (.identifier "q"))] ∧
    (Tree.expression (.identifier "q")).nesting ≤ 3 := by
  have first : (Cursor.ofText "[ \"\\q b" 0).toOption.isSome := by decide +kernel
  obtain ⟨start, found⟩ := Option.isSome_iff_exists.mp first
  have located := eq_ok_of_toOption found
  have session : (runSession "[ \"\\q b" 3 [.value, .value, .expression]).toOption.map
      (List.map Except.toOption) = some [none, none, some (.expression (.identifier "q"))] := by
    decide +kernel
  unfold runSession at session
  rw [located] at session
  have answers := Option.some.inj session
  refine ⟨start, located, answers, ?_⟩
  have among : some (Tree.expression (.identifier "q")) ∈
      (Request.answerAll 3 [.value, .value, .expression] start).1.map Except.toOption := by
    rw [answers]
    simp
  obtain ⟨answer, member, isTree⟩ := List.mem_map.mp among
  rw [eq_ok_of_toOption isTree] at member
  have fits := (session_keeps_invariants _ 3 start located).2.2 [.value, .value, .expression] _ _ rfl
  exact fits.2 _ member

end TemplatedJson
