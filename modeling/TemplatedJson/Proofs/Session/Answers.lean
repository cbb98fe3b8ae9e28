import TemplatedJson.Proofs.Session.Family

/-!
# The answers of a session

Every request reads an expression or a JSON value.  So whatever is known of all
expressions and all values that are read is known of every tree of an answer, and
where a request begins is related to the beginning of the session, whatever failed
in between.
-/

namespace TemplatedJson

open Parse

/-- Whether the expression or the value of a tree has the property for its kind. -/
def Tree.Holds (ofExpression : Expr → Prop) (ofValue : Node → Prop) : Tree → Prop
  | .expression single => ofExpression single
  | .value node => ofValue node
  | .document (.expression single) => ofExpression single
  | .document (.json node) => ofValue node

namespace Request

variable {maximum : Nat} {cursor after : Cursor} {tree : Tree} {ofExpression : Expr → Prop}
  {ofValue : Node → Prop}

theorem holds_of_completeExpression {limits : Limits} {single : Expr}
    (expressions : ∀ {single after}, runAt (Parse.expression limits) cursor = (.ok single, after) →
      ofExpression single)
    (run : runAt (Parse.completeExpression limits) cursor = (.ok single, after)) :
    ofExpression single := by
  unfold Parse.completeExpression at run
  obtain ⟨found, middle, read, rest⟩ := runAt_bind_eq_ok.mp run
  obtain ⟨_, -, rfl⟩ := runAt_bind_pure_eq_ok.mp rest
  exact expressions read

/-- The tree of an answer is an expression or a value that was read. -/
theorem holds_of_run (request : Request)
    (expressions : ∀ {single after},
      runAt (Parse.expression ⟨maximum, 0⟩) cursor = (.ok single, after) → ofExpression single)
    (values : ∀ {node after}, runAt (Parse.completeValue maximum) cursor = (.ok node, after) →
      ofValue node)
    (run : runAt (request.parser maximum) cursor = (.ok tree, after)) :
    tree.Holds ofExpression ofValue := by
  cases request with
  | expression =>
      obtain ⟨single, read, rfl⟩ := runAt_map_eq_ok.mp run
      exact expressions read
  | completeExpression =>
      obtain ⟨single, read, rfl⟩ := runAt_map_eq_ok.mp run
      exact holds_of_completeExpression expressions read
  | value =>
      obtain ⟨node, read, rfl⟩ := runAt_map_eq_ok.mp run
      exact values read
  | document =>
      obtain ⟨whole, read, rfl⟩ := runAt_map_eq_ok.mp run
      unfold Parse.document at read
      rw [runAt_currentKind_bind] at read
      split at read
      · obtain ⟨node, inside, rfl⟩ := runAt_bind_pure_eq_ok.mp read
        exact values inside
      · obtain ⟨node, inside, rfl⟩ := runAt_bind_pure_eq_ok.mp read
        exact values inside
      · obtain ⟨single, inside, rfl⟩ := runAt_bind_pure_eq_ok.mp read
        exact holds_of_completeExpression expressions inside

/-- Every answer is what a request gives somewhere behind the beginning. -/
theorem exists_run_of_mem (motion : Motion) {requests : List Request}
    {answer : Except ParseError Tree} (member : answer ∈ (answerAll maximum requests cursor).1) :
    ∃ request middle after, motion.leads cursor middle ∧
      runAt (Request.parser maximum request) middle = (answer, after) := by
  induction requests generalizing cursor with
  | nil => cases member
  | cons request rest ih =>
      have governs : motion.Governs (request.parser maximum) := motion.family.request maximum request
      obtain ⟨leads, -, -⟩ := @governs cursor _ _ rfl
      rcases List.mem_cons.mp member with rfl | later
      · exact ⟨request, cursor, _, motion.refl cursor, rfl⟩
      · obtain ⟨found, middle, after, leadsOn, run⟩ := ih later
        exact ⟨found, middle, after, motion.trans leads leadsOn, run⟩

end Request

end TemplatedJson
