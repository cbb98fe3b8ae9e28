import TemplatedJson.Proofs.Supervision.Expression

/-!
# Values under supervision

A container stands behind the opening symbol of the one around it, and an expression in a
string has a text of its own.  So a supervisor of values has no reason to step in either.
-/

namespace TemplatedJson

theorem Frame.counts_outermost (maximum : Nat) (cursor : Cursor) :
    (Frame.outermost maximum cursor).Counts cursor.depth :=
  ⟨rfl, Nat.le_max_right _ _⟩

namespace Parse

variable {supervisor : Supervisor} {frame : Frame} {passed : Nat} {checked reader : Parse Node}

/-! ### Values without containers -/

theorem supervised_parseInside_eq (maximum depth : Nat) (text : String) :
    supervisor.parseInside maximum depth text = Expr.parseInside maximum depth text := by
  unfold Supervisor.parseInside Expr.parseInside
  cases located : Cursor.ofText text depth with
  | error error => rfl
  | ok cursor =>
      have obeys : Obeys (.outermost maximum cursor) 1 1
          (supervisor.completeExpression ⟨maximum, depth⟩ (.outermost maximum cursor))
          (completeExpression ⟨maximum, depth⟩) :=
        obeys_completeExpression _ rfl
      obtain ⟨same, -⟩ := obeys cursor (Frame.counts_outermost maximum cursor) (Nat.le_refl _)
      exact congrArg Prod.fst same

theorem obeys_jsonString : Obeys frame passed passed (supervisor.jsonString frame) jsonString := by
  refine Obeys.watched fun cursor => ?_
  unfold jsonString
  rw [runAt_get_bind]
  dsimp only
  cases cursor.current.kind with
  | string content quote =>
      cases quote with
      | double => exact (obeys_discard_advance.bind fun _ => obeys_pure (Nat.le_refl _)) cursor
      | single | back => exact .fail _
  | _ => exact .fail _

theorem obeys_jsonNumber (sign digits : String) (offset : Nat) :
    Obeys frame passed passed (jsonNumber sign digits offset) (jsonNumber sign digits offset) := by
  unfold jsonNumber
  split
  · split
    · exact obeys_throw _
    · exact obeys_pure (Nat.le_refl _)
  · exact obeys_throw _

theorem obeys_negativeNumber : Obeys frame passed passed negativeNumber negativeNumber := by
  refine obeys_advance_bind fun minus cursor => ?_
  rw [runAt_get_bind]
  dsimp only
  have digits : Obeys frame (passed + minus.worth) passed
      (discard advance >>= fun _ => jsonNumber minus.raw cursor.current.raw minus.offset)
      (discard advance >>= fun _ => jsonNumber minus.raw cursor.current.raw minus.offset) :=
    obeys_discard_advance.bind fun _ => (obeys_jsonNumber _ _ _).weaken (Nat.le_refl _) (by omega)
  exact Obeys.ite digits (obeys_unexpected _) cursor

theorem obeys_stringValue (content : String) (token : Token) :
    Obeys frame passed passed (supervisor.stringValue frame content token)
      (stringValue frame.maximum content token) := by
  apply Obeys.watched
  unfold stringValue
  cases Template.detect? content with
  | none => exact obeys_pure (Nat.le_refl _)
  | some embedded =>
      intro cursor counts begun
      dsimp only
      rw [runAt_modify_bind, runAt_modify_bind, runAt_get_bind, runAt_get_bind,
        supervised_parseInside_eq]
      cases Expr.parseInside frame.maximum cursor.depth embedded.source with
      | ok expr => exact ⟨rfl, .value rfl (Nat.le_refl _)⟩
      | error error => exact ⟨rfl, .error⟩

theorem obeys_value {objects arrays otherObjects otherArrays : Parse Node}
    (readsObjects : Obeys frame 1 1 objects otherObjects)
    (readsArrays : Obeys frame 1 1 arrays otherArrays) :
    Obeys frame 1 1 (supervisor.value frame objects arrays)
      (value frame.maximum otherObjects otherArrays) := by
  have word : ∀ node : Node, Obeys frame 1 1
      (discard advance >>= fun _ => pure node) (discard advance >>= fun _ => pure node) :=
    fun node => obeys_discard_advance.bind fun _ => obeys_pure (Nat.le_refl _)
  refine Obeys.watched fun cursor => ?_
  unfold value
  rw [runAt_get_bind, runAt_get_bind]
  dsimp only
  cases cursor.current.kind with
  | symbol symbol =>
      cases symbol with
      | leftBrace => exact readsObjects cursor
      | leftBracket => exact readsArrays cursor
      | minus => exact obeys_negativeNumber cursor
      | _ => exact .fail _
  | string content quote =>
      refine obeys_jsonString.bind (fun pair => ?_) cursor
      exact obeys_stringValue pair.1 pair.2
  | number => exact (obeys_discard_advance.bind fun _ => obeys_jsonNumber _ _ _) cursor
  | boolean value => exact word _ cursor
  | null => exact Obeys.ite (word _) (obeys_unexpected _) cursor
  | _ => exact .fail _

/-! ### Containers -/

theorem obeys_member (reads : Obeys frame 1 1 checked reader) :
    Obeys frame 1 1 (supervisor.member frame checked) (member reader) := by
  refine obeys_jsonString.bind fun pair => (obeys_expect .colon).bind fun _ => ?_
  exact (reads.weaken (Nat.le_succ 1) (Nat.le_succ _)).bind fun _ => obeys_pure (Nat.le_refl _)

/-- The values in a container stand behind its opening symbol. -/
theorem obeys_container {Item : Type} {items otherItems : Parse Item} (opening closing : Symbol)
    (wrap : List Item → Node) (reads : Obeys frame 1 1 items otherItems) :
    Obeys frame 0 0
      (expect opening >>= fun _ => supervisor.listUntil frame closing items >>=
        fun values => pure (wrap values))
      (expect opening >>= fun _ => listUntil closing otherItems >>=
        fun values => pure (wrap values)) :=
  (obeys_expect opening).bind fun _ => (obeys_listUntil reads closing).bind fun _ =>
    obeys_pure (Nat.zero_le _)

theorem obeys_valueWith {fuel : Nat} (fueled : frame.left ≤ fuel) :
    Obeys frame 1 1 (supervisor.valueWith fuel frame)
      (valueWithin frame.maximum frame.levels) := by
  induction fuel generalizing frame with
  | zero =>
      intro cursor _ begun
      omega
  | succ fuel ih =>
      cases known : frame.levels with
      | zero => exact obeys_value (obeys_enter_of_none known) (obeys_enter_of_none known)
      | succ levels =>
          have reads : ∀ left, left < frame.left →
              Obeys (frame.inside left) 1 1 (supervisor.valueWith fuel (frame.inside left))
                (valueWithin frame.maximum levels) := by
            intro left fewer
            rw [← Frame.levels_inside left known]
            exact ih (Nat.le_of_lt_succ (Nat.lt_of_lt_of_le fewer fueled))
          refine obeys_value (obeys_enter known fun left fewer => ?_)
            (obeys_enter known fun left fewer => ?_)
          · exact obeys_container .leftBrace .rightBrace Node.object
              (obeys_member (reads left fewer))
          · exact obeys_container .leftBracket .rightBracket Node.array (reads left fewer)

/-! ### Requests -/

theorem obeys_completeValue :
    Obeys frame 1 1 (supervisor.completeValue frame) (completeValue frame.maximum) := by
  refine Obeys.watched fun cursor counts begun => ?_
  have levels : frame.maximum - cursor.depth = frame.levels := by
    rw [counts.counted, Frame.levels]
  unfold completeValue
  rw [runAt_get_bind, levels]
  have reads : Obeys frame 1 1 (supervisor.valueWith frame.left frame)
      (valueWithin frame.maximum frame.levels) :=
    obeys_valueWith (Nat.le_refl _)
  exact (reads.bind fun node => obeys_expectEnd.bind fun _ => obeys_pure (Nat.le_refl _))
    cursor counts begun

theorem obeys_document :
    Obeys frame 1 1 (supervisor.document frame) (document frame.maximum) := by
  have values : Obeys frame 1 1
      (supervisor.completeValue frame >>= fun node => pure (Document.json node))
      (completeValue frame.maximum >>= fun node => pure (Document.json node)) :=
    obeys_completeValue.bind fun _ => obeys_pure (Nat.le_refl _)
  have expressions : Obeys frame 1 1
      (supervisor.completeExpression ⟨frame.maximum, 0⟩ frame >>=
        fun expr => pure (Document.expression expr))
      (completeExpression ⟨frame.maximum, 0⟩ >>= fun expr => pure (Document.expression expr)) :=
    (obeys_completeExpression _ rfl).bind fun _ => obeys_pure (Nat.le_refl _)
  refine Obeys.watched fun cursor => ?_
  unfold document
  rw [runAt_currentKind_bind, runAt_currentKind_bind]
  cases cursor.current.kind with
  | symbol symbol =>
      cases symbol with
      | leftBrace | leftBracket => exact values cursor
      | _ => exact expressions cursor
  | _ => exact expressions cursor

theorem obeys_request (request : Request) :
    Obeys frame 1 1 (supervisor.request frame request) (request.parser frame.maximum) := by
  cases request with
  | expression => exact (obeys_expression ⟨frame.maximum, 0⟩ rfl).map _
  | completeExpression => exact (obeys_completeExpression ⟨frame.maximum, 0⟩ rfl).map _
  | value => exact obeys_completeValue.map _
  | document => exact obeys_document.map _

end Parse

end TemplatedJson
