import TemplatedJson.Proofs.Document.Recognition
import TemplatedJson.Proofs.Expr.Inside
import TemplatedJson.Proofs.Node.Visits
import TemplatedJson.Proofs.Template.Detection
import TemplatedJson.Proofs.Template.Place

/-!
# Expressions in documents

What a string of a document holds is read as if it stood alone, under what the
containers around it leave of the limit.  If that succeeds, the string is a template
of the expression.  If it fails, the whole document fails with the same error, at the
place of the document that the error concerns.
-/

namespace TemplatedJson

open Parse

/-- Reads a text as a JSON value. -/
def Node.ofText (maximum : Nat) (text : String) : Except ParseError Node := do
  let cursor ← Cursor.ofText text 0
  (runAt (completeValue maximum) cursor).1

/-- Whether the value at a cursor is the given one, and is so in the whole value that
a text stands for, at the given path. -/
def Node.IsAt (maximum : Nat) (text : String) (path : List Nat) (target : Cursor) (node : Node) :
    Prop :=
  (runAt (valueWithin maximum (maximum - path.length)) target).1 = .ok node ∧
    ∀ whole, Node.ofText maximum text = .ok whole → whole.at? path = some node

variable {maximum : Nat} {text content : String} {options : ParseOptions} {start target : Cursor}
  {path : List Nat}

/-! ### Reading a text as a value -/

theorem Node.ofText_of_ofText (located : Cursor.ofText text 0 = .ok start) :
    Node.ofText maximum text = (runAt (completeValue maximum) start).1 := by
  unfold Node.ofText
  rw [located]
  rfl

/-- A session that asks for a value gets what its text gives. -/
theorem runSession_value (located : Cursor.ofText text 0 = .ok start) :
    runSession text maximum [.value] = .ok [(Node.ofText maximum text).map .value] := by
  have answered : (runAt (Request.value.parser maximum) start).1 =
      (Node.ofText maximum text).map Tree.value := by
    rw [Node.ofText_of_ofText located, ← runAt_bind_pure_fst, ← map_eq_pure_bind]
    rfl
  unfold runSession
  rw [located, ← answered]
  rfl

/-- A document in which the parser comes to a value inside of a container is read as a
JSON value. -/
theorem parseDocument_of_visits {levels : Nat} (located : Cursor.ofText text 0 = .ok start)
    (visits : Visits options.maxDepth levels start path target) (inside : path ≠ []) :
    parseDocument text options = .ofExcept ((Node.ofText options.maxDepth text).map .json) := by
  have opens : JsonText.Opens start.current.kind := by
    cases visits with
    | here => exact absurd rfl inside
    | element kind => exact .inr kind
    | member kind => exact .inl kind
  rw [parseDocument_of_opens located opens, Node.ofText_of_ofText located]

/-! ### Values inside of a text -/

section Inside

variable (located : Cursor.ofText text 0 = .ok start)
  (visits : Visits maximum maximum start path target)

include located visits

theorem carries_ofText :
    Carries (fun whole part => whole.at? path = some part) (runAt (completeValue maximum) start)
      (runAt (valueWithin maximum (maximum - path.length)) target) := by
  have surface : start.depth = 0 := (Cursor.ofText_eq_ok_iff.mp located).2.1
  have carries := @Visits.carries_completeValue maximum start target path
  rw [surface] at carries
  exact carries visits

/-- The text gives no value if there is none at the path. -/
theorem ofText_of_error {error : ParseError}
    (failed : (runAt (valueWithin maximum (maximum - path.length)) target).1 = .error error) :
    Node.ofText maximum text = .error error := by
  rw [Node.ofText_of_ofText located]
  rw [(carries_ofText located visits).1 error _ (Prod.ext failed rfl)]

theorem isAt_of_ok {node : Node}
    (read : (runAt (valueWithin maximum (maximum - path.length)) target).1 = .ok node) :
    Node.IsAt maximum text path target node := by
  refine ⟨read, ?_⟩
  intro whole given
  rw [Node.ofText_of_ofText located] at given
  obtain ⟨part, stopped, readPart, held⟩ :=
    (carries_ofText located visits).2 whole _ (Prod.ext given rfl)
  rw [readPart] at read
  obtain rfl := Except.ok.inj read
  exact held

/-- Every token that the parser comes to stands in the text. -/
theorem standsIn_of_visits : target.current.StandsIn text.toList := by
  have sees := (visits.leads (.sees _)).1 (Cursor.sees_of_ofText located)
  exact sees.1

theorem depth_of_visits : target.depth = path.length ∧ path.length ≤ maximum := by
  have surface : start.depth = 0 := (Cursor.ofText_eq_ok_iff.mp located).2.1
  obtain ⟨-, depth, low⟩ := visits.leads .anywhere
  rw [surface, Nat.zero_add] at depth
  exact ⟨depth, low⟩

end Inside

/-! ### Templates -/

/-- What a string of a document holds composes with the document.  Here the parser
comes to a string in double quotes, in as many containers as its path is long.

The document fails with an error of the lexer if that is what follows the string.
Otherwise a string that holds no expression is a literal, and one that holds an
expression is a template of what the expression is read as, alone and under what the
containers leave of the limit.

If the expression cannot be read, the document fails with the same error under its own
limit, at a place behind the opening quote and no later than the closing one.  There
begins the spelling of the character in which the expression fails.  If it fails at
its end, this is the character behind the expression: the first closing brace of a
block, or else the closing quote. -/
theorem embedded_expressions_compose (text : String) (options : ParseOptions)
    {start target : Cursor} {path : List Nat} {content : String}
    (located : Cursor.ofText text 0 = .ok start)
    (visits : Visits options.maxDepth options.maxDepth start path target)
    (quoted : target.current.kind = .string content .double) :
    runSession text options.maxDepth [.value] =
        .ok [(Node.ofText options.maxDepth text).map .value] ∧
      (path ≠ [] →
        parseDocument text options = .ofExcept ((Node.ofText options.maxDepth text).map .json)) ∧
      (∀ error, target.upcoming.next.1 = .error error →
        Node.ofText options.maxDepth text = .error error) ∧
      ∀ next, target.upcoming.next.1 = .ok next →
        (Template.detect? content = none →
          Node.IsAt options.maxDepth text path target
            (.literal ⟨.string content, target.current.raw⟩)) ∧
        ∀ embedded, Template.detect? content = some embedded →
          path.length ≤ options.maxDepth ∧
          (∀ tree,
            parseExpression embedded.source ⟨options.maxDepth - path.length⟩ =
                .ofExcept (.ok tree) →
              Node.IsAt options.maxDepth text path target (.template tree)) ∧
          ∀ error,
            parseExpression embedded.source ⟨options.maxDepth - path.length⟩ =
                .ofExcept (.error error) →
              ∃ place rest,
                Node.ofText options.maxDepth text =
                  .error ⟨(error.underLimit options.maxDepth).cause, place⟩ ∧
                place = target.current.offset +
                  Template.rawIndex target.current.raw (embedded.start + error.offset) ∧
                target.current.offset < place ∧ place < target.current.stop ∧
                Template.SpelledAt text.toList target.current content
                  (embedded.start + error.offset) place ∧
                error.offset ≤ embedded.source.length ∧
                content.toList.drop (embedded.start + error.offset) =
                  embedded.source.toList.drop error.offset ++ rest ∧
                embedded.form.Closes rest := by
  obtain ⟨depth, low⟩ := depth_of_visits located visits
  refine ⟨runSession_value located, parseDocument_of_visits located visits, ?_, ?_⟩
  · intro error lost
    apply ofText_of_error located visits
    rw [runAt_valueWithin_of_lost quoted (Prod.ext lost rfl)]
  intro next answered
  obtain ⟨after, known⟩ : ∃ after, target.following? = some after := by
    let after : Cursor := { target with current := next, upcoming := target.upcoming.next.2 }
    have stands : after.StandsIn target.upcoming := Prod.ext answered rfl
    exact ⟨after, Cursor.following?_eq_some_iff.mpr ⟨stands, rfl, rfl⟩⟩
  have sameDepth := (Cursor.following?_frame known).1.trans depth
  have reads := @runAt_valueWithin_of_string options.maxDepth (options.maxDepth - path.length)
    target after content quoted known
  constructor
  · intro plain
    apply isAt_of_ok located visits
    rw [reads, runAt_stringValue_of_none plain]
  intro embedded found
  have value := @runAt_stringValue_of_some options.maxDepth after content target.current embedded found
  rw [sameDepth, Expr.parseInside_eq _ low] at value
  refine ⟨low, ?_, ?_⟩
  · intro tree parsed
    rw [parseExpression_eq_parseInside, Outcome.ofExcept_inj] at parsed
    apply isAt_of_ok located visits
    rw [reads, value, parsed]
    rfl
  · intro error failed
    rw [parseExpression_eq_parseInside, Outcome.ofExcept_inj] at failed
    have inText := Expr.offset_le_of_parseInside failed
    obtain ⟨rest, blamed, closes, inContent⟩ := Template.exists_drop_of_detect? found inText
    have stands := standsIn_of_visits located visits
    have spelledAt := Template.spelledAt_rawIndex stands quoted inContent
    obtain ⟨behind, before⟩ := spelledAt.bounds
    refine ⟨_, rest, ?_, rfl, behind, before, spelledAt, inText, blamed, closes⟩
    apply ofText_of_error located visits
    rw [reads, value, failed, ← error.offset_underLimit options.maxDepth]
    rfl

/-- The equals sign of a template is spelled by an escape, and its expression fails at
its end, so the document fails at the closing quote. -/
theorem parseDocument_unfinished_template :
    (∃ start target, Cursor.ofText "[\"\\u003dx +\"]" 0 = .ok start ∧ Visits 3 3 start [0] target ∧
      target.current.kind = .string "=x +" .double) ∧
    parseDocument "[\"\\u003dx +\"]" ⟨3⟩ =
      .ofExcept (.error ⟨.unexpectedToken "expression" "end of input", 11⟩) := by
  let steps : Option (Cursor × Cursor) := do
    let start ← (Cursor.ofText "[\"\\u003dx +\"]" 0).toOption
    let first ← Cursor.following? { start with depth := start.depth + 1 }
    return (start, first)
  have read : steps.map (fun (start, first) =>
      (start.current.kind, first.current, first.upcoming.next.1.toOption)) =
        some (.symbol .leftBracket, ⟨.string "=x +" .double, "\"\\u003dx +\"", 1⟩,
          some ⟨.symbol .rightBracket, "]", 12⟩) := by
    decide +kernel
  obtain ⟨⟨start, target⟩, stepped, facts⟩ := Option.map_eq_some_iff.mp read
  obtain ⟨opens, current, next⟩ : start.current.kind = .symbol .leftBracket ∧
      target.current = ⟨.string "=x +" .double, "\"\\u003dx +\"", 1⟩ ∧
        target.upcoming.next.1.toOption = some ⟨.symbol .rightBracket, "]", 12⟩ := by
    simpa using facts
  obtain ⟨found, located, rest⟩ := Option.bind_eq_some_iff.mp stepped
  obtain ⟨first, known, same⟩ := Option.bind_eq_some_iff.mp rest
  obtain ⟨rfl, rfl⟩ := Prod.mk.inj (Option.some.inj same)
  have quoted : first.current.kind = .string "=x +" .double := by rw [current]
  have visits : Visits 3 3 found [0] first :=
    .element opens known (by simp [quoted]) (.first _) (.here 2 _)
  have composes := embedded_expressions_compose _ ⟨3⟩ (eq_ok_of_toOption located) visits quoted
  refine ⟨⟨found, first, eq_ok_of_toOption located, visits, quoted⟩, ?_⟩
  have failed : parseExpression "x +" ⟨2⟩ =
      .ofExcept (.error ⟨.unexpectedToken "expression" "end of input", 3⟩) := by
    decide +kernel
  obtain ⟨-, document, -, complete⟩ := composes
  obtain ⟨-, templates⟩ := complete _ (eq_ok_of_toOption next)
  obtain ⟨-, -, errors⟩ := templates ⟨.inline, "x +", 1⟩ (by decide)
  obtain ⟨place, rest, fails, rfl, -⟩ := errors _ failed
  rw [document (by simp), fails, current]
  decide +kernel

end TemplatedJson
