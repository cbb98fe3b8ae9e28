import TemplatedJson.Command.Basic
import TemplatedJson.Proofs.Document.Printing
import TemplatedJson.Proofs.Expr.WellFormed

/-!
# The two modes of reading

A text is read as a document or as a bare expression.  The first token tells whether the two
modes differ.  If it opens a container, then the text can only be a JSON document, and no
bare expression.  Otherwise both modes read the same expression, or both fail with the same
error.  The texts that are printed for a tree begin accordingly, so what was printed for one
kind of document is never read as the other kind.
-/

namespace TemplatedJson

open Parse

variable {text : String} {options : ParseOptions} {cursor : Cursor} {document : Document}
  {tree : Expr}

/-- Whether the first token of a text is a bracket that opens an object or an array. -/
def OpensContainer (text : String) : Prop :=
  ∃ token, (Lexer.ofText text).next.1 = .ok token ∧ JsonText.Opens token.kind

theorem opensContainer_iff (located : Cursor.ofText text 0 = .ok cursor) :
    OpensContainer text ↔ JsonText.Opens cursor.current.kind := by
  have stands : cursor.StandsAt (Lexer.ofText text) := (Cursor.ofText_eq_ok_iff.mp located).1
  obtain ⟨middle, read⟩ := stands.next
  constructor
  · rintro ⟨token, answered, opens⟩
    rw [read] at answered
    rwa [Except.ok.inj answered]
  · intro opens
    exact ⟨cursor.current, by rw [read], opens⟩

/-- The text of a document opens a container exactly if the document is one. -/
theorem Document.Spells.opensContainer_iff (spells : document.Spells text) :
    OpensContainer text ↔ ∃ node, document = .json node := by
  obtain ⟨cursor, located, kind⟩ := spells.exists_ofText
  exact (TemplatedJson.opensContainer_iff located).trans kind

theorem opensContainer_of_append {symbol : Symbol} (opens : JsonText.Opens (.symbol symbol))
    (rest : String) : OpensContainer (symbol.text ++ rest) := by
  have ends : Scan.EndsBefore (.symbol symbol) rest.toList := by
    rcases opens with kind | kind <;> cases kind <;> trivial
  have split : (Lexer.ofText (symbol.text ++ rest)).rest =
      [] ++ (symbol.text.toList ++ rest.toList) := by
    simp [Lexer.ofText]
  have read := Lexer.next_of_written split blanks_nil (.symbol symbol) ends
  exact ⟨_, congrArg Prod.fst read, opens⟩

/-- The printed texts of objects and arrays open a container, whatever is inside. -/
theorem Node.IsContainer.opensContainer {node : Node} (isContainer : node.IsContainer) :
    ∀ printed ∈ [node.source, node.indentedSource 0], OpensContainer printed := by
  have brace := @opensContainer_of_append .leftBrace (.inl rfl)
  have bracket := @opensContainer_of_append .leftBracket (.inr rfl)
  intro printed member
  simp only [List.mem_cons, List.not_mem_nil, or_false] at member
  cases node with
  | object members =>
      rcases member with rfl | rfl
      · rw [Node.source, String.append_assoc]
        exact brace _
      · cases members with
        | nil => exact brace "\x7d"
        | cons first rest =>
            simp only [Node.indentedSource, Layout.block, String.append_assoc]
            exact brace _
  | array elements =>
      rcases member with rfl | rfl
      · rw [Node.source, String.append_assoc]
        exact bracket _
      · cases elements with
        | nil => exact bracket "]"
        | cons first rest =>
            simp only [Node.indentedSource, Layout.block, String.append_assoc]
            exact bracket _
  | literal leaf => exact isContainer.elim
  | template tree => exact isContainer.elim

/-! ### Both parsers -/

/-- A text that opens no container is read as an expression in both ways. -/
theorem parseDocument_of_not_opensContainer (notOpens : ¬ OpensContainer text) :
    parseDocument text options =
      .ofExcept ((Expr.parseInside options.maxDepth 0 text).map .expression) := by
  cases located : Cursor.ofText text 0 with
  | ok cursor =>
      exact parseDocument_of_not_opens located (mt (opensContainer_iff located).mpr notOpens)
  | error error =>
      unfold parseDocument observeDocument observe Expr.parseInside
      rw [located]
      rfl

theorem parseDocument_eq_expression_iff (notOpens : ¬ OpensContainer text) (tree : Expr) :
    parseDocument text options = .ofExcept (.ok (.expression tree)) ↔
      parseExpression text options = .ofExcept (.ok tree) := by
  rw [parseDocument_of_not_opensContainer notOpens, parseExpression_eq_parseInside,
    Outcome.ofExcept_inj, Outcome.ofExcept_inj]
  cases Expr.parseInside options.maxDepth 0 text <;> simp [Except.map]

/-- Where no container is opened, both parsers fail with the same error. -/
theorem read_or_same_error (notOpens : ¬ OpensContainer text) :
    (∃ tree, parseExpression text options = .ofExcept (.ok tree)) ∨
      ∃ error, parseExpression text options = .ofExcept (.error error) ∧
        parseDocument text options = .ofExcept (.error error) := by
  rw [parseDocument_of_not_opensContainer notOpens, parseExpression_eq_parseInside]
  cases Expr.parseInside options.maxDepth 0 text with
  | ok tree => exact .inl ⟨tree, rfl⟩
  | error error => exact .inr ⟨error, rfl, rfl⟩

/-- A text that opens a container is read as no expression in either way. -/
theorem parseDocument_ne_expression (opens : OpensContainer text) (tree : Expr) :
    parseDocument text options ≠ .ofExcept (.ok (.expression tree)) := by
  intro parsed
  obtain ⟨node, same⟩ := (parseDocument_eq_ok_iff.mp parsed).1.opensContainer_iff.mp opens
  cases same

theorem not_parseExpression_of_opensContainer (opens : OpensContainer text) :
    ∃ error, parseExpression text options = .ofExcept (.error error) := by
  rw [parseExpression_eq_parseInside]
  cases parsed : Expr.parseInside options.maxDepth 0 text with
  | error error => exact ⟨error, rfl⟩
  | ok tree =>
      have spells : (Document.expression tree).Spells text :=
        (Expr.parseInside_eq_ok_iff.mp parsed).1
      obtain ⟨node, same⟩ := spells.opensContainer_iff.mp opens
      cases same

/-- Both printed texts of a document that was read are texts of it. -/
theorem Document.Spells.printed (spells : document.Spells text) :
    ∀ printed ∈ [document.source, document.indentedSource], document.Spells printed := by
  intro printed member
  simp only [List.mem_cons, List.not_mem_nil, or_false] at member
  rcases member with rfl | rfl
  · exact spells.source
  · exact spells.indentedSource

/-- A printed document is read as itself, if the limit allows it to be read at all. -/
theorem Document.Spells.eq_of_parse {other : Document} (spells : document.Spells text)
    (parsed : parseDocument text options = .ofExcept (.ok other)) : other = document :=
  (parseDocument_eq_ok_iff.mp parsed).1.unique spells

/-! ### The commands -/

namespace Command

variable {settings : Settings} {error : ParseError}

theorem answers_of_ok {whole : Tree} (read : settings.observed.result = .ok whole) :
    check settings = .ok () ∧ format settings = .ok (whole.source settings.pretty) ∧
      (parse settings).success = true := by
  have given : settings.outcome.toExcept = .ok whole := settings.toExcept_outcome.trans read
  refine ⟨?_, ?_, ?_⟩
  · simp only [check, given]
  · simp only [format, given]
  · simp only [parse, Settings.outcome, read, Outcome.ofExcept]

/-- A text that is refused is refused by all commands, for the same reason. -/
theorem answers_of_error (failed : settings.observed.result = .error error) :
    check settings = .error (.parse error) ∧ format settings = .error (.parse error) ∧
      parse settings = ⟨jsonText settings.pretty (.object [⟨"success", .boolean false⟩,
        ⟨"error", error.toJson⟩]), false⟩ := by
  have given : settings.outcome.toExcept = .error error := settings.toExcept_outcome.trans failed
  refine ⟨?_, ?_, ?_⟩
  · simp only [check, given]
  · simp only [format, given]
  · simp [parse, Settings.outcome, failed, Outcome.ofExcept, Outcome.toJson]

/-- Whether the commands answer alike under two settings.  They accept or refuse both texts,
they print the same text, and they fail with the same error. -/
structure AnswerAlike (settings others : Settings) : Prop where
  check : check settings = check others
  format : format settings = format others
  success : (parse settings).success = (parse others).success
  failure : (parse others).success = false → parse settings = parse others

/-- Whether all commands refuse a text. -/
def Refuse (settings : Settings) : Prop :=
  ∃ error, check settings = .error (.parse error) ∧ format settings = .error (.parse error) ∧
    (parse settings).success = false

theorem refuse_of_error (failed : settings.observed.result = .error error) : Refuse settings := by
  obtain ⟨checked, formatted, parsed⟩ := answers_of_error failed
  exact ⟨error, checked, formatted, by rw [parsed]⟩

theorem observed_document (text : String) (pretty : Bool) (options : ParseOptions) :
    (Settings.mk text .document pretty options).observed.result =
      (parseDocument text options).toExcept.map .document := by
  unfold parseDocument
  rw [Outcome.toExcept_ofExcept]
  rfl

theorem observed_expression (text : String) (pretty : Bool) (options : ParseOptions) :
    (Settings.mk text .expression pretty options).observed.result =
      (Expr.parseInside options.maxDepth 0 text).map .expression := by
  have parsed := parseExpression_eq_parseInside text options
  unfold parseExpression at parsed
  rw [← Outcome.ofExcept_inj.mp parsed]
  rfl

/-- Where no container is opened, the mode does not matter to the commands. -/
theorem answerAlike_of_not_opensContainer (notOpens : ¬ OpensContainer text) (pretty : Bool)
    (options : ParseOptions) :
    AnswerAlike ⟨text, .document, pretty, options⟩ ⟨text, .expression, pretty, options⟩ := by
  have document := observed_document text pretty options
  have expression := observed_expression text pretty options
  rw [parseDocument_of_not_opensContainer notOpens, Outcome.toExcept_ofExcept] at document
  cases parsed : Expr.parseInside options.maxDepth 0 text with
  | error error =>
      rw [parsed] at document expression
      obtain ⟨checked, formatted, shown⟩ := answers_of_error document
      obtain ⟨checkedAgain, formattedAgain, shownAgain⟩ := answers_of_error expression
      have same := shown.trans shownAgain.symm
      exact ⟨checked.trans checkedAgain.symm, formatted.trans formattedAgain.symm,
        congrArg Shown.success same, fun _ => same⟩
  | ok tree =>
      rw [parsed] at document expression
      obtain ⟨checked, formatted, succeeds⟩ := answers_of_ok document
      obtain ⟨checkedAgain, formattedAgain, succeedsAgain⟩ := answers_of_ok expression
      refine ⟨checked.trans checkedAgain.symm, formatted.trans ?_,
        succeeds.trans succeedsAgain.symm, fun failed => ?_⟩
      · rw [formattedAgain]
        cases pretty <;> rfl
      · rw [succeedsAgain] at failed
        cases failed

theorem refuse_of_opensContainer (opens : OpensContainer text) (pretty : Bool)
    (options : ParseOptions) : Refuse ⟨text, .expression, pretty, options⟩ := by
  obtain ⟨error, failed⟩ := @not_parseExpression_of_opensContainer text options opens
  rw [parseExpression_eq_parseInside, Outcome.ofExcept_inj] at failed
  apply refuse_of_error
  rw [observed_expression, failed]
  rfl

end Command

/-- The two modes agree.  A text whose first token opens no container is read as the same
expression in both, or fails with the same error in both, and all commands answer alike.  A
text whose first token opens one is no bare expression, and if it is read as a document then
as JSON, with a container at its root.  So what is printed for one kind of document is never
read as the other kind.  Whatever was read is printed to texts that are read as nothing else,
a well-formed expression is printed to a text that is read as no JSON, and an object or array
to texts that are read as no expression. -/
theorem modes_agree (text : String) (options : ParseOptions) (pretty : Bool) :
    (¬ OpensContainer text →
      (∀ tree, parseDocument text options = .ofExcept (.ok (.expression tree)) ↔
        parseExpression text options = .ofExcept (.ok tree)) ∧
      ((∃ tree, parseExpression text options = .ofExcept (.ok tree)) ∨
        ∃ error, parseExpression text options = .ofExcept (.error error) ∧
          parseDocument text options = .ofExcept (.error error)) ∧
      Command.AnswerAlike ⟨text, .document, pretty, options⟩
        ⟨text, .expression, pretty, options⟩) ∧
    (OpensContainer text →
      (∀ tree, parseDocument text options ≠ .ofExcept (.ok (.expression tree))) ∧
      (∃ error, parseExpression text options = .ofExcept (.error error)) ∧
      Command.Refuse ⟨text, .expression, pretty, options⟩) ∧
    (∀ node, parseDocument text options = .ofExcept (.ok (.json node)) → node.IsContainer) ∧
    (∀ document, parseDocument text options = .ofExcept (.ok document) →
      ∀ printed ∈ [document.source, document.indentedSource],
        (OpensContainer printed ↔ ∃ node, document = .json node) ∧
          ∀ limit other, parseDocument printed ⟨limit⟩ = .ofExcept (.ok other) →
            other = document) ∧
    (∀ tree : Expr, tree.WellFormed → ∀ limit node,
      parseDocument tree.source ⟨limit⟩ ≠ .ofExcept (.ok (.json node))) ∧
    ∀ node : Node, node.IsContainer → ∀ printed ∈ [node.source, node.indentedSource 0],
      ∀ limit tree, parseDocument printed ⟨limit⟩ ≠ .ofExcept (.ok (.expression tree)) := by
  refine ⟨fun notOpens => ⟨parseDocument_eq_expression_iff notOpens, read_or_same_error notOpens,
      Command.answerAlike_of_not_opensContainer notOpens pretty options⟩,
    fun opens => ⟨parseDocument_ne_expression opens, not_parseExpression_of_opensContainer opens,
      Command.refuse_of_opensContainer opens pretty options⟩,
    fun node parsed => ?_, fun document parsed printed member => ?_,
    fun tree wellFormed limit node parsed => ?_, fun node isContainer printed member limit => ?_⟩
  · have isText : JsonText.IsText text.toList node := (parseDocument_eq_ok_iff.mp parsed).1
    exact isText.1
  · have spells := (parseDocument_eq_ok_iff.mp parsed).1.printed printed member
    exact ⟨spells.opensContainer_iff, fun limit other read => spells.eq_of_parse read⟩
  · have spells : (Document.expression tree).Spells tree.source :=
      Expr.spells_source_iff.mpr wellFormed
    cases spells.eq_of_parse parsed
  · exact parseDocument_ne_expression (isContainer.opensContainer printed member)

/-- A negation is read alike in both modes.  An array is refused as an expression, and what is
printed for it opens a container again. -/
theorem modes_agree_on_negation_and_array :
    (¬ OpensContainer "!a" ∧
      parseDocument "!a" ⟨2⟩ = .ofExcept (.ok (.expression (.prefixed .not (.identifier "a")))) ∧
      Command.AnswerAlike ⟨"!a", .document, true, ⟨2⟩⟩ ⟨"!a", .expression, true, ⟨2⟩⟩) ∧
    OpensContainer "[0 ]" ∧ Command.Refuse ⟨"[0 ]", .expression, true, ⟨2⟩⟩ ∧
      OpensContainer "[0]" := by
  have negation := modes_agree "!a" ⟨2⟩ true
  have array := modes_agree "[0 ]" ⟨2⟩ true
  have notOpens : ¬ OpensContainer "!a" := by
    rintro ⟨token, read, opens⟩
    have known : (Lexer.ofText "!a").next.1 = .ok ⟨.symbol .exclamation, "!", 0⟩ := rfl
    rw [known] at read
    obtain rfl := Except.ok.inj read
    rcases opens with kind | kind <;> cases kind
  have opens : OpensContainer "[0 ]" := ⟨⟨.symbol .leftBracket, "[", 0⟩, rfl, .inr rfl⟩
  have tree : parseExpression "!a" ⟨2⟩ = .ofExcept (.ok (.prefixed .not (.identifier "a"))) := by
    decide +kernel
  have parsed : parseDocument "[0 ]" ⟨2⟩ =
      .ofExcept (.ok (.json (.array [.literal ⟨.number (.integer 0), "0"⟩]))) := by
    decide +kernel
  obtain ⟨sameTree, -, alike⟩ := negation.1 notOpens
  refine ⟨⟨notOpens, (sameTree _).mpr tree, alike⟩, opens, (array.2.1 opens).2.2, ?_⟩
  exact (array.2.2.2.1 _ parsed "[0]" (.head _)).1.mpr ⟨_, rfl⟩

end TemplatedJson
