import TemplatedJson.Proofs.Node.Recognition

/-!
# Texts that are documents

A text that begins with an opening bracket is read as JSON and any other text as
an expression.  No expression begins with an opening bracket, so the two kinds
of documents do not overlap.  The parser accepts exactly the texts of documents
that fit under the limit, and it refuses all deeper ones because of the limit.
-/

namespace TemplatedJson

open Parse

namespace Document

/-- How deep a document nests.  A bare expression counts as many levels as it
has. -/
def nesting : Document → Nat
  | json value => value.nesting
  | expression single => single.height

def Spells (text : String) : Document → Prop
  | json value => JsonText.IsText text.toList value
  | expression single => Expr.Spells text single

end Document

variable {text : String} {options : ParseOptions} {cursor : Cursor} {maximum : Nat}
  {document : Document}

/-! ### The two kinds of documents -/

/-- Converting what a parser yields converts the result of its run. -/
theorem Parse.runAt_bind_pure_fst {Value Image : Type} (parser : Parse Value)
    (convert : Value → Image) (cursor : Cursor) :
    (runAt (parser >>= fun value => pure (convert value)) cursor).1 =
      (runAt parser cursor).1.map convert := by
  rw [runAt_bind]
  rcases runAt parser cursor with ⟨error | value, middle⟩ <;> rfl

theorem exists_of_map_eq_ok {Value Image : Type} {convert : Value → Image} {image : Image}
    {result : Except ParseError Value} (converted : result.map convert = .ok image) :
    ∃ value, result = .ok value ∧ image = convert value := by
  cases result with
  | error error => cases converted
  | ok value => exact ⟨value, rfl, (Except.ok.inj converted).symm⟩

theorem runAt_document_of_opens (opens : JsonText.Opens cursor.current.kind) :
    (runAt (Parse.document maximum) cursor).1 =
      (runAt (completeValue maximum) cursor).1.map .json := by
  unfold Parse.document
  rw [runAt_currentKind_bind]
  rcases opens with kind | kind <;> rw [kind] <;> exact runAt_bind_pure_fst _ _ _

theorem runAt_document_of_not_opens (notOpens : ¬ JsonText.Opens cursor.current.kind) :
    (runAt (Parse.document maximum) cursor).1 =
      (runAt (completeExpression ⟨maximum, 0⟩) cursor).1.map .expression := by
  unfold Parse.document
  rw [runAt_currentKind_bind]
  split
  · next kind => exact absurd (.inl kind) notOpens
  · next kind => exact absurd (.inr kind) notOpens
  · exact runAt_bind_pure_fst _ _ _

theorem parseDocument_of_ofText (located : Cursor.ofText text 0 = .ok cursor) :
    parseDocument text options =
      .ofExcept (runAt (Parse.document options.maxDepth) cursor).1 := by
  unfold parseDocument observeDocument observe
  rw [located]

/-- A document that is read has a first token, and the parser reads it from there. -/
theorem exists_of_parseDocument (parsed : parseDocument text options = .ofExcept (.ok document)) :
    ∃ cursor, Cursor.ofText text 0 = .ok cursor ∧
      (runAt (Parse.document options.maxDepth) cursor).1 = .ok document := by
  cases located : Cursor.ofText text 0 with
  | error error =>
      unfold parseDocument observeDocument observe at parsed
      rw [located] at parsed
      cases parsed
  | ok cursor =>
      rw [parseDocument_of_ofText located, Outcome.ofExcept_inj] at parsed
      exact ⟨cursor, rfl, parsed⟩

theorem parseDocument_of_opens (located : Cursor.ofText text 0 = .ok cursor)
    (opens : JsonText.Opens cursor.current.kind) :
    parseDocument text options =
      .ofExcept ((runAt (completeValue options.maxDepth) cursor).1.map .json) := by
  rw [parseDocument_of_ofText located, runAt_document_of_opens opens]

theorem parseDocument_of_not_opens (located : Cursor.ofText text 0 = .ok cursor)
    (notOpens : ¬ JsonText.Opens cursor.current.kind) :
    parseDocument text options =
      .ofExcept ((Expr.parseInside options.maxDepth 0 text).map .expression) := by
  rw [parseDocument_of_ofText located, runAt_document_of_not_opens notOpens,
    Expr.parseInside_of_ofText located]

/-- A text with a document has a first token, which tells the kind of the
document. -/
theorem Document.Spells.exists_ofText (spells : document.Spells text) :
    ∃ cursor, Cursor.ofText text 0 = .ok cursor ∧
      (JsonText.Opens cursor.current.kind ↔ ∃ node, document = .json node) := by
  cases document with
  | json node =>
      have isText : JsonText.IsText text.toList node := spells
      have starts := isText.2.starts (JsonText.closes_of_blanks blanks_nil)
      obtain ⟨token, middle, read⟩ := starts.answers 0
      rw [List.append_nil] at read
      obtain ⟨cursor, stands, -, depth, sightings⟩ := Cursor.exists_standsAt read 0 []
      have located : Cursor.ofText text 0 = .ok cursor :=
        Cursor.ofText_eq_ok_iff.mpr ⟨stands, depth, sightings⟩
      exact ⟨cursor, located, fun _ => ⟨node, rfl⟩, fun _ => isText.opens stands⟩
  | expression tree =>
      obtain ⟨tokens, final, lexed, derivation⟩ := spells
      obtain ⟨cursor, after, located, passed, -, -⟩ := (tokenize_eq_ok_iff 0).mp lexed
      obtain ⟨first, rest, rfl, starts⟩ := derivation.starts rfl
      obtain ⟨rfl, -, -⟩ := Cursor.passes_cons_iff.mp passed
      have notOpens : ¬ JsonText.Opens cursor.current.kind := by
        rintro (kind | kind) <;> rw [kind] at starts <;> exact absurd starts (by decide)
      exact ⟨cursor, located, fun opens => absurd opens notOpens, by simp⟩

/-! ### What is accepted -/

/-- A document is read, or refused because it nests too deep for the limit. -/
theorem Document.Spells.parse (spells : document.Spells text) (options : ParseOptions) :
    parseDocument text options = .ofExcept (.ok document) ∨
      options.maxDepth < document.nesting ∧ ∃ offset, parseDocument text options =
        .ofExcept (.error ⟨.tooDeeplyNested options.maxDepth, offset⟩) := by
  obtain ⟨cursor, located, kind⟩ := spells.exists_ofText
  cases document with
  | json node =>
      have isText : JsonText.IsText text.toList node := spells
      obtain ⟨stands, surface, -⟩ := Cursor.ofText_eq_ok_iff.mp located
      rw [parseDocument_of_opens located (kind.mpr ⟨node, rfl⟩)]
      obtain ⟨after, read | ⟨tooDeep, offset, stopped, refused⟩⟩ :=
        @JsonText.Spells.completeValue options.maxDepth 0 _ _ _ isText.2 stands surface
      · exact .inl (by rw [read]; rfl)
      · exact .inr ⟨tooDeep, offset, by rw [refused]; rfl⟩
  | expression tree =>
      have notOpens : ¬ JsonText.Opens cursor.current.kind := by simp [kind]
      have isExpression : Expr.Spells text tree := spells
      rw [parseDocument_of_not_opens located notOpens]
      rcases isExpression.parseInside options.maxDepth 0 with read | ⟨tooTall, offset, refused⟩
      · exact .inl (by rw [read]; rfl)
      · rw [Nat.zero_add] at tooTall
        exact .inr ⟨tooTall, offset, by rw [refused]; rfl⟩

/-- Exactly the documents that fit under the limit are read. -/
theorem parseDocument_eq_ok_iff :
    parseDocument text options = .ofExcept (.ok document) ↔
      document.Spells text ∧ document.nesting ≤ options.maxDepth := by
  constructor
  · intro parsed
    obtain ⟨cursor, located, whole⟩ := exists_of_parseDocument parsed
    by_cases opens : JsonText.Opens cursor.current.kind
    · rw [runAt_document_of_opens opens] at whole
      obtain ⟨node, read, rfl⟩ := exists_of_map_eq_ok whole
      obtain ⟨stands, surface, -⟩ := Cursor.ofText_eq_ok_iff.mp located
      exact (JsonText.completeValue_spells stands surface opens (Prod.ext read rfl)).symm
    · rw [runAt_document_of_not_opens opens, ← Expr.parseInside_of_ofText located] at whole
      obtain ⟨tree, read, rfl⟩ := exists_of_map_eq_ok whole
      obtain ⟨spells, fits⟩ := Expr.parseInside_eq_ok_iff.mp read
      exact ⟨spells, by rwa [Nat.zero_add] at fits⟩
  · rintro ⟨spells, fits⟩
    rcases spells.parse options with read | ⟨tooDeep, -⟩
    · exact read
    · omega

/-- A text stands for at most one document. -/
theorem Document.Spells.unique {other : Document} (spells : document.Spells text)
    (otherSpells : other.Spells text) : document = other := by
  let roomy : ParseOptions := ⟨max document.nesting other.nesting⟩
  have first : parseDocument text roomy = .ofExcept (.ok document) :=
    parseDocument_eq_ok_iff.mpr ⟨spells, Nat.le_max_left _ _⟩
  have second : parseDocument text roomy = .ofExcept (.ok other) :=
    parseDocument_eq_ok_iff.mpr ⟨otherSpells, Nat.le_max_right _ _⟩
  have same := Outcome.ofExcept_inj.mp (first.symm.trans second)
  exact Except.ok.inj same

/-! ### Strictness -/

/-- With a limit no smaller than the number of characters, a text that begins with
an opening bracket is read exactly when it is an object or an array of the
grammar, and the result is the value that it stands for. -/
theorem parseDocument_eq_ok_iff_isText (text : String) (options : ParseOptions)
    (opens : ∃ token after, (Lexer.ofText text).next = (.ok token, after) ∧
      (token.kind = .symbol .leftBrace ∨ token.kind = .symbol .leftBracket))
    (roomy : text.length ≤ options.maxDepth) (document : Document) :
    parseDocument text options = .ofExcept (.ok document) ↔
      ∃ node, document = .json node ∧ JsonText.IsText text.toList node := by
  rw [parseDocument_eq_ok_iff]
  constructor
  · rintro ⟨spells, -⟩
    obtain ⟨cursor, located, kind⟩ := spells.exists_ofText
    obtain ⟨token, after, read, opening⟩ := opens
    have stands : cursor.StandsAt (Lexer.ofText text) := (Cursor.ofText_eq_ok_iff.mp located).1
    obtain ⟨middle, current⟩ := stands.next
    rw [read] at current
    simp only [Prod.mk.injEq, Except.ok.injEq] at current
    obtain ⟨node, rfl⟩ := kind.mp (current.1 ▸ opening)
    exact ⟨node, rfl, spells⟩
  · rintro ⟨node, rfl, isText⟩
    have nesting : node.nesting ≤ text.toList.length := isText.2.nesting_le
    rw [String.length_toList] at nesting
    exact ⟨isText, Nat.le_trans nesting roomy⟩

/-- A minus sign belongs to its number, and an expression in a string is read. -/
theorem isText_number_and_template :
    (∃ token after, (Lexer.ofText "[-2, \"=a\"]").next = (.ok token, after) ∧
      (token.kind = .symbol .leftBrace ∨ token.kind = .symbol .leftBracket)) ∧
    "[-2, \"=a\"]".length ≤ 10 ∧
    JsonText.IsText "[-2, \"=a\"]".toList
      (.array [.literal ⟨.number (.integer (-2)), "-2"⟩, .template (.identifier "a")]) := by
  have opens : ∃ token after, (Lexer.ofText "[-2, \"=a\"]").next = (.ok token, after) ∧
      (token.kind = .symbol .leftBrace ∨ token.kind = .symbol .leftBracket) :=
    ⟨⟨.symbol .leftBracket, "[", 0⟩, ⟨"-2, \"=a\"]".toList, 1⟩, rfl, .inr rfl⟩
  have parsed : parseDocument "[-2, \"=a\"]" ⟨10⟩ = .ofExcept (.ok (.json
      (.array [.literal ⟨.number (.integer (-2)), "-2"⟩, .template (.identifier "a")]))) := by
    decide +kernel
  obtain ⟨node, same, isText⟩ :=
    (parseDocument_eq_ok_iff_isText _ ⟨10⟩ opens (by decide) _).mp parsed
  obtain rfl := Document.json.inj same
  exact ⟨opens, by decide, isText⟩

/-! ### The limit on nesting -/

/-- If a parser reads a tree that fits under the limit, and otherwise refuses the
text because of the limit, then each limit decides which of both happens. -/
theorem reads_iff_fits {Tree : Type} {parse : ParseOptions → Outcome Tree} {tree : Tree}
    {levels : Nat}
    (fits : ∀ {options}, parse options = .ofExcept (.ok tree) → levels ≤ options.maxDepth)
    (reads : ∀ options, parse options = .ofExcept (.ok tree) ∨
      options.maxDepth < levels ∧ ∃ offset, parse options =
        .ofExcept (.error ⟨.tooDeeplyNested options.maxDepth, offset⟩)) (limit : Nat) :
    (levels ≤ limit → parse ⟨limit⟩ = .ofExcept (.ok tree)) ∧
      (limit < levels → ∃ offset, parse ⟨limit⟩ =
        .ofExcept (.error ⟨.tooDeeplyNested limit, offset⟩)) := by
  constructor
  · intro low
    rcases reads ⟨limit⟩ with read | ⟨high, -⟩
    · exact read
    · exact absurd low (Nat.not_le.mpr high)
  · intro high
    rcases reads ⟨limit⟩ with read | ⟨-, refused⟩
    · exact absurd (fits read) (Nat.not_le.mpr high)
    · exact refused

/-- The limit is exact, both for documents and for bare expressions.  A tree that
was read fits under its limit.  Under any other limit the same tree is read if it
fits there, and the text is refused because of the limit otherwise. -/
theorem nesting_limit_is_exact (text : String) (options : ParseOptions) :
    (∀ document, parseDocument text options = .ofExcept (.ok document) →
      document.nesting ≤ options.maxDepth ∧ ∀ limit,
        (document.nesting ≤ limit → parseDocument text ⟨limit⟩ = .ofExcept (.ok document)) ∧
        (limit < document.nesting → ∃ offset, parseDocument text ⟨limit⟩ =
          .ofExcept (.error ⟨.tooDeeplyNested limit, offset⟩))) ∧
    ∀ tree, parseExpression text options = .ofExcept (.ok tree) →
      tree.height ≤ options.maxDepth ∧ ∀ limit,
        (tree.height ≤ limit → parseExpression text ⟨limit⟩ = .ofExcept (.ok tree)) ∧
        (limit < tree.height → ∃ offset, parseExpression text ⟨limit⟩ =
          .ofExcept (.error ⟨.tooDeeplyNested limit, offset⟩)) := by
  constructor
  · intro document parsed
    obtain ⟨spells, fits⟩ := parseDocument_eq_ok_iff.mp parsed
    exact ⟨fits, reads_iff_fits (fun read => (parseDocument_eq_ok_iff.mp read).2) spells.parse⟩
  · intro tree parsed
    obtain ⟨spells, fits⟩ := parseExpression_eq_ok_iff.mp parsed
    exact ⟨fits, reads_iff_fits (fun read => (parseExpression_eq_ok_iff.mp read).2) spells.parse⟩

/-- A template two levels tall inside an array needs three levels. -/
theorem nesting_limit_of_template :
    (∃ offset, parseDocument "[\"=!a\"]" ⟨2⟩ = .ofExcept (.error ⟨.tooDeeplyNested 2, offset⟩)) ∧
      ∃ offset, parseExpression "!a" ⟨1⟩ = .ofExcept (.error ⟨.tooDeeplyNested 1, offset⟩) := by
  have document : parseDocument "[\"=!a\"]" ⟨3⟩ =
      .ofExcept (.ok (.json (.array [.template (.prefixed .not (.identifier "a"))]))) := by
    decide +kernel
  have tree : parseExpression "!a" ⟨2⟩ =
      .ofExcept (.ok (.prefixed .not (.identifier "a"))) := by
    decide +kernel
  have refusesDocument := ((nesting_limit_is_exact _ _).1 _ document).2 2
  have refusesTree := ((nesting_limit_is_exact _ _).2 _ tree).2 1
  exact ⟨refusesDocument.2 (by decide), refusesTree.2 (by decide)⟩

end TemplatedJson
