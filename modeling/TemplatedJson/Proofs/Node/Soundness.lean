import TemplatedJson.Proofs.Expr.Recognition
import TemplatedJson.Proofs.Node.Lexical

/-!
# What the JSON parser reads is written in the grammar

A successful run passes characters that the grammar allows for the value that
it yields, and the value nests no deeper than the levels that were left.  Every
way in which the lexer is more generous than JSON is closed by a check of the
parser.
-/

namespace TemplatedJson.JsonText

open Parse

/-- Whether the characters between the place of a lexer and that of a cursor have
a property, together with any blanks after them. -/
def Consumed (depth : Nat) (lexer : Lexer) (after : Cursor) (holds : List Char → Prop) : Prop :=
  ∃ (body : List Char) (last : Lexer), lexer.rest = body ++ last.rest ∧ after.StandsAt last ∧
    after.depth = depth ∧ ∀ trailing, Blanks trailing → holds (body ++ trailing)

/-- Every success of a parser inside `depth` containers passes characters that
stand in a relation to its value. -/
def Consumes {Value : Type} (depth : Nat) (parser : Parse Value)
    (holds : Value → List Char → Prop) : Prop :=
  ∀ ⦃cursor value after⦄ ⦃lexer : Lexer⦄, cursor.StandsAt lexer → cursor.depth = depth →
    runAt parser cursor = (.ok value, after) → Consumed depth lexer after (holds value)

/-- Whether a text is an element that nests no deeper than the given levels. -/
def Fits (levels : Nat) (node : Node) (chars : List Char) : Prop :=
  node.nesting ≤ levels ∧ Spells (.element node) chars

variable {maximum depth levels : Nat} {cursor after : Cursor} {lexer : Lexer}

/-- A literal or a template that was read is an element with the blanks around
it. -/
theorem consumed_of_spells {node : Node} {blanks chars : List Char} {last : Lexer}
    (text : lexer.rest = blanks ++ (chars ++ last.rest)) (blank : Blanks blanks)
    (standsLast : after.StandsAt last) (sameDepth : after.depth = depth)
    (spells : Spells (.value node) chars) (low : node.nesting ≤ levels) :
    Consumed depth lexer after (Fits levels node) := by
  refine ⟨blanks ++ chars, last, by simp [text], standsLast, sameDepth, ?_⟩
  intro trailing blankTrailing
  rw [List.append_assoc]
  exact ⟨low, .element blank spells blankTrailing⟩

/-! ### Strings -/

theorem jsonString_eq_ok {content : String} {token : Token}
    (run : runAt jsonString cursor = (.ok (content, token), after)) :
    token = cursor.current ∧ cursor.current.kind = .string content .double ∧
      cursor.following? = some after := by
  unfold jsonString at run
  rw [runAt_get_bind] at run
  dsimp only at run
  split at run
  · next found kind =>
      obtain ⟨_, moved, same⟩ := runAt_bind_pure_eq_ok.mp run
      obtain ⟨rfl, rfl⟩ := Prod.mk.inj same
      exact ⟨rfl, kind, runAt_discard_advance_eq_ok.mp moved⟩
  · simp at run
  · simp at run

/-- Stepping over a string in double quotes passes a string of JSON. -/
theorem step_string (stands : cursor.StandsAt lexer) {content : String}
    (kind : cursor.current.kind = .string content .double)
    (known : cursor.following? = some after) :
    ∃ blanks last, lexer.rest = blanks ++ (cursor.current.raw.toList ++ last.rest) ∧
      Blanks blanks ∧ IsString cursor.current.raw.toList content ∧ after.StandsAt last ∧
      after.depth = cursor.depth := by
  obtain ⟨blanks, last, text, blank, lexical, -, -, standsLast, sameDepth⟩ :=
    stands.step (by simp [kind]) known
  have spelled := lexical.spelled
  rw [kind] at spelled
  exact ⟨blanks, last, text, blank, isString_iff_spelled.mpr spelled, standsLast, sameDepth⟩

theorem stringValue_eq_ok {content : String} {token : Token} {node : Node}
    (run : runAt (stringValue maximum content token) cursor = (.ok node, after)) :
    (Template.detect? content = none ∧ node = .literal ⟨.string content, token.raw⟩ ∧
        after = cursor) ∨
      ∃ embedded tree sightings, Template.detect? content = some embedded ∧
        Expr.parseInside maximum cursor.depth embedded.source = .ok tree ∧
        node = .template tree ∧ after = { cursor with sightings := sightings } := by
  unfold stringValue at run
  split at run
  · next plain =>
      obtain ⟨rfl, rfl⟩ := runAt_pure_eq_ok.mp run
      exact .inl ⟨plain, rfl, rfl⟩
  · next embedded found =>
      right
      rw [runAt_modify_bind, runAt_get_bind] at run
      split at run
      · next tree parsed =>
          obtain ⟨rfl, rfl⟩ := runAt_pure_eq_ok.mp run
          exact ⟨embedded, tree, _, found, parsed, rfl, rfl⟩
      · simp at run

/-- A template that fits inside its containers fits on the levels that are
left, and it is an expression in its own right. -/
theorem spells_template {raw : List Char} {content : String} {embedded : Template.Embedded}
    {tree : Expr} (isString : IsString raw content)
    (found : Template.detect? content = some embedded)
    (parsed : Expr.parseInside maximum depth embedded.source = .ok tree) :
    depth + tree.height ≤ maximum ∧ Spells (.value (.template tree)) raw := by
  obtain ⟨spells, fits⟩ := Expr.parseInside_eq_ok_iff.mp parsed
  have accepted : parseExpression embedded.source ⟨tree.height⟩ = .ofExcept (.ok tree) :=
    parseExpression_eq_ok_iff.mpr ⟨spells, Nat.le_refl _⟩
  exact ⟨fits, .template isString found accepted⟩

theorem string_consumes (counted : depth + levels = maximum) :
    Consumes depth (do let (content, token) ← jsonString; stringValue maximum content token)
      (Fits levels) := by
  intro cursor node after lexer stands sameDepth run
  obtain ⟨⟨content, token⟩, middle, read, rest⟩ := runAt_bind_eq_ok.mp run
  obtain ⟨rfl, kind, known⟩ := jsonString_eq_ok read
  obtain ⟨blanks, last, text, blank, isString, standsLast, depthLast⟩ :=
    step_string stands kind known
  have depthMiddle := depthLast.trans sameDepth
  rcases stringValue_eq_ok rest with
    ⟨plain, rfl, rfl⟩ | ⟨embedded, tree, sightings, found, parsed, rfl, rfl⟩
  · have spells := Spells.string isString plain
    rw [String.ofList_toList] at spells
    exact consumed_of_spells text blank standsLast depthMiddle spells (Nat.zero_le levels)
  · rw [depthMiddle] at parsed
    obtain ⟨fits, spells⟩ := spells_template isString found parsed
    have low : (Node.template tree).nesting ≤ levels := by
      change tree.height ≤ levels
      omega
    have standsAfter : Cursor.StandsAt { middle with sightings := sightings } last := standsLast
    exact consumed_of_spells text blank standsAfter depthMiddle spells low

/-! ### Numbers -/

theorem jsonNumber_eq_ok {sign digits : String} {offset : Nat} {node : Node}
    (run : runAt (jsonNumber sign digits offset) cursor = (.ok node, after)) :
    (∃ value, Number.ofText? (sign ++ digits) = some value ∧
        node = .literal ⟨.number value, sign ++ digits⟩) ∧
      hasLeadingZero digits.toList = false ∧ after = cursor := by
  unfold jsonNumber at run
  split at run
  · next leaf found =>
      obtain ⟨value, known, rfl⟩ := Option.map_eq_some_iff.mp found
      split at run
      · simp at run
      · next noZero =>
          obtain ⟨rfl, rfl⟩ := runAt_pure_eq_ok.mp run
          exact ⟨⟨value, known, rfl⟩, by simpa using noZero, rfl⟩
  · simp at run

/-- A sign and the digits right after it are a number of JSON. -/
theorem spells_number {sign digits : String} {value : Number}
    (isSign : sign.toList = [] ∨ sign.toList = ['-']) (unsigned : Unsigned digits.toList)
    (noZero : hasLeadingZero digits.toList = false)
    (known : Number.ofText? (sign ++ digits) = some value) :
    Spells (.value (.literal ⟨.number value, sign ++ digits⟩)) (sign.toList ++ digits.toList) := by
  have isNumber : IsNumber (sign ++ digits).toList :=
    isNumber_iff.mpr ⟨_, _, String.toList_append, isSign, unsigned, noZero⟩
  have spells := Spells.number isNumber (by rw [String.ofList_toList]; exact known)
  rwa [String.ofList_toList, String.toList_append] at spells

theorem number_consumes (kind : cursor.current.kind = .number) (stands : cursor.StandsAt lexer)
    (sameDepth : cursor.depth = depth) {node : Node}
    (run : runAt (do discard advance; jsonNumber "" cursor.current.raw cursor.current.offset)
      cursor = (.ok node, after)) : Consumed depth lexer after (Fits levels node) := by
  obtain ⟨_, middle, moved, read⟩ := runAt_bind_eq_ok.mp run
  have moved := runAt_discard_advance_eq_ok.mp moved
  obtain ⟨⟨value, found, rfl⟩, noZero, rfl⟩ := jsonNumber_eq_ok read
  obtain ⟨blanks, last, text, blank, lexical, -, -, standsLast, depthLast⟩ :=
    stands.step (by simp [kind]) moved
  have unsigned := lexical.spelled
  rw [kind] at unsigned
  exact consumed_of_spells text blank standsLast (depthLast.trans sameDepth)
    (spells_number (.inl rfl) unsigned noZero found) (Nat.zero_le levels)

/-- The digits start where the minus sign ends, so no blanks are between them. -/
theorem negativeNumber_consumes (kind : cursor.current.kind = .symbol .minus)
    (stands : cursor.StandsAt lexer) (sameDepth : cursor.depth = depth) {node : Node}
    (run : runAt negativeNumber cursor = (.ok node, after)) :
    Consumed depth lexer after (Fits levels node) := by
  unfold negativeNumber at run
  obtain ⟨minus, middle, moved, rest⟩ := runAt_bind_eq_ok.mp run
  obtain ⟨rfl, known⟩ := runAt_advance_eq_ok.mp moved
  obtain ⟨blanks, second, text, blank, lexical, -, position, standsMiddle, depthMiddle⟩ :=
    stands.step (by simp [kind]) known
  have sign := lexical.spelled
  rw [kind] at sign
  have sign : cursor.current.raw.toList = ['-'] := sign
  rw [runAt_get_bind] at rest
  dsimp only at rest
  split at rest
  · next attached =>
      simp only [Bool.and_eq_true, decide_eq_true_eq] at attached
      obtain ⟨isNumber, offset⟩ := attached
      obtain ⟨_, third, moved, read⟩ := runAt_bind_eq_ok.mp rest
      have moved := runAt_discard_advance_eq_ok.mp moved
      obtain ⟨⟨value, found, rfl⟩, noZero, rfl⟩ := jsonNumber_eq_ok read
      obtain ⟨between, last, textAfter, _, lexicalDigits, offsetDigits, _, standsLast,
        depthLast⟩ := standsMiddle.step (by simp [isNumber]) moved
      have unsigned := lexicalDigits.spelled
      rw [isNumber] at unsigned
      have together : between = [] := by
        rw [offset, position] at offsetDigits
        exact List.eq_nil_of_length_eq_zero (by omega)
      have whole : lexer.rest = blanks ++
          ((cursor.current.raw.toList ++ middle.current.raw.toList) ++ last.rest) := by
        rw [text, textAfter, together]
        simp
      exact consumed_of_spells whole blank standsLast
        (depthLast.trans (depthMiddle.trans sameDepth))
        (spells_number (.inr sign) unsigned noZero found) (Nat.zero_le levels)
  · simp at rest

/-! ### Values -/

theorem boolean_consumes {truth : Bool} (kind : cursor.current.kind = .boolean truth)
    (stands : cursor.StandsAt lexer) (sameDepth : cursor.depth = depth)
    (known : cursor.following? = some after) :
    Consumed depth lexer after
      (Fits levels (.literal ⟨.boolean truth, cursor.current.raw⟩)) := by
  obtain ⟨blanks, last, text, blank, lexical, -, -, standsLast, depthLast⟩ :=
    stands.step (by simp [kind]) known
  have spelled := lexical.spelled
  rw [kind] at spelled
  have spells : Spells (.value (.literal ⟨.boolean truth, cursor.current.raw⟩))
      cursor.current.raw.toList := by
    cases truth with
    | false =>
        have raw : cursor.current.raw = "false" := String.toList_inj.mp spelled
        rw [raw]
        exact .false
    | true =>
        have raw : cursor.current.raw = "true" := String.toList_inj.mp spelled
        rw [raw]
        exact .true
  exact consumed_of_spells text blank standsLast (depthLast.trans sameDepth) spells
    (Nat.zero_le levels)

theorem null_consumes (kind : cursor.current.kind = .null) (raw : cursor.current.raw = "null")
    (stands : cursor.StandsAt lexer) (sameDepth : cursor.depth = depth)
    (known : cursor.following? = some after) :
    Consumed depth lexer after (Fits levels (.literal ⟨.null, cursor.current.raw⟩)) := by
  obtain ⟨blanks, last, text, blank, -, -, -, standsLast, depthLast⟩ :=
    stands.step (by simp [kind]) known
  rw [raw] at text ⊢
  exact consumed_of_spells text blank standsLast (depthLast.trans sameDepth) .null
    (Nat.zero_le levels)

/-- A value is what the reader of objects or of arrays yields, or else a literal, or a
template that was read inside of the containers around it. -/
theorem value_eq_ok {objects arrays : Parse Node} {node : Node}
    (run : runAt (value maximum objects arrays) cursor = (.ok node, after)) :
    cursor.current.kind = .symbol .leftBrace ∧ runAt objects cursor = (.ok node, after) ∨
      cursor.current.kind = .symbol .leftBracket ∧ runAt arrays cursor = (.ok node, after) ∨
        (∃ leaf, node = .literal leaf) ∨
          ∃ text tree, Expr.parseInside maximum cursor.depth text = .ok tree ∧
            node = .template tree := by
  unfold Parse.value at run
  rw [runAt_get_bind] at run
  dsimp only at run
  split at run
  · next kind => exact .inl ⟨kind, run⟩
  · next kind => exact .inr (.inl ⟨kind, run⟩)
  · obtain ⟨⟨content, token⟩, middle, read, rest⟩ := runAt_bind_eq_ok.mp run
    obtain ⟨-, -, known⟩ := jsonString_eq_ok read
    have followed := (Cursor.following?_frame known).1
    rcases stringValue_eq_ok rest with ⟨-, rfl, -⟩ | ⟨embedded, tree, _, -, parsed, rfl, -⟩
    · exact .inr (.inr (.inl ⟨_, rfl⟩))
    · rw [followed] at parsed
      exact .inr (.inr (.inr ⟨_, tree, parsed, rfl⟩))
  · obtain ⟨_, middle, -, read⟩ := runAt_bind_eq_ok.mp run
    obtain ⟨⟨number, -, rfl⟩, -, -⟩ := jsonNumber_eq_ok read
    exact .inr (.inr (.inl ⟨_, rfl⟩))
  · unfold negativeNumber at run
    obtain ⟨minus, middle, -, rest⟩ := runAt_bind_eq_ok.mp run
    rw [runAt_get_bind] at rest
    dsimp only at rest
    split at rest
    · obtain ⟨_, last, -, read⟩ := runAt_bind_eq_ok.mp rest
      obtain ⟨⟨number, -, rfl⟩, -, -⟩ := jsonNumber_eq_ok read
      exact .inr (.inr (.inl ⟨_, rfl⟩))
    · simp at rest
  · obtain ⟨_, -, rfl⟩ := runAt_bind_pure_eq_ok.mp run
    exact .inr (.inr (.inl ⟨_, rfl⟩))
  · split at run
    · obtain ⟨_, -, rfl⟩ := runAt_bind_pure_eq_ok.mp run
      exact .inr (.inr (.inl ⟨_, rfl⟩))
    · simp at run
  · simp at run

theorem value_consumes {object array : Parse Node} (counted : depth + levels = maximum)
    (consumesObject : Consumes depth object (Fits levels))
    (consumesArray : Consumes depth array (Fits levels)) :
    Consumes depth (value maximum object array) (Fits levels) := by
  intro cursor node after lexer stands sameDepth run
  unfold value at run
  rw [runAt_get_bind] at run
  dsimp only at run
  split at run
  · exact consumesObject stands sameDepth run
  · exact consumesArray stands sameDepth run
  · exact string_consumes counted stands sameDepth run
  · next kind => exact number_consumes kind stands sameDepth run
  · next kind => exact negativeNumber_consumes kind stands sameDepth run
  · next truth kind =>
      obtain ⟨_, moved, rfl⟩ := runAt_bind_pure_eq_ok.mp run
      exact boolean_consumes kind stands sameDepth (runAt_discard_advance_eq_ok.mp moved)
  · next kind =>
      split at run
      · next raw =>
          obtain ⟨_, moved, rfl⟩ := runAt_bind_pure_eq_ok.mp run
          exact null_consumes kind raw stands sameDepth (runAt_discard_advance_eq_ok.mp moved)
      · simp at run
  · simp at run

/-! ### Items between commas -/

section Items

variable {Item : Type} {item : Parse Item} {holds : Item → List Char → Prop}
  {holdsAll : List Item → List Char → Prop}

/-- Items that were read one after another are joined by commas. -/
theorem separated_consumes (consumes : Consumes depth item holds)
    (last : ∀ {value chars}, holds value chars → holdsAll [value] chars)
    (next : ∀ {value values chars more}, holds value chars → holdsAll values more →
      holdsAll (value :: values) (chars ++ ',' :: more))
    {values : List Item} (separated : Separated item cursor values after)
    (stands : cursor.StandsAt lexer) (sameDepth : cursor.depth = depth) :
    Consumed depth lexer after (holdsAll values) := by
  induction separated generalizing lexer with
  | last read =>
      obtain ⟨body, final, text, standsFinal, depthFinal, known⟩ := consumes stands sameDepth read
      exact ⟨body, final, text, standsFinal, depthFinal, fun trailing blank =>
        last (known trailing blank)⟩
  | comma read atComma moved _ ih =>
      obtain ⟨body, middle, text, standsMiddle, depthMiddle, known⟩ :=
        consumes stands sameDepth read
      obtain ⟨blanks, second, textMiddle, blank, standsSecond, depthSecond⟩ :=
        standsMiddle.step_symbol atComma moved
      obtain ⟨more, final, textSecond, standsFinal, depthFinal, knownMore⟩ :=
        ih standsSecond (depthSecond.trans depthMiddle)
      refine ⟨body ++ blanks ++ ',' :: more, final, ?_, standsFinal, depthFinal, ?_⟩
      · rw [text, textMiddle, textSecond]
        simp [Symbol.text]
      · intro trailing blankTrailing
        have joined := next (known blanks blank) (knownMore trailing blankTrailing)
        simpa using joined

/-- Items up to a closing symbol, or nothing but blanks before it. -/
theorem listUntil_consumes (consumes : Consumes depth item holds)
    (last : ∀ {value chars}, holds value chars → holdsAll [value] chars)
    (next : ∀ {value values chars more}, holds value chars → holdsAll values more →
      holdsAll (value :: values) (chars ++ ',' :: more))
    {closing : Symbol} {values : List Item}
    (run : runAt (listUntil closing item) cursor = (.ok values, after))
    (stands : cursor.StandsAt lexer) (sameDepth : cursor.depth = depth) :
    ∃ (inside : List Char) (final : Lexer),
      lexer.rest = inside ++ (closing.text.toList ++ final.rest) ∧ after.StandsAt final ∧
      after.depth = depth ∧ (values = [] ∧ Blanks inside ∨ holdsAll values inside) := by
  rcases listUntil_eq_ok run with ⟨rfl, closed, known⟩ | ⟨-, middle, separated, closed, known⟩
  · obtain ⟨blanks, final, text, blank, standsFinal, depthFinal⟩ := stands.step_symbol closed known
    exact ⟨blanks, final, text, standsFinal, depthFinal.trans sameDepth, .inl ⟨rfl, blank⟩⟩
  · obtain ⟨body, second, text, standsSecond, depthSecond, known'⟩ :=
      separated_consumes consumes last next separated stands sameDepth
    obtain ⟨blanks, final, textSecond, blank, standsFinal, depthFinal⟩ :=
      standsSecond.step_symbol closed known
    refine ⟨body ++ blanks, final, ?_, standsFinal, depthFinal.trans depthSecond,
      .inr (known' blanks blank)⟩
    rw [text, textSecond]
    simp

/-- Items between brackets make up a container, which nests one level deeper than
they do. -/
theorem bracketed_consumes (consumes : Consumes depth item holds)
    (last : ∀ {value chars}, holds value chars → holdsAll [value] chars)
    (next : ∀ {value values chars more}, holds value chars → holdsAll values more →
      holdsAll (value :: values) (chars ++ ',' :: more))
    {opening closing : Symbol} {wrap : List Item → Node}
    (spells : ∀ {values inside}, values = [] ∧ Blanks inside ∨ holdsAll values inside →
      (wrap values).nesting ≤ levels + 1 ∧ Spells (.value (wrap values))
        (opening.text.toList ++ (inside ++ closing.text.toList))) :
    Consumes depth (do expect opening; return wrap (← listUntil closing item))
      (Fits (levels + 1)) := by
  intro cursor node after lexer stands sameDepth run
  obtain ⟨_, middle, opened, rest⟩ := runAt_bind_eq_ok.mp run
  obtain ⟨opens, known⟩ := runAt_expect_eq_ok.mp opened
  obtain ⟨values, listed, rfl⟩ := runAt_bind_pure_eq_ok.mp rest
  obtain ⟨blanks, second, text, blank, standsMiddle, depthMiddle⟩ := stands.step_symbol opens known
  obtain ⟨inside, last, textInside, standsLast, depthLast, found⟩ :=
    listUntil_consumes consumes last next listed standsMiddle (depthMiddle.trans sameDepth)
  obtain ⟨low, spelled⟩ := spells found
  refine consumed_of_spells ?_ blank standsLast depthLast spelled low
  rw [text, textInside]
  simp

end Items

/-! ### Containers -/

/-- Whether a text is a member whose value nests no deeper than the given
levels. -/
def FitsMember (levels : Nat) (member : Member Node) (chars : List Char) : Prop :=
  member.value.nesting ≤ levels ∧ Spells (.member member) chars

def FitsMembers (levels : Nat) (members : List (Member Node)) (chars : List Char) : Prop :=
  Node.nestingOfMembers members ≤ levels ∧ Spells (.members members) chars

def FitsElements (levels : Nat) (nodes : List Node) (chars : List Char) : Prop :=
  Node.nestingOfElements nodes ≤ levels ∧ Spells (.elements nodes) chars

/-- A member is a string in double quotes, a colon and a value. -/
theorem member_eq_ok {reader : Parse Node} {property : Member Node}
    (run : runAt (member reader) cursor = (.ok property, after)) :
    ∃ divider item, cursor.current.kind = .string property.key .double ∧
      cursor.following? = some divider ∧ divider.current.kind = .symbol .colon ∧
        divider.following? = some item ∧ runAt reader item = (.ok property.value, after) := by
  unfold member at run
  obtain ⟨⟨key, token⟩, divider, named, rest⟩ := runAt_bind_eq_ok.mp run
  obtain ⟨-, kind, known⟩ := jsonString_eq_ok named
  obtain ⟨_, item, divided, rest⟩ := runAt_bind_eq_ok.mp rest
  obtain ⟨colon, moved⟩ := runAt_expect_eq_ok.mp divided
  obtain ⟨node, read, rfl⟩ := runAt_bind_pure_eq_ok.mp rest
  exact ⟨divider, item, kind, known, colon, moved, read⟩

theorem member_consumes {reader : Parse Node} (consumes : Consumes depth reader (Fits levels)) :
    Consumes depth (member reader) (FitsMember levels) := by
  intro cursor property after lexer stands sameDepth run
  obtain ⟨first, second, kind, known, colon, moved, read⟩ := member_eq_ok run
  obtain ⟨before, afterName, text, blankBefore, isString, standsFirst, depthFirst⟩ :=
    step_string stands kind known
  obtain ⟨between, afterColon, textName, blankBetween, standsSecond, depthSecond⟩ :=
    standsFirst.step_symbol colon moved
  obtain ⟨body, last, textColon, standsLast, depthLast, fits⟩ :=
    consumes standsSecond (depthSecond.trans (depthFirst.trans sameDepth)) read
  refine ⟨before ++ (cursor.current.raw.toList ++ (between ++ ':' :: body)), last, ?_, standsLast,
    depthLast, ?_⟩
  · rw [text, textName, textColon]
    simp [Symbol.text]
  · intro trailing blank
    obtain ⟨low, spells⟩ := fits trailing blank
    refine ⟨low, ?_⟩
    simpa using Spells.member blankBefore isString blankBetween spells

theorem object_consumes {reader : Parse Node} (consumes : Consumes depth reader (Fits levels)) :
    Consumes depth (object reader) (Fits (levels + 1)) := by
  have last : ∀ {member chars}, FitsMember levels member chars →
      FitsMembers levels [member] chars := by
    rintro ⟨key, node⟩ chars ⟨low, spells⟩
    exact ⟨by simpa [Node.nestingOfMembers] using low, .lastMember spells⟩
  have next : ∀ {member members chars more}, FitsMember levels member chars →
      FitsMembers levels members more →
      FitsMembers levels (member :: members) (chars ++ ',' :: more) := by
    rintro ⟨key, node⟩ members chars more ⟨low, spells⟩ ⟨lowMore, spellsMore⟩
    exact ⟨Nat.max_le.mpr ⟨low, lowMore⟩, .nextMember spells spellsMore⟩
  refine bracketed_consumes (member_consumes consumes) last next ?_
  rintro members inside (⟨rfl, blank⟩ | ⟨low, spells⟩)
  · exact ⟨by simp [Node.nesting, Node.nestingOfMembers], .emptyObject blank⟩
  · exact ⟨by simp only [Node.nesting]; omega, .object spells⟩

theorem array_consumes {reader : Parse Node} (consumes : Consumes depth reader (Fits levels)) :
    Consumes depth (array reader) (Fits (levels + 1)) := by
  have last : ∀ {node chars}, Fits levels node chars → FitsElements levels [node] chars := by
    rintro node chars ⟨low, spells⟩
    exact ⟨by simpa [Node.nestingOfElements] using low, .lastElement spells⟩
  have next : ∀ {node nodes chars more}, Fits levels node chars → FitsElements levels nodes more →
      FitsElements levels (node :: nodes) (chars ++ ',' :: more) := by
    rintro node nodes chars more ⟨low, spells⟩ ⟨lowMore, spellsMore⟩
    exact ⟨Nat.max_le.mpr ⟨low, lowMore⟩, .nextElement spells spellsMore⟩
  refine bracketed_consumes consumes last next ?_
  rintro nodes inside (⟨rfl, blank⟩ | ⟨low, spells⟩)
  · exact ⟨by simp [Node.nesting, Node.nestingOfElements], .emptyArray blank⟩
  · exact ⟨by simp only [Node.nesting]; omega, .array spells⟩

/-- A container counts one level while what is inside is read. -/
theorem deeper_consumes {reader : Parse Node}
    (consumes : Consumes (depth + 1) reader (Fits levels)) :
    Consumes depth (deeper reader) (Fits levels) := by
  intro cursor node after lexer stands sameDepth run
  obtain ⟨middle, inside, rfl⟩ := runAt_deeper_eq_ok.mp run
  have standsInside : Cursor.StandsAt { cursor with depth := cursor.depth + 1 } lexer := stands
  obtain ⟨body, last, text, standsLast, depthLast, fits⟩ :=
    consumes standsInside (congrArg (· + 1) sameDepth) inside
  exact ⟨body, last, text, standsLast, by simp [depthLast], fits⟩

theorem valueWithin_consumes (counted : depth + levels = maximum) :
    Consumes depth (valueWithin maximum levels) (Fits levels) := by
  induction levels generalizing depth with
  | zero =>
      -- No level is left for a container, so there is no success to look at.
      have refuses : Consumes depth (deeper (tooDeep maximum) : Parse Node) (Fits 0) := by
        intro cursor node after lexer _ _ run
        obtain ⟨middle, inside, -⟩ := runAt_deeper_eq_ok.mp run
        simp at inside
      exact value_consumes counted refuses refuses
  | succ levels ih =>
      have inside := @ih (depth + 1) (by omega)
      exact value_consumes counted (deeper_consumes (object_consumes inside))
        (deeper_consumes (array_consumes inside))

end TemplatedJson.JsonText
