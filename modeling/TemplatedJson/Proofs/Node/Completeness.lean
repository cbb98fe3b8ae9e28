import TemplatedJson.Proofs.Expr.Recognition
import TemplatedJson.Proofs.Node.Context

/-!
# What the grammar of JSON allows is read

The parser follows every text of the grammar to the value that it stands for.
Only the limit on nesting can stop it on the way, and only if the value nests
deeper than the levels that are left.
-/

namespace TemplatedJson.JsonText

open Parse

/-- Wherever the text stands inside `depth` containers, with something that may
follow a value after it, the parser passes it and yields the given value, unless
it is justified to refuse. -/
def Reaches {Value : Type} (justified : Prop) (maximum depth : Nat) (parser : Parse Value)
    (chars : List Char) (value : Value) : Prop :=
  ∀ ⦃cursor : Cursor⦄ ⦃rest : List Char⦄, cursor.Faces (chars ++ rest) → Closes rest →
    cursor.depth = depth →
      ∃ after : Cursor, after.Faces rest ∧ after.depth = depth ∧
        after.remaining ≤ cursor.remaining ∧
        LeadsTo justified maximum (runAt parser cursor) (.ok value, after)

variable {justified : Prop} {maximum depth levels : Nat} {chars blanks : List Char} {node : Node}

theorem Reaches.of_blanks {Value : Type} {parser : Parse Value} {value : Value}
    (reaches : Reaches justified maximum depth parser chars value) (blank : Blanks blanks) :
    Reaches justified maximum depth parser (blanks ++ chars) value := by
  intro cursor rest faces closes sameDepth
  rw [List.append_assoc] at faces
  exact reaches (faces.of_blanks blank) closes sameDepth

/-- Blanks after a value are left to whatever follows it. -/
theorem Reaches.before_blanks {Value : Type} {parser : Parse Value} {value : Value}
    (reaches : Reaches justified maximum depth parser chars value) (blank : Blanks blanks) :
    Reaches justified maximum depth parser (chars ++ blanks) value := by
  intro cursor rest faces closes sameDepth
  rw [List.append_assoc] at faces
  obtain ⟨after, facesAfter, found⟩ := reaches faces (closes.after_blanks blank) sameDepth
  exact ⟨after, facesAfter.of_blanks blank, found⟩

/-! ### Values of one token -/

/-- A parser that passes one token reaches what it makes of it.  It may note a
template on the way. -/
theorem reaches_of_token {Value : Type} {parser : Parse Value} {value : Value} {kind : Token.Kind}
    (written : Scan.Written kind chars)
    (reads : ∀ {cursor after : Cursor}, cursor.current.kind = kind →
      cursor.current.raw = String.ofList chars → cursor.following? = some after →
        after.depth = depth → ∃ sightings, LeadsTo justified maximum (runAt parser cursor)
          (.ok value, { after with sightings := sightings })) :
    Reaches justified maximum depth parser chars value := by
  intro cursor rest faces closes sameDepth
  obtain ⟨isKind, raw, after, moved, facesAfter, depthAfter, fewer, -⟩ :=
    faces.step written (closes.endsBefore kind) closes.answers
  obtain ⟨sightings, leads⟩ := reads isKind raw moved (depthAfter.trans sameDepth)
  exact ⟨{ after with sightings := sightings }, facesAfter, depthAfter.trans sameDepth, fewer,
    leads⟩

section Scalars

variable {cursor after : Cursor} {object array : Parse Node}

theorem runAt_jsonString {content : String} (kind : cursor.current.kind = .string content .double)
    (moved : cursor.following? = some after) :
    runAt jsonString cursor = (.ok (content, cursor.current), after) := by
  simp only [jsonString, runAt_get_bind, kind]
  rw [runAt_bind_of_ok (runAt_discard_advance moved), runAt_pure]

/-- A string is not passed if the token after it cannot be read. -/
theorem runAt_jsonString_of_lost {content : String} {error : ParseError} {upcoming : TokenStream}
    (kind : cursor.current.kind = .string content .double)
    (lost : cursor.upcoming.next = (.error error, upcoming)) :
    runAt jsonString cursor = (.error error, { cursor with upcoming := upcoming }) := by
  simp only [jsonString, runAt_get_bind, kind]
  apply runAt_bind_of_error
  change runAt ((fun _ => PUnit.unit) <$> advance) cursor = _
  rw [map_eq_pure_bind]
  exact runAt_bind_of_error (runAt_advance_of_error lost)

theorem runAt_value_string {content : String} (kind : cursor.current.kind = .string content .double)
    (moved : cursor.following? = some after) :
    runAt (value maximum object array) cursor =
      runAt (stringValue maximum content cursor.current) after := by
  simp only [value, runAt_get_bind, kind]
  rw [runAt_bind_of_ok (runAt_jsonString kind moved)]

theorem runAt_jsonNumber {sign digits : String} {offset : Nat} {number : Number}
    (known : Number.ofText? (sign ++ digits) = some number)
    (noZero : hasLeadingZero digits.toList = false) :
    runAt (jsonNumber sign digits offset) cursor =
      (.ok (.literal ⟨.number number, sign ++ digits⟩), cursor) := by
  unfold jsonNumber Literal.number?
  rw [known]
  simp [noZero]

theorem reaches_boolean (truth : Bool) (written : Scan.Written (.boolean truth) chars) :
    Reaches justified maximum depth (value maximum object array) chars
      (.literal ⟨.boolean truth, String.ofList chars⟩) := by
  refine reaches_of_token written ?_
  intro cursor after kind raw moved _
  refine ⟨after.sightings, .of_eq ?_⟩
  simp only [value, runAt_get_bind, kind]
  rw [← raw, runAt_bind_of_ok (runAt_discard_advance moved), runAt_pure]

theorem reaches_null :
    Reaches justified maximum depth (value maximum object array) "null".toList
      (.literal ⟨.null, "null"⟩) := by
  refine reaches_of_token written_null ?_
  intro cursor after kind raw moved _
  refine ⟨after.sightings, .of_eq ?_⟩
  rw [String.ofList_toList] at raw
  simp only [value, runAt_get_bind, kind]
  rw [raw, if_pos rfl, runAt_bind_of_ok (runAt_discard_advance moved), runAt_pure]

theorem reaches_string {content : String} (isString : IsString chars content)
    (plain : Template.detect? content = none) :
    Reaches justified maximum depth (value maximum object array) chars
      (.literal ⟨.string content, String.ofList chars⟩) := by
  refine reaches_of_token isString.written ?_
  intro cursor after kind raw moved _
  refine ⟨after.sightings, .of_eq ?_⟩
  rw [runAt_value_string kind moved, stringValue, plain, runAt_pure, raw]

/-- An expression inside a string is read on the levels that are left. -/
theorem reaches_template {content : String} {embedded : Template.Embedded} {tree : Expr}
    (counted : depth + levels = maximum) (isString : IsString chars content)
    (found : Template.detect? content = some embedded)
    (spells : Expr.Spells embedded.source tree) :
    Reaches (levels < tree.height) maximum depth (value maximum object array) chars
      (.template tree) := by
  refine reaches_of_token isString.written ?_
  intro cursor after kind raw moved depthAfter
  let sighting : Template.Sighting := ⟨embedded.form, cursor.current.offset⟩
  refine ⟨after.sightings ++ [sighting], ?_⟩
  rw [runAt_value_string kind moved, stringValue, found]
  dsimp only
  rw [runAt_modify_bind, runAt_get_bind]
  dsimp only
  rw [depthAfter]
  rcases spells.parseInside maximum depth with read | ⟨tooTall, offset, refused⟩
  · rw [read]
    exact .of_eq rfl
  · rw [refused]
    exact .inr ⟨by omega, _, _, rfl⟩

theorem reaches_unsigned {number : Number} (unsigned : Unsigned chars)
    (noZero : hasLeadingZero chars = false)
    (known : Number.ofText? (String.ofList chars) = some number) :
    Reaches justified maximum depth (value maximum object array) chars
      (.literal ⟨.number number, String.ofList chars⟩) := by
  refine reaches_of_token (.number unsigned) ?_
  intro cursor after kind raw moved _
  refine ⟨after.sightings, .of_eq ?_⟩
  simp only [value, runAt_get_bind, kind]
  rw [runAt_bind_of_ok (runAt_discard_advance moved), raw, runAt_jsonNumber (by simpa using known)
    (by simpa using noZero)]
  simp

/-- A minus sign and the digits right after it are two tokens that make up one
number. -/
theorem reaches_negative {number : Number} (unsigned : Unsigned chars)
    (noZero : hasLeadingZero chars = false)
    (known : Number.ofText? (String.ofList ('-' :: chars)) = some number) :
    Reaches justified maximum depth (value maximum object array) ('-' :: chars)
      (.literal ⟨.number number, String.ofList ('-' :: chars)⟩) := by
  intro cursor rest faces closes sameDepth
  obtain ⟨blanks, position, blank, stands⟩ := faces
  have ends := closes.endsBefore .number
  have answersDigits : Answers (chars ++ rest) :=
    @answers_of_written [] _ _ _ blanks_nil (.number unsigned) ends
  obtain ⟨current, middle, moved, standsMiddle, depthMiddle, fewer, -⟩ :=
    @Cursor.StandsAt.step_written _ _ ['-'] (chars ++ rest) _ position stands blank
      (.symbol .minus) trivial answersDigits
  obtain ⟨currentDigits, after, movedDigits, standsAfter, depthAfter, fewerDigits, -⟩ :=
    @Cursor.StandsAt.step_written middle [] _ _ _ _ standsMiddle blanks_nil
      (.number unsigned) ends closes.answers
  refine ⟨after, ⟨[], _, blanks_nil, standsAfter⟩,
    depthAfter.trans (depthMiddle.trans sameDepth), Nat.le_trans fewerDigits fewer, .of_eq ?_⟩
  have attached : (decide (middle.current.kind = .number) &&
      decide (middle.current.offset = cursor.current.stop)) = true := by
    simp [currentDigits, current, Token.stop]
    rfl
  have joined : cursor.current.raw ++ middle.current.raw = String.ofList ('-' :: chars) := by
    rw [current, currentDigits, ← String.ofList_append]
    rfl
  have noZeroRaw : hasLeadingZero middle.current.raw.toList = false := by
    simpa [currentDigits] using noZero
  simp only [value, runAt_get_bind, current, negativeNumber]
  rw [runAt_bind_of_ok (runAt_advance moved), runAt_get_bind, if_pos attached,
    runAt_bind_of_ok (runAt_discard_advance movedDigits),
    runAt_jsonNumber (by rw [joined]; exact known) noZeroRaw, joined]

end Scalars

/-! ### Items between commas -/

/-- Wherever the text stands inside `depth` containers before a closing bracket,
reading items between commas offers the given values.  There are no more of them
than tokens that were passed. -/
def Supplies {Value : Type} (justified : Prop) (maximum depth : Nat) (item : Parse Value)
    (chars : List Char) (values : List Value) : Prop :=
  ∀ ⦃cursor : Cursor⦄ ⦃closing : Symbol⦄ ⦃rest : List Char⦄,
    cursor.Faces (chars ++ (closing.text.toList ++ rest)) → IsClosing closing →
      closing ≠ .comma → cursor.depth = depth →
        ∃ after : Cursor, after.Faces (closing.text.toList ++ rest) ∧ after.depth = depth ∧
          values.length + after.remaining ≤ cursor.remaining + 1 ∧
          Offers justified maximum item cursor values after

section Items

variable {Value : Type} {weaker : Prop} {item : Parse Value} {value : Value} {values : List Value}
  {more : List Char}

theorem Reaches.supplies (reaches : Reaches justified maximum depth item chars value) :
    Supplies justified maximum depth item chars [value] := by
  intro cursor closing rest faces isClosing notComma sameDepth
  obtain ⟨after, facesAfter, depthAfter, fewer, leads⟩ :=
    reaches faces (closes_of_symbol isClosing rest) sameDepth
  have kind := facesAfter.current_kind (.symbol closing) (endsBefore_of_isClosing isClosing rest)
  exact ⟨after, facesAfter, depthAfter, by simp only [List.length_singleton]; omega,
    .last leads (by simp [kind, notComma])⟩

theorem Reaches.mono (reaches : Reaches justified maximum depth item chars value)
    (implied : justified → weaker) : Reaches weaker maximum depth item chars value := by
  intro cursor rest faces closes sameDepth
  obtain ⟨after, facesAfter, depthAfter, fewer, leads⟩ := reaches faces closes sameDepth
  exact ⟨after, facesAfter, depthAfter, fewer, leads.mono implied⟩

theorem Supplies.mono (supplies : Supplies justified maximum depth item chars values)
    (implied : justified → weaker) : Supplies weaker maximum depth item chars values := by
  intro cursor closing rest faces isClosing notComma sameDepth
  obtain ⟨after, facesAfter, depthAfter, fewer, offers⟩ :=
    supplies faces isClosing notComma sameDepth
  exact ⟨after, facesAfter, depthAfter, fewer, offers.mono implied⟩

/-- A comma between two items is a token that is passed besides them. -/
theorem Reaches.supplies_cons {height heightMore : Nat}
    (reaches : Reaches (levels < height) maximum depth item chars value)
    (supplies : Supplies (levels < heightMore) maximum depth item more values)
    (starts : ∀ {rest}, Closes rest → Starts (more ++ rest)) :
    Supplies (levels < max height heightMore) maximum depth item (chars ++ ',' :: more)
      (value :: values) := by
  have low : levels < height → levels < max height heightMore := by omega
  have lowMore : levels < heightMore → levels < max height heightMore := by omega
  intro cursor closing rest faces isClosing notComma sameDepth
  have begins := starts (closes_of_symbol isClosing rest)
  rw [List.append_assoc] at faces
  obtain ⟨middle, facesMiddle, depthMiddle, fewer, leads⟩ :=
    reaches.mono low faces (closes_of_symbol (.inl rfl) _) sameDepth
  obtain ⟨kind, -, next, moved, facesNext, depthNext, -, strictlyFewer⟩ :=
    @Cursor.Faces.step _ [','] _ _ facesMiddle (.symbol .comma) trivial begins.answers
  have passed := strictlyFewer (begins.current facesNext).1
  obtain ⟨after, facesAfter, depthAfter, fewerAfter, offers⟩ :=
    supplies.mono lowMore facesNext isClosing notComma (depthNext.trans depthMiddle)
  exact ⟨after, facesAfter, depthAfter, by simp only [List.length_cons]; omega,
    .comma leads kind moved offers⟩

/-- Brackets around items, or around nothing but blanks, are read as a list. -/
theorem Supplies.reaches_brackets (opening closing : Symbol) (isClosing : IsClosing closing)
    (notComma : closing ≠ .comma) (opens : ∀ rest, Scan.EndsBefore (.symbol opening) rest)
    (convert : List Value → Node)
    (inside : values = [] ∧ Blanks chars ∨ Supplies justified maximum depth item chars values ∧
      ∀ {rest}, Closes rest → Starts (chars ++ rest)) :
    Reaches justified maximum depth (do expect opening; return convert (← listUntil closing item))
      (opening.text.toList ++ (chars ++ closing.text.toList)) (convert values) := by
  intro cursor rest faces closes sameDepth
  simp only [List.append_assoc] at faces
  have closed : Closes (closing.text.toList ++ rest) := closes_of_symbol isClosing rest
  have answers : Answers (chars ++ (closing.text.toList ++ rest)) := by
    rcases inside with ⟨-, blank⟩ | ⟨-, starts⟩
    · exact (closed.after_blanks blank).answers
    · exact (starts closed).answers
  obtain ⟨kind, -, first, moved, facesFirst, depthFirst, fewer, -⟩ :=
    faces.step (.symbol opening) (opens _) answers
  have opened : runAt (expect opening) cursor = (.ok ⟨⟩, first) := runAt_expect kind moved
  have depthInside := depthFirst.trans sameDepth
  have ends := endsBefore_of_isClosing isClosing rest
  rcases inside with ⟨rfl, blank⟩ | ⟨supplies, starts⟩
  · obtain ⟨kindClosing, -, after, passed, facesAfter, depthAfter, fewerAfter, -⟩ :=
      (facesFirst.of_blanks blank).step (.symbol closing) ends closes.answers
    refine ⟨after, facesAfter, depthAfter.trans depthInside, Nat.le_trans fewerAfter fewer,
      .of_eq ?_⟩
    have listed : runAt (listUntil closing item) first = (.ok [], after) := by
      simp only [listUntil, runAt_isAt_bind, kindClosing, decide_true, if_true]
      rw [runAt_bind_of_ok (runAt_discard_advance passed), runAt_pure]
    rw [runAt_bind_of_ok opened, runAt_bind_of_ok listed, runAt_pure]
  · obtain ⟨last, facesLast, depthLast, count, offers⟩ :=
      supplies facesFirst isClosing notComma depthInside
    obtain ⟨kindClosing, -, after, passed, facesAfter, depthAfter, fewerAfter, -⟩ :=
      facesLast.step (.symbol closing) ends closes.answers
    -- The first item does not look like an empty list.
    have unclosed := ((starts closed).current facesFirst).2 closing isClosing
    have enough : values.length ≤ first.remaining + 1 := by omega
    have listed := offers.listUntil unclosed enough kindClosing passed
    have fewerLast : last.remaining ≤ first.remaining := by
      have positive := offers.length_pos
      omega
    refine ⟨after, facesAfter, depthAfter.trans depthLast, by omega, ?_⟩
    rw [runAt_bind_of_ok opened]
    exact listed.bind

end Items

/-! ### Containers -/

theorem Reaches.deeper {reader : Parse Node}
    (inside : Reaches justified maximum (depth + 1) reader chars node) :
    Reaches justified maximum depth (deeper reader) chars node := by
  intro cursor rest faces closes sameDepth
  have facesInside : Cursor.Faces { cursor with depth := cursor.depth + 1 } (chars ++ rest) := faces
  obtain ⟨after, facesAfter, depthAfter, fewer, leads⟩ :=
    inside facesInside closes (congrArg (· + 1) sameDepth)
  refine ⟨{ after with depth := depth }, facesAfter, rfl, fewer, LeadsTo.deeper ?_⟩
  rw [← depthAfter]
  exact leads

/-- A parser that always refuses takes the place of one that passes the text. -/
theorem Reaches.refused {weaker : Prop} {otherDepth : Nat} {reader other : Parse Node}
    (reaches : Reaches justified maximum otherDepth reader chars node) (reason : weaker)
    (refuses : ∀ cursor, Refused maximum (runAt other cursor)) :
    Reaches weaker maximum depth other chars node := by
  intro cursor rest faces closes sameDepth
  have facesInside : Cursor.Faces { cursor with depth := otherDepth } (chars ++ rest) := faces
  obtain ⟨after, facesAfter, -, fewer, -⟩ := reaches facesInside closes rfl
  exact ⟨{ after with depth := depth }, facesAfter, rfl, fewer, .inr ⟨reason, refuses cursor⟩⟩

/-- The reader of a container for which the given number of levels is left. -/
def containerWithin (maximum levels : Nat) (container : Parse Node → Parse Node) : Parse Node :=
  match levels with
  | 0 => deeper (tooDeep maximum)
  | levels + 1 => deeper (container (valueWithin maximum levels))

theorem valueWithin_eq (maximum levels : Nat) :
    valueWithin maximum levels =
      value maximum (containerWithin maximum levels object)
        (containerWithin maximum levels array) := by
  cases levels <;> rfl

theorem reaches_containerWithin {container : Parse Node → Parse Node} {height : Nat}
    (inside : ∀ {depth levels}, depth + levels = maximum →
      Reaches (levels < height) maximum depth (container (valueWithin maximum levels)) chars node)
    (counted : depth + levels = maximum) :
    Reaches (levels < 1 + height) maximum depth (containerWithin maximum levels container) chars
      node := by
  cases levels with
  | zero =>
      have refuses : ∀ cursor, Refused maximum
          (runAt (deeper (tooDeep maximum) : Parse Node) cursor) :=
        fun cursor => ⟨_, _, rfl⟩
      -- The cursor after the container is the same as deep inside others.
      exact (@inside maximum 0 rfl).refused (by omega) refuses
  | succ levels =>
      have reaches := @inside (depth + 1) levels (by omega)
      exact reaches.deeper.mono (by omega)

/-- What a reader does with a symbol in front of it may be left to another. -/
theorem Reaches.of_opening {opening : Symbol} {reader other : Parse Node}
    (reaches : Reaches justified maximum depth reader (opening.text.toList ++ chars) node)
    (opens : ∀ rest, Scan.EndsBefore (.symbol opening) rest)
    (same : ∀ cursor : Cursor, cursor.current.kind = .symbol opening →
      runAt other cursor = runAt reader cursor) :
    Reaches justified maximum depth other (opening.text.toList ++ chars) node := by
  intro cursor rest faces closes sameDepth
  obtain ⟨after, facesAfter, depthAfter, fewer, leads⟩ := reaches faces closes sameDepth
  rw [List.append_assoc] at faces
  have kind := faces.current_kind (.symbol opening) (opens _)
  exact ⟨after, facesAfter, depthAfter, fewer, by rwa [same cursor kind]⟩

theorem reaches_object {members : List (Member Node)}
    (inside : members = [] ∧ Blanks chars ∨
      (∀ {depth levels}, depth + levels = maximum →
        Supplies (levels < Node.nestingOfMembers members) maximum depth
          (member (valueWithin maximum levels)) chars members) ∧
      ∀ {rest}, Closes rest → Starts (chars ++ rest))
    (counted : depth + levels = maximum) :
    Reaches (levels < (Node.object members).nesting) maximum depth (valueWithin maximum levels)
      ('{' :: (chars ++ ['}'])) (.object members) := by
  have reaches : Reaches (levels < 1 + Node.nestingOfMembers members) maximum depth
      (containerWithin maximum levels object) (Symbol.leftBrace.text.toList ++ (chars ++ ['}']))
      (.object members) := by
    refine reaches_containerWithin (fun counted => ?_) counted
    refine Supplies.reaches_brackets .leftBrace .rightBrace (.inr (.inl rfl)) (by decide)
      (fun _ => trivial) Node.object ?_
    exact inside.imp_right fun found => ⟨found.1 counted, found.2⟩
  rw [valueWithin_eq]
  refine reaches.of_opening (fun _ => trivial) ?_
  intro cursor kind
  simp only [value, runAt_get_bind, kind]

theorem reaches_array {nodes : List Node}
    (inside : nodes = [] ∧ Blanks chars ∨
      (∀ {depth levels}, depth + levels = maximum →
        Supplies (levels < Node.nestingOfElements nodes) maximum depth
          (valueWithin maximum levels) chars nodes) ∧
      ∀ {rest}, Closes rest → Starts (chars ++ rest))
    (counted : depth + levels = maximum) :
    Reaches (levels < (Node.array nodes).nesting) maximum depth (valueWithin maximum levels)
      ('[' :: (chars ++ [']'])) (.array nodes) := by
  have reaches : Reaches (levels < 1 + Node.nestingOfElements nodes) maximum depth
      (containerWithin maximum levels array) (Symbol.leftBracket.text.toList ++ (chars ++ [']']))
      (.array nodes) := by
    refine reaches_containerWithin (fun counted => ?_) counted
    refine Supplies.reaches_brackets .leftBracket .rightBracket (.inr (.inr rfl)) (by decide)
      (fun _ => trivial) Node.array ?_
    exact inside.imp_right fun found => ⟨found.1 counted, found.2⟩
  rw [valueWithin_eq]
  refine reaches.of_opening (fun _ => trivial) ?_
  intro cursor kind
  simp only [value, runAt_get_bind, kind]

/-! ### Every phrase -/

theorem reaches_member {name after : List Char} {key : String} {reader : Parse Node}
    (isString : IsString name key) (blankAfter : Blanks after)
    (reaches : Reaches justified maximum depth reader chars node)
    (starts : ∀ {rest}, Closes rest → Starts (chars ++ rest)) :
    Reaches justified maximum depth (member reader) (name ++ (after ++ ':' :: chars))
      ⟨key, node⟩ := by
  intro cursor rest faces closes sameDepth
  have begins := starts closes
  simp only [List.append_assoc, List.cons_append] at faces
  have answersColon : Answers (after ++ ':' :: (chars ++ rest)) :=
    @answers_of_written after [':'] (chars ++ rest) _ blankAfter (.symbol .colon) trivial
  obtain ⟨kind, -, second, moved, facesSecond, depthSecond, fewer, -⟩ :=
    faces.step isString.written trivial answersColon
  obtain ⟨kindColon, -, third, passed, facesThird, depthThird, fewerThird, -⟩ :=
    @Cursor.Faces.step _ [':'] _ _ (facesSecond.of_blanks blankAfter) (.symbol .colon) trivial
      begins.answers
  obtain ⟨last, facesLast, depthLast, fewerLast, leads⟩ :=
    reaches facesThird closes (depthThird.trans (depthSecond.trans sameDepth))
  refine ⟨last, facesLast, depthLast, by omega, ?_⟩
  unfold member
  rw [runAt_bind_of_ok (runAt_jsonString kind moved)]
  dsimp only
  rw [runAt_bind_of_ok (runAt_expect kindColon passed)]
  exact leads.bind

/-- What the parser does with a text of each phrase inside `depth` containers,
with `levels` more levels to go. -/
def Reads (maximum depth levels : Nat) : Phrase → List Char → Prop
  | .value node, chars | .element node, chars =>
      Reaches (levels < node.nesting) maximum depth (valueWithin maximum levels) chars node
  | .member property, chars =>
      Reaches (levels < property.value.nesting) maximum depth
        (member (valueWithin maximum levels)) chars property
  | .elements nodes, chars =>
      Supplies (levels < Node.nestingOfElements nodes) maximum depth
        (valueWithin maximum levels) chars nodes
  | .members members, chars =>
      Supplies (levels < Node.nestingOfMembers members) maximum depth
        (member (valueWithin maximum levels)) chars members

theorem reads_scalar (reaches : ∀ object array : Parse Node,
      Reaches (levels < node.nesting) maximum depth (value maximum object array) chars node) :
    Reads maximum depth levels (.value node) chars := by
  unfold Reads
  rw [valueWithin_eq]
  exact reaches _ _

/-- Every text of the grammar is read as what it stands for. -/
theorem Spells.reads {phrase : Phrase} (spells : Spells phrase chars)
    (counted : depth + levels = maximum) : Reads maximum depth levels phrase chars := by
  induction spells generalizing depth levels with
  | true => exact reads_scalar fun _ _ => reaches_boolean _ written_true
  | false => exact reads_scalar fun _ _ => reaches_boolean _ written_false
  | null => exact reads_scalar fun _ _ => reaches_null
  | number isNumber known =>
      obtain ⟨sign, digits, rfl, rfl | rfl, unsigned, noZero⟩ := isNumber_iff.mp isNumber
      · exact reads_scalar fun _ _ => reaches_unsigned unsigned noZero known
      · exact reads_scalar fun _ _ => reaches_negative unsigned noZero known
  | string isString plain => exact reads_scalar fun _ _ => reaches_string isString plain
  | template isString found accepted =>
      have inner := (parseExpression_eq_ok_iff.mp accepted).1
      exact reads_scalar fun _ _ => reaches_template counted isString found inner
  | emptyObject blank => exact reaches_object (.inl ⟨rfl, blank⟩) counted
  | object spells ih => exact reaches_object (.inr ⟨ih, spells.starts⟩) counted
  | emptyArray blank => exact reaches_array (.inl ⟨rfl, blank⟩) counted
  | array spells ih => exact reaches_array (.inr ⟨ih, spells.starts⟩) counted
  | element blankBefore _ blankAfter ih =>
      exact ((ih counted).before_blanks blankAfter).of_blanks blankBefore
  | member blankBefore isString blankAfter spells ih =>
      exact (reaches_member isString blankAfter (ih counted) spells.starts).of_blanks blankBefore
  | lastElement _ ih => exact (ih counted).supplies.mono (by simp [Node.nestingOfElements])
  | lastMember _ ih => exact (ih counted).supplies.mono (by simp [Node.nestingOfMembers])
  | nextElement _ spells ih ihMore | nextMember _ spells ih ihMore =>
      exact (ih counted).supplies_cons (ihMore counted) spells.starts

end TemplatedJson.JsonText
