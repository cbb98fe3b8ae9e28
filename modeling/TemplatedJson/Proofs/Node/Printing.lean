import TemplatedJson.Node.Source
import TemplatedJson.Proofs.Expr.Printing
import TemplatedJson.Proofs.Node.Grammar
import TemplatedJson.Proofs.Node.Lexical

/-!
# Printed JSON values

Whatever value a text of the grammar stands for, both printed texts of the value
belong to the grammar and stand for it.  Literals are printed as they were
written, keys are escaped anew, and a template is printed as an inline one,
whatever its form was.
-/

namespace TemplatedJson.JsonText

variable {chars before after gap : List Char} {node : Node}

/-! ### Strings -/

/-- A text in quotes, with escapes where they are needed, is a string with that
text. -/
theorem isString_quote (content : String) : IsString (Quoted.quote content).toList content := by
  have spells := spellsAll_double_iff.mp (spellsAll_escape content.toList)
  refine ⟨_, ?_, spells⟩
  simp [Quoted.quote, Quoted.escape]

/-- The equals sign of an inline template needs no escape. -/
theorem templateSource_eq (tree : Expr) :
    Node.templateSource tree = Quoted.quote ("=" ++ tree.source) := by
  have equals : Quoted.escapeCharacter '=' = ['='] := by decide
  apply String.toList_inj.mp
  simp [Node.templateSource, Quoted.quote, Quoted.escape, equals]

/-- A printed template is an inline one that holds the printed expression. -/
theorem spells_templateSource {tree : Expr} {text : String} (spells : Expr.Spells text tree) :
    Spells (.value (.template tree)) (Node.templateSource tree).toList := by
  rw [templateSource_eq]
  have isString := isString_quote ("=" ++ tree.source)
  have found : Template.detect? ("=" ++ tree.source) = some ⟨.inline, tree.source, 1⟩ := by
    simp [Template.detect?]
  have accepted : parseExpression tree.source ⟨tree.height⟩ = .ofExcept (.ok tree) :=
    parseExpression_eq_ok_iff.mpr ⟨spells.source, Nat.le_refl _⟩
  exact .template isString found accepted

/-! ### Items between commas -/

theorem Spells.alone (spells : Spells (.value node) chars) : Spells (.element node) chars := by
  simpa using Spells.element blanks_nil spells blanks_nil

/-- More blanks may surround an element. -/
theorem Spells.surround (spells : Spells (.element node) chars) (blankBefore : Blanks before)
    (blankAfter : Blanks after) : Spells (.element node) (before ++ (chars ++ after)) := by
  cases spells with
  | element blankFirst value blankLast =>
      have wider := Spells.element (blankBefore.append blankFirst) value
        (blankLast.append blankAfter)
      simpa using wider

theorem Spells.surround_member {property : Member Node} (spells : Spells (.member property) chars)
    (blankBefore : Blanks before) (blankAfter : Blanks after) :
    Spells (.member property) (before ++ (chars ++ after)) := by
  cases spells with
  | member blankFirst isString blankName value =>
      have wider := Spells.member (blankBefore.append blankFirst) isString blankName
        (value.surround blanks_nil blankAfter)
      simpa using wider

section Containers

variable {Item : Type} {one : Item → Phrase} {many : List Item → Phrase} {items : List Item}

/-- Printed items are joined by commas, with any blanks before, between and after
them. -/
theorem spells_intercalate
    (last : ∀ {item chars}, Spells (one item) chars → Spells (many [item]) chars)
    (next : ∀ {item items chars more}, Spells (one item) chars → Spells (many items) more →
      Spells (many (item :: items)) (chars ++ ',' :: more))
    (surround : ∀ {item chars before after}, Spells (one item) chars → Blanks before →
      Blanks after → Spells (one item) (before ++ (chars ++ after)))
    (text : Item → List Char) (nonempty : items ≠ [])
    (each : ∀ item ∈ items, Spells (one item) (text item)) (blankBefore : Blanks before)
    (blankGap : Blanks gap) (blankAfter : Blanks after) :
    Spells (many items) (before ++ (List.intercalate (',' :: gap) (items.map text) ++ after)) := by
  induction items generalizing before with
  | nil => exact absurd rfl nonempty
  | cons item items ih =>
      have first := each item List.mem_cons_self
      cases items with
      | nil =>
          have alone := last (surround first blankBefore blankAfter)
          simpa using alone
      | cons second others =>
          -- The gap behind a comma becomes the blanks before the items that are left.
          have rest := ih (by simp) (fun item member => each item (List.mem_cons_of_mem _ member))
            blankGap
          have joined := next (surround first blankBefore blanks_nil) rest
          simpa [List.intercalate_cons_cons] using joined

theorem blanks_indentation (level : Nat) : Blanks (Layout.indentation level).toList := by
  unfold Layout.indentation
  rw [String.toList_ofList]
  intro blank member
  rw [List.eq_of_mem_replicate member]
  rfl

theorem blanks_newline : Blanks ['\n'] := by
  simp [Blanks, Unicode.isJsonBlank]

/-- The items of a container are printed between its brackets, on one line or on
a line for each. -/
theorem spells_layouts
    (last : ∀ {item chars}, Spells (one item) chars → Spells (many [item]) chars)
    (next : ∀ {item items chars more}, Spells (one item) chars → Spells (many items) more →
      Spells (many (item :: items)) (chars ++ ',' :: more))
    (surround : ∀ {item chars before after}, Spells (one item) chars → Blanks before →
      Blanks after → Spells (one item) (before ++ (chars ++ after)))
    {opening closing : String} {wrap : List Item → Node}
    (enclose : ∀ {chars}, Spells (many items) chars →
      Spells (.value (wrap items)) (opening.toList ++ (chars ++ closing.toList)))
    (text : Item → String) (indented : Nat → Item → String) (nonempty : items ≠ [])
    (each : ∀ item ∈ items, Spells (one item) (text item).toList ∧
      ∀ level, Spells (one item) (indented level item).toList) :
    Spells (.value (wrap items))
        (opening ++ String.intercalate "," (items.map text) ++ closing).toList ∧
      ∀ level, Spells (.value (wrap items))
        (Layout.block level opening closing (items.map (indented (level + 1)))).toList := by
  constructor
  · have spells := enclose (spells_intercalate last next surround (fun item => (text item).toList)
      nonempty (fun item member => (each item member).1) blanks_nil blanks_nil blanks_nil)
    simpa [String.toList_intercalate, Function.comp_def] using spells
  · intro level
    have eachLine : ∀ item ∈ items, Spells (one item)
        ((Layout.indentation (level + 1)).toList ++ (indented (level + 1) item).toList) := by
      intro item member
      simpa using surround ((each item member).2 (level + 1)) (blanks_indentation (level + 1))
        blanks_nil
    have spells := enclose (spells_intercalate last next surround _ nonempty eachLine
      blanks_newline blanks_newline (blanks_newline.append (blanks_indentation level)))
    simpa [Layout.block, String.toList_intercalate, Function.comp_def] using spells

end Containers

/-! ### Values -/

/-- Whether both printed texts of a value stand for it again. -/
def Printable (node : Node) : Prop :=
  Spells (.value node) node.source.toList ∧
    ∀ level, Spells (.value node) (node.indentedSource level).toList

/-- A literal is printed as it was written. -/
theorem printable_literal {leaf : Literal}
    (spells : Spells (.value (.literal leaf)) leaf.raw.toList) : Printable (.literal leaf) := by
  refine ⟨by rwa [Node.source], fun level => ?_⟩
  rwa [Node.indentedSource]

theorem printable_template {tree : Expr} {text : String} (spells : Expr.Spells text tree) :
    Printable (.template tree) := by
  have printed := spells_templateSource spells
  refine ⟨by rwa [Node.source], fun level => ?_⟩
  rwa [Node.indentedSource]

theorem elementSources_eq_map (nodes : List Node) :
    Node.elementSources nodes = nodes.map Node.source := by
  induction nodes with
  | nil => rfl
  | cons first rest ih => simp [Node.elementSources, ih]

theorem indentedElements_eq_map (level : Nat) (nodes : List Node) :
    Node.indentedElements level nodes = nodes.map fun node => node.indentedSource level := by
  induction nodes with
  | nil => rfl
  | cons first rest ih => simp [Node.indentedElements, ih]

theorem memberSources_eq_map (members : List (Member Node)) :
    Node.memberSources members = members.map fun property =>
      Quoted.quote property.key ++ ":" ++ property.value.source := by
  induction members with
  | nil => rfl
  | cons first rest ih => simp [Node.memberSources, ih]

theorem indentedMembers_eq_map (level : Nat) (members : List (Member Node)) :
    Node.indentedMembers level members = members.map fun property =>
      Quoted.quote property.key ++ ": " ++ property.value.indentedSource level := by
  induction members with
  | nil => rfl
  | cons first rest ih => simp [Node.indentedMembers, ih]

theorem printable_array {nodes : List Node} (each : ∀ node ∈ nodes, Printable node) :
    Printable (.array nodes) := by
  cases nodes with
  | nil =>
      refine ⟨.emptyArray blanks_nil, fun level => ?_⟩
      rw [Node.indentedSource]
      exact .emptyArray blanks_nil
  | cons first rest =>
      have eachElement : ∀ node ∈ first :: rest, Spells (.element node) node.source.toList ∧
          ∀ level, Spells (.element node) (node.indentedSource level).toList  := by
        intro node member
        obtain ⟨plain, indented⟩ := each node member
        exact ⟨plain.alone, fun level => (indented level).alone⟩
      obtain ⟨plain, indented⟩ := @spells_layouts _ .element .elements (first :: rest) .lastElement
        .nextElement Spells.surround "[" "]" .array .array Node.source
        (fun level node => node.indentedSource level) (List.cons_ne_nil first rest) eachElement
      constructor
      · rwa [Node.source, elementSources_eq_map]
      · intro level
        rw [Node.indentedSource, indentedElements_eq_map]
        exact indented level

/-- The key of a member is quoted, and any blanks may follow the colon. -/
theorem spells_member (key : String) (spells : Spells (.value node) chars) (blank : Blanks gap) :
    Spells (.member ⟨key, node⟩) ((Quoted.quote key).toList ++ ':' :: (gap ++ chars)) := by
  have element := Spells.element blank spells blanks_nil
  have member := Spells.member blanks_nil (isString_quote key) blanks_nil element
  simpa using member

theorem printable_object {members : List (Member Node)}
    (each : ∀ property ∈ members, Printable property.value) : Printable (.object members) := by
  cases members with
  | nil =>
      refine ⟨.emptyObject blanks_nil, fun level => ?_⟩
      rw [Node.indentedSource]
      exact .emptyObject blanks_nil
  | cons first rest =>
      have eachMember : ∀ property ∈ first :: rest,
          Spells (.member property)
            (Quoted.quote property.key ++ ":" ++ property.value.source).toList ∧
          ∀ level, Spells (.member property)
            (Quoted.quote property.key ++ ": " ++ property.value.indentedSource level).toList := by
        rintro ⟨key, node⟩ member
        obtain ⟨plain, indented⟩ := each ⟨key, node⟩ member
        refine ⟨?_, fun level => ?_⟩
        · simpa using spells_member key plain blanks_nil
        · simpa using spells_member key (indented level) blanks_space
      obtain ⟨plain, indented⟩ := @spells_layouts _ .member .members (first :: rest) .lastMember
        .nextMember Spells.surround_member "\x7b" "\x7d" .object .object _ _
        (List.cons_ne_nil first rest) eachMember
      constructor
      · rwa [Node.source, memberSources_eq_map]
      · intro level
        rw [Node.indentedSource, indentedMembers_eq_map]
        exact indented level

/-! ### All phrases -/

/-- The values at the top of a phrase. -/
def Phrase.nodes : Phrase → List Node
  | .value node | .element node => [node]
  | .member property => [property.value]
  | .elements nodes => nodes
  | .members properties => properties.map Member.value

/-- Whatever a text stands for is printable. -/
theorem Spells.printable {phrase : Phrase} (spells : Spells phrase chars) :
    ∀ node ∈ phrase.nodes, Printable node := by
  induction spells with
  | true => simpa [Phrase.nodes] using printable_literal .true
  | false => simpa [Phrase.nodes] using printable_literal .false
  | null => simpa [Phrase.nodes] using printable_literal .null
  | number isNumber known =>
      have spells := Spells.number isNumber known
      simpa [Phrase.nodes] using printable_literal (by rwa [String.toList_ofList])
  | string isString plain =>
      have spells := Spells.string isString plain
      simpa [Phrase.nodes] using printable_literal (by rwa [String.toList_ofList])
  | template isString found accepted =>
      have spells := (parseExpression_eq_ok_iff.mp accepted).1
      simpa [Phrase.nodes] using printable_template spells
  | emptyObject => simpa [Phrase.nodes] using printable_object (by simp)
  | @object members _ _ ih =>
      have each : ∀ property ∈ members, Printable property.value :=
        fun property member => ih property.value (List.mem_map_of_mem member)
      simpa [Phrase.nodes] using printable_object each
  | emptyArray => simpa [Phrase.nodes] using printable_array (by simp)
  | array _ ih => simpa [Phrase.nodes] using printable_array ih
  | element _ _ _ ih | member _ _ _ _ ih | lastElement _ ih | lastMember _ ih => exact ih
  | nextElement _ _ ih ihMore | nextMember _ _ ih ihMore =>
      exact List.forall_mem_cons.mpr ⟨ih _ List.mem_cons_self, ihMore⟩

/-- Both printed texts of an object or array that was read stand for it. -/
theorem IsText.printed (isText : IsText chars node) :
    IsText node.source.toList node ∧ ∀ level, IsText (node.indentedSource level).toList node := by
  obtain ⟨isContainer, spells⟩ := isText
  obtain ⟨plain, indented⟩ := spells.printable node List.mem_cons_self
  exact ⟨⟨isContainer, plain.alone⟩, fun level => ⟨isContainer, (indented level).alone⟩⟩

end TemplatedJson.JsonText
