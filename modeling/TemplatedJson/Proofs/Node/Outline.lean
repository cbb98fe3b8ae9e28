import TemplatedJson.Proofs.Layout.Fits
import TemplatedJson.Proofs.Node.Printing

/-!
# Outlines of JSON values

Both printed texts of a JSON value are those of its outline, whose leaves are the tokens
of literals, keys and templates.  A value that was read has leaves that the lexer can
tell apart and that hold no line feeds.
-/

namespace TemplatedJson

open Layout
open Token (Shape)

/-- The token of a string in double quotes. -/
def quotedShape (content : String) : Shape :=
  (.string content .double, Quoted.quote content)

/-- The tokens of a literal.  The minus sign of a number is one of its own. -/
def Literal.shapes (literal : Literal) : List Shape :=
  match literal.value with
  | .string content => [(.string content .double, literal.raw)]
  | .number _ =>
      match literal.raw.toList with
      | '-' :: digits => [shapeOf .minus, (.number, String.ofList digits)]
      | _ => [(.number, literal.raw)]
  | .boolean value => [(.boolean value, literal.raw)]
  | .null => [(.null, literal.raw)]

/-- A literal is written as it was read. -/
theorem Literal.write_shapes (style : Style) (literal : Literal) :
    write lexemes style (literal.shapes.map .leaf) = literal.raw.toList := by
  unfold shapes
  split
  · simp
  · split
    · next digits text => simp [shapeOf, Symbol.text, text]
    · simp
  · simp
  · simp

namespace Node

mutual

/-- What a value is written with. -/
def outline : Node → Outline Shape
  | object members => .object (memberOutlines members)
  | array elements => .array (elementOutlines elements)
  | literal leaf => .single leaf.shapes
  | template expression => .single [quotedShape ("=" ++ expression.source)]

def memberOutlines : List (Member Node) → List (Shape × Outline Shape)
  | [] => []
  | ⟨key, value⟩ :: rest => (quotedShape key, value.outline) :: memberOutlines rest

def elementOutlines : List Node → List (Outline Shape)
  | [] => []
  | first :: rest => first.outline :: elementOutlines rest

end

theorem elementOutlines_eq_map (elements : List Node) :
    elementOutlines elements = elements.map outline := by
  induction elements with
  | nil => rfl
  | cons first rest ih => rw [elementOutlines, ih, List.map_cons]

theorem memberOutlines_eq_map (members : List (Member Node)) :
    memberOutlines members =
      members.map fun member => (quotedShape member.key, member.value.outline) := by
  induction members with
  | nil => rfl
  | cons first rest ih => rw [memberOutlines, ih, List.map_cons]

/-- What holds of the values without parts, and of each container if it holds of the
values in it, holds of all values. -/
theorem induction {motive : Node → Prop} (literal : ∀ leaf, motive (.literal leaf))
    (template : ∀ expression, motive (.template expression))
    (array : ∀ elements, (∀ element ∈ elements, motive element) → motive (.array elements))
    (object : ∀ members, (∀ member ∈ members, motive member.value) → motive (.object members))
    (node : Node) : motive node :=
  @Node.rec motive (fun members => ∀ member ∈ members, motive member.value)
    (fun elements => ∀ element ∈ elements, motive element) (fun member => motive member.value)
    object array literal template
    (List.forall_mem_nil _) (fun _ _ first rest => List.forall_mem_cons.mpr ⟨first, rest⟩)
    (List.forall_mem_nil _) (fun _ _ first rest => List.forall_mem_cons.mpr ⟨first, rest⟩)
    (fun _ _ value => value) node

/-! ### Texts -/

theorem write_template (style : Style) (expression : Expr) :
    write lexemes style [.leaf (quotedShape ("=" ++ expression.source))] =
      (templateSource expression).toList := by
  simp [quotedShape, JsonText.templateSource_eq]

theorem write_compact (node : Node) (level : Nat) :
    write lexemes .compact (node.outline.pieces lexemes level) = node.source.toList := by
  induction node using Node.induction generalizing level with
  | literal leaf => exact leaf.write_shapes .compact
  | template expression => exact write_template .compact expression
  | array elements ih =>
      rw [outline, elementOutlines_eq_map, Outline.pieces, Outline.elementPieces_eq_map,
        List.map_map, source, JsonText.elementSources_eq_map]
      exact write_enclosed_compact level .leftBracket .rightBracket elements source
        fun element found => ih element found (level + 1)
  | object members ih =>
      rw [outline, memberOutlines_eq_map, Outline.pieces, Outline.memberPieces_eq_map,
        List.map_map, source, JsonText.memberSources_eq_map]
      refine write_enclosed_compact level .leftBrace .rightBrace members _ ?_
      intro member found
      have printed := ih member found (level + 1)
      simp [Outline.member, Style.space, shapeOf, Symbol.text, quotedShape, printed]

theorem write_indented (node : Node) (level : Nat) :
    write lexemes .indented (node.outline.pieces lexemes level) =
      (node.indentedSource level).toList := by
  induction node using Node.induction generalizing level with
  | literal leaf =>
      rw [indentedSource]
      exact leaf.write_shapes .indented
  | template expression =>
      rw [indentedSource]
      exact write_template .indented expression
  | array elements ih =>
      cases elements with
      | nil =>
          rw [outline, elementOutlines, indentedSource]
          rfl
      | cons first rest =>
          rw [outline, elementOutlines_eq_map, Outline.pieces, Outline.elementPieces_eq_map,
            List.map_map, indentedSource, JsonText.indentedElements_eq_map]
          exact write_enclosed_indented level .leftBracket .rightBracket first rest _
            fun element found => ih element found (level + 1)
  | object members ih =>
      cases members with
      | nil =>
          rw [outline, memberOutlines, indentedSource]
          rfl
      | cons first rest =>
          rw [outline, memberOutlines_eq_map, Outline.pieces, Outline.memberPieces_eq_map,
            List.map_map, indentedSource, JsonText.indentedMembers_eq_map]
          refine write_enclosed_indented level .leftBrace .rightBrace first rest _ ?_
          intro member found
          have printed := ih member found (level + 1)
          simp [Outline.member, Style.space, shapeOf, Symbol.text, quotedShape, printed]

end Node

/-! ### Leaves -/

namespace JsonText

variable {phrase : Phrase} {chars : List Char} {content : String}

theorem IsString.ordinary (isString : IsString chars content) :
    Ordinary (.string content .double, String.ofList chars) := by
  refine ordinary_of_written ?_ (by simp) ?_
  · rw [String.toList_ofList]
    exact isString.written
  · rintro _ _ ⟨⟩
    rfl

theorem named_quotedShape (content : String) : Named (quotedShape content) := by
  have ordinary := (isString_quote content).ordinary
  rw [String.ofList_toList] at ordinary
  exact ⟨ordinary, content, rfl⟩

theorem ordinary_number (unsigned : Unsigned chars) :
    Ordinary (.number, String.ofList chars) := by
  refine ordinary_of_written ?_ (by simp) (by simp)
  rw [String.toList_ofList]
  exact .number unsigned

theorem not_unsigned_minus (rest : List Char) : ¬ Unsigned ('-' :: rest) := by
  rintro ⟨_ | ⟨first, others⟩, _, _, same, ⟨nonempty, digits⟩, -⟩
  · exact nonempty rfl
  · rw [List.cons_append, List.cons.injEq] at same
    have isDigit := digits first List.mem_cons_self
    rw [← same.1] at isDigit
    exact absurd isDigit (by decide)

/-- A number is written with one token, or with two if it is negative. -/
theorem IsNumber.sound (isNumber : IsNumber chars) (value : Number) :
    Sound (Literal.shapes ⟨.number value, String.ofList chars⟩) := by
  obtain ⟨sign, digits, rfl, rfl | rfl, unsigned, -⟩ := isNumber_iff.mp isNumber
  · refine ⟨_, ordinary_number unsigned, .inl ?_⟩
    simp only [Literal.shapes, List.nil_append, String.toList_ofList]
    split
    · exact absurd unsigned (not_unsigned_minus _)
    · rfl
  · refine ⟨_, ordinary_number unsigned, .inr ?_⟩
    simp [Literal.shapes]

/-- The leaves of what was read are tokens that fit on a line. -/
theorem Spells.sound (spells : Spells phrase chars) :
    ∀ node ∈ phrase.nodes, node.outline.Each Sound Named := by
  have word : ∀ {kind : Token.Kind} {text : String}, Scan.Written kind text.toList →
      (∀ symbol, kind ≠ .symbol symbol) → (∀ content quote, kind ≠ .string content quote) →
        Sound [(kind, text)] :=
    fun written noSymbol noString => ⟨_, ordinary_of_written written noSymbol
      fun content quote same => absurd same (noString content quote), .inl rfl⟩
  induction spells with
  | true => simpa [Phrase.nodes] using .single (word written_true (by simp) (by simp))
  | false => simpa [Phrase.nodes] using .single (word written_false (by simp) (by simp))
  | null => simpa [Phrase.nodes] using .single (word written_null (by simp) (by simp))
  | number isNumber _ => simpa [Phrase.nodes] using .single (isNumber.sound _)
  | string isString _ => simpa [Phrase.nodes] using .single ⟨_, isString.ordinary, .inl rfl⟩
  | @template _ _ _ tree _ _ _ _ =>
      have named := named_quotedShape ("=" ++ tree.source)
      simpa [Phrase.nodes] using .single ⟨_, named.1, .inl rfl⟩
  | emptyObject =>
      simpa [Phrase.nodes] using .object (List.forall_mem_nil _) (List.forall_mem_nil _)
  | emptyArray => simpa [Phrase.nodes] using .array (List.forall_mem_nil _)
  | @object members _ _ ih =>
      simp only [Phrase.nodes, List.mem_singleton, forall_eq]
      rw [Node.outline, Node.memberOutlines_eq_map]
      refine .object (List.forall_mem_map.mpr ?_) (List.forall_mem_map.mpr ?_)
      · exact fun member _ => named_quotedShape member.key
      · exact fun member found => ih _ (List.mem_map_of_mem found)
  | array _ ih =>
      simp only [Phrase.nodes, List.mem_singleton, forall_eq]
      rw [Node.outline, Node.elementOutlines_eq_map]
      exact .array (List.forall_mem_map.mpr ih)
  | element _ _ _ ih | member _ _ _ _ ih | lastElement _ ih | lastMember _ ih => exact ih
  | nextElement _ _ ih ihMore | nextMember _ _ ih ihMore =>
      exact List.forall_mem_cons.mpr ⟨ih _ List.mem_cons_self, ihMore⟩

end JsonText

end TemplatedJson
