import TemplatedJson.Json.Text
import TemplatedJson.Proofs.Layout.Readable

/-!
# Outlines of plain JSON

Both printed texts of a plain JSON value are those of its outline.  The outline keeps
the texts of numbers and strings and forgets the values of numbers, which their texts do
not tell.
-/

namespace TemplatedJson

/-! ### Texts of numbers -/

namespace Number

open Layout (isWordPart IsWord)

theorem isWordPart_of_isDigit {digit : Char} (isDigit : digit.isDigit) : isWordPart digit := by
  simp [isWordPart, Char.isAlphanum, isDigit]

theorem isWordPart_toDigits (number : Nat) : ∀ part ∈ Nat.toDigits 10 number, isWordPart part :=
  fun _ member =>
    isWordPart_of_isDigit (Nat.isDigit_of_mem_toDigits (by decide) (by decide) member)

theorem isWord_integer (value : Int) : IsWord (toString value) := by
  have natural : ∀ number : Nat, (toString number).toList = Nat.toDigits 10 number := by
    simp [Nat.toString_eq_repr, Nat.toList_repr]
  cases value with
  | ofNat number =>
      have text : (toString (Int.ofNat number)).toList = Nat.toDigits 10 number := natural number
      exact ⟨text ▸ Nat.toDigits_ne_nil, text ▸ isWordPart_toDigits number⟩
  | negSucc number =>
      have text : (toString (Int.negSucc number)).toList = '-' :: Nat.toDigits 10 (number + 1) := by
        rw [← natural, show toString (Int.negSucc number) = "-" ++ toString (number + 1) from rfl]
        simp
      refine ⟨text ▸ List.cons_ne_nil _ _, ?_⟩
      rw [text]
      exact List.forall_mem_cons.mpr ⟨by decide, isWordPart_toDigits _⟩

/-- Positional notation has a point between two digits. -/
theorem isWordPart_positional {digits : List Char} (parts : ∀ part ∈ digits, isWordPart part)
    (exponent : Int) :
    positional digits exponent ≠ [] ∧ ∀ part ∈ positional digits exponent, isWordPart part := by
  have zeros : ∀ count, ∀ part ∈ List.replicate count '0', isWordPart part := by
    intro count part member
    rw [List.eq_of_mem_replicate member]
    decide
  unfold positional
  split
  · refine ⟨by simp, ?_⟩
    simp only [List.forall_mem_append]
    exact ⟨⟨parts, zeros _⟩, List.all_eq_true.mp (by decide)⟩
  · have padded : ∀ part ∈ List.replicate ((-exponent).toNat + 1 - digits.length) '0' ++ digits,
        isWordPart part := List.forall_mem_append.mpr ⟨zeros _, parts⟩
    refine ⟨by simp, List.forall_mem_append.mpr ⟨?_, List.forall_mem_cons.mpr ⟨by decide, ?_⟩⟩⟩
    · exact fun part member => padded part (List.mem_of_mem_take member)
    · exact fun part member => padded part (List.mem_of_mem_drop member)

theorem isWordPart_scientific {digits : List Char} (parts : ∀ part ∈ digits, isWordPart part)
    (leading : Int) :
    scientific digits leading ≠ [] ∧ ∀ part ∈ scientific digits leading, isWordPart part := by
  have power : ∀ part ∈ 'e' :: (if leading < 0 then '-' else '+') :: Nat.toDigits 10 leading.natAbs,
      isWordPart part := by
    have digits := isWordPart_toDigits leading.natAbs
    refine List.forall_mem_cons.mpr ⟨by decide, List.forall_mem_cons.mpr ⟨?_, digits⟩⟩
    split <;> decide
  unfold scientific
  dsimp only
  split
  · next first second more =>
      obtain ⟨firstPart, others⟩ := List.forall_mem_cons.mp parts
      refine ⟨by simp, List.forall_mem_append.mpr ⟨?_, power⟩⟩
      exact List.forall_mem_cons.mpr ⟨firstPart, List.forall_mem_cons.mpr ⟨by decide, others⟩⟩
  · exact ⟨by simp, List.forall_mem_append.mpr ⟨parts, power⟩⟩

theorem isWordPart_magnitudeText (value : Binary64) :
    magnitudeText value ≠ [] ∧ ∀ part ∈ magnitudeText value, isWordPart part := by
  have trimmed : ∀ part ∈ value.shortest.trimmedDigits.1, isWordPart part := by
    intro part member
    have kept := (List.dropWhile_sublist _).subset (List.mem_reverse.mp member)
    exact isWordPart_toDigits _ part (List.mem_reverse.mp kept)
  unfold magnitudeText
  split
  · exact ⟨List.cons_ne_nil _ _, List.all_eq_true.mp (by decide)⟩
  · dsimp only
    split
    · exact isWordPart_positional trimmed _
    · exact isWordPart_scientific trimmed _

/-- The text of a number is a word. -/
theorem isWord_text (number : Number) : IsWord number.text := by
  cases number with
  | integer value => exact isWord_integer value
  | float value =>
      obtain ⟨nonempty, parts⟩ := isWordPart_magnitudeText value
      unfold text IsWord
      rw [String.toList_ofList]
      split
      · exact ⟨List.cons_ne_nil _ _, List.forall_mem_cons.mpr ⟨by decide, parts⟩⟩
      · exact ⟨nonempty, parts⟩

end Number

namespace Json

open Layout

/-! ### Texts of strings -/

/-- An escaped character spells itself. -/
theorem spells_escapeCharacter (value : Char) :
    Quote.double.Spells (escapeCharacter value) value := by
  unfold escapeCharacter
  iterate 7
    split
    · next same =>
        subst same
        exact .short (by decide) rfl
  next notQuote notBackslash _ _ _ _ _ =>
  split
  · next control =>
      have small : value.toNat < 0x20 := control
      exact .unit (codeUnit_hexDigitAt (by omega))
  · next notControl => exact .plain notQuote notBackslash fun _ => Char.not_lt.mp notControl

theorem spellsAll_escape (values : List Char) :
    Quote.double.SpellsAll (values.flatMap escapeCharacter) values :=
  .flatMap spells_escapeCharacter values

theorem toList_quote (content : String) :
    (quote content).toList = '\x22' :: (content.toList.flatMap escapeCharacter ++ ['\x22']) := by
  simp [quote]

theorem isQuoted_quote (content : String) : IsQuoted (quote content) :=
  ⟨_, _, toList_quote content, spellsAll_escape content.toList⟩

/-- Different strings are quoted differently. -/
@[simp]
theorem quote_inj {first second : String} : quote first = quote second ↔ first = second := by
  refine ⟨fun same => ?_, congrArg quote⟩
  have texts := congrArg String.toList same
  simp only [toList_quote, List.cons.injEq, true_and] at texts
  obtain ⟨-, values, -⟩ :=
    spellsAll_unique (spellsAll_escape first.toList) (spellsAll_escape second.toList) texts
  exact String.toList_inj.mp values

/-! ### Outlines -/

mutual

/-- What the texts of a value tell about it. -/
def outline : Json → Outline String
  | null => .single ["null"]
  | boolean value => .single [booleanText value]
  | number value => .single [value.text]
  | string content => .single [quote content]
  | array elements => .array (elementOutlines elements)
  | object members => .object (memberOutlines members)

def elementOutlines : List Json → List (Outline String)
  | [] => []
  | first :: rest => first.outline :: elementOutlines rest

def memberOutlines : List (Member Json) → List (String × Outline String)
  | [] => []
  | ⟨key, value⟩ :: rest => (quote key, value.outline) :: memberOutlines rest

end

theorem elementOutlines_eq_map (elements : List Json) :
    elementOutlines elements = elements.map outline := by
  induction elements with
  | nil => rfl
  | cons first rest ih => rw [elementOutlines, ih, List.map_cons]

theorem memberOutlines_eq_map (members : List (Member Json)) :
    memberOutlines members =
      members.map fun member => (quote member.key, member.value.outline) := by
  induction members with
  | nil => rfl
  | cons first rest ih => rw [memberOutlines, ih, List.map_cons]

theorem compactElements_eq_map (elements : List Json) :
    compactElements elements = elements.map compact := by
  induction elements with
  | nil => rfl
  | cons first rest ih => rw [compactElements, ih, List.map_cons]

theorem compactMembers_eq_map (members : List (Member Json)) :
    compactMembers members = members.map fun member =>
      quote member.key ++ ":" ++ member.value.compact := by
  induction members with
  | nil => rfl
  | cons first rest ih => rw [compactMembers, ih, List.map_cons]

theorem indentedElements_eq_map (level : Nat) (elements : List Json) :
    indentedElements level elements = elements.map (indented level) := by
  induction elements with
  | nil => rfl
  | cons first rest ih => rw [indentedElements, ih, List.map_cons]

theorem indentedMembers_eq_map (level : Nat) (members : List (Member Json)) :
    indentedMembers level members = members.map fun member =>
      quote member.key ++ ": " ++ member.value.indented level := by
  induction members with
  | nil => rfl
  | cons first rest ih => rw [indentedMembers, ih, List.map_cons]

/-- What holds of the values without parts, and of each container if it holds of the
values in it, holds of all values. -/
theorem induction {motive : Json → Prop} (null : motive null)
    (boolean : ∀ value, motive (.boolean value)) (number : ∀ value, motive (.number value))
    (string : ∀ content, motive (.string content))
    (array : ∀ elements, (∀ element ∈ elements, motive element) → motive (.array elements))
    (object : ∀ members, (∀ member ∈ members, motive member.value) → motive (.object members))
    (value : Json) : motive value :=
  @Json.rec motive (fun elements => ∀ element ∈ elements, motive element)
    (fun members => ∀ member ∈ members, motive member.value) (fun member => motive member.value)
    null boolean number string array object
    (List.forall_mem_nil _) (fun _ _ first rest => List.forall_mem_cons.mpr ⟨first, rest⟩)
    (List.forall_mem_nil _) (fun _ _ first rest => List.forall_mem_cons.mpr ⟨first, rest⟩)
    (fun _ _ value => value) value

/-- The leaves of plain JSON are words and quoted strings. -/
theorem plain_outline (value : Json) : value.outline.Plain := by
  induction value using Json.induction with
  | null => exact .single ⟨_, rfl, .inl (by decide)⟩
  | boolean value => exact .single ⟨_, rfl, .inl (by cases value <;> decide)⟩
  | number value => exact .single ⟨_, rfl, .inl value.isWord_text⟩
  | string content => exact .single ⟨_, rfl, .inr (isQuoted_quote content)⟩
  | array elements ih =>
      rw [outline, elementOutlines_eq_map]
      exact .array (List.forall_mem_map.mpr ih)
  | object members ih =>
      rw [outline, memberOutlines_eq_map]
      refine .object (List.forall_mem_map.mpr ?_) (List.forall_mem_map.mpr ih)
      exact fun member _ => .inr (isQuoted_quote member.key)

/-! ### Texts -/

theorem toList_compact (value : Json) (level : Nat) :
    write words .compact (value.outline.pieces words level) = value.compact.toList := by
  induction value using Json.induction generalizing level with
  | array elements ih =>
      rw [outline, elementOutlines_eq_map, Outline.pieces, Outline.elementPieces_eq_map,
        List.map_map, compact, compactElements_eq_map]
      exact write_enclosed_compact level .leftBracket .rightBracket elements compact
        fun element found => ih element found (level + 1)
  | object members ih =>
      rw [outline, memberOutlines_eq_map, Outline.pieces, Outline.memberPieces_eq_map,
        List.map_map, compact, compactMembers_eq_map]
      refine write_enclosed_compact level .leftBrace .rightBrace members _ ?_
      intro member found
      have printed := ih member found (level + 1)
      simp [Outline.member, Style.space, Symbol.text, printed]
  | _ => simp [outline, Outline.pieces, compact]

theorem toList_indented (value : Json) (level : Nat) :
    write words .indented (value.outline.pieces words level) = (value.indented level).toList := by
  induction value using Json.induction generalizing level with
  | array elements ih =>
      cases elements with
      | nil =>
          rw [outline, elementOutlines, indented]
          rfl
      | cons first rest =>
          rw [outline, elementOutlines_eq_map, Outline.pieces, Outline.elementPieces_eq_map,
            List.map_map, indented, indentedElements_eq_map]
          exact write_enclosed_indented level .leftBracket .rightBracket first rest _
            fun element found => ih element found (level + 1)
  | object members ih =>
      cases members with
      | nil =>
          rw [outline, memberOutlines, indented]
          rfl
      | cons first rest =>
          rw [outline, memberOutlines_eq_map, Outline.pieces, Outline.memberPieces_eq_map,
            List.map_map, indented, indentedMembers_eq_map]
          refine write_enclosed_indented level .leftBrace .rightBrace first rest _ ?_
          intro member found
          have printed := ih member found (level + 1)
          simp [Outline.member, Style.space, Symbol.text, printed]
  | _ => simp [outline, Outline.pieces, indented]

/-- Values with the same text in either style have the same outline. -/
theorem outline_eq_of_text {first second : Json}
    (same : first.compact = second.compact ∨ first.pretty = second.pretty) :
    first.outline = second.outline := by
  rcases same with same | same
  · have texts := congrArg String.toList same
    rw [← toList_compact first 0, ← toList_compact second 0] at texts
    exact (plain_outline first).eq_of_text (plain_outline second) texts
  · have texts := congrArg String.toList same
    rw [pretty, pretty, ← toList_indented first 0, ← toList_indented second 0] at texts
    exact (plain_outline first).eq_of_text (plain_outline second) texts

end Json

end TemplatedJson
