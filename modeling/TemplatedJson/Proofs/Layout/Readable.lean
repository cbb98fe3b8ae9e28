import TemplatedJson.Proofs.Layout.Outline
import TemplatedJson.Proofs.Lexing.Number
import TemplatedJson.Proofs.Lexing.Spelling

/-!
# Unique readability

The leaves of plain JSON are words and quoted strings.  Each of them tells where it ends:
a word at the first character that continues no word, and a string at its closing quote.
So a written outline can be read in one way only, and nothing but the outline is needed
to tell where its text ends.
-/

namespace TemplatedJson.Layout

/-! ### Leaves -/

/-- A character of a number or of a keyword. -/
def isWordPart (character : Char) : Bool :=
  character.isAlphanum || character = '+' || character = '-' || character = '.'

def IsWord (text : String) : Prop :=
  text.toList ≠ [] ∧ ∀ part ∈ text.toList, isWordPart part

instance : DecidablePred IsWord := fun text =>
  decidable_of_iff ((!text.toList.isEmpty && text.toList.all isWordPart) = true) (by simp [IsWord])

/-- A string in double quotes whose content is spelled as the lexer reads it. -/
def IsQuoted (text : String) : Prop :=
  ∃ inside values, text.toList = '\x22' :: (inside ++ ['\x22']) ∧
    Quote.double.SpellsAll inside values

/-- Whether a text is a leaf of plain JSON. -/
def Standalone (text : String) : Prop :=
  IsWord text ∨ IsQuoted text

/-- Whether a text goes on with no word. -/
def Bounded (rest : List Char) : Prop :=
  ∀ next ∈ rest.head?, isWordPart next = false

variable {first second : String} {rest others : List Char}

theorem Standalone.begins (standalone : Standalone first) :
    ∃ head tail, first.toList = head :: tail ∧ (isWordPart head ∨ head = '\x22') := by
  rcases standalone with ⟨nonempty, parts⟩ | ⟨inside, -, quoted, -⟩
  · obtain ⟨head, tail, text⟩ := List.exists_cons_of_ne_nil nonempty
    exact ⟨head, tail, text, .inl (parts head (by simp [text]))⟩
  · exact ⟨_, _, quoted, .inr rfl⟩

theorem IsWord.unique (word : IsWord first) (other : IsWord second) (bounded : Bounded rest)
    (boundedOthers : Bounded others) (same : first.toList ++ rest = second.toList ++ others) :
    first = second ∧ rest = others := by
  have firstWord := takeWhile_append_of_stop word.2 bounded
  have secondWord := takeWhile_append_of_stop other.2 boundedOthers
  rw [same, secondWord] at firstWord
  exact ⟨String.toList_inj.mp firstWord.symm, (List.append_inj same (by rw [firstWord])).2⟩

/-- Two spellings before a quote are the same: the lexer finds the widths of both. -/
theorem spellsAll_unique {inside more : List Char} {values otherValues : List Char}
    (spells : Quote.double.SpellsAll inside values)
    (spellsMore : Quote.double.SpellsAll more otherValues)
    (same : inside ++ '\x22' :: rest = more ++ '\x22' :: others) :
    inside = more ∧ values = otherValues ∧ rest = others := by
  obtain ⟨content, read, known, width⟩ := spells.content rest
  obtain ⟨contentMore, readMore, knownMore, widthMore⟩ := spellsMore.content others
  have agree : Quote.double.character = '\x22' := rfl
  rw [agree] at read readMore
  rw [same, readMore, Prod.mk.injEq] at read
  obtain ⟨rfl, -⟩ := read
  obtain ⟨sameInside, sameRest⟩ := List.append_inj same (by omega)
  exact ⟨sameInside, known.symm.trans knownMore, (List.cons.inj sameRest).2⟩

theorem IsQuoted.unique (quoted : IsQuoted first) (other : IsQuoted second)
    (same : first.toList ++ rest = second.toList ++ others) : first = second ∧ rest = others := by
  obtain ⟨inside, values, text, spells⟩ := quoted
  obtain ⟨more, otherValues, otherText, spellsMore⟩ := other
  simp only [text, otherText, List.cons_append, List.append_assoc, List.cons.injEq, true_and,
    List.nil_append] at same
  obtain ⟨rfl, -, rfl⟩ := spellsAll_unique spells spellsMore same
  exact ⟨String.toList_inj.mp (text.trans otherText.symm), rfl⟩

/-- A leaf ends where its own text says. -/
theorem Standalone.unique (standalone : Standalone first) (other : Standalone second)
    (bounded : Bounded rest) (boundedOthers : Bounded others)
    (same : first.toList ++ rest = second.toList ++ others) : first = second ∧ rest = others := by
  rcases standalone with word | quoted <;> rcases other with otherWord | otherQuoted
  · exact word.unique otherWord bounded boundedOthers same
  · obtain ⟨head, tail, text⟩ := List.exists_cons_of_ne_nil word.1
    obtain ⟨inside, values, quotedText, -⟩ := otherQuoted
    have part := word.2 head (by simp [text])
    simp only [text, quotedText, List.cons_append, List.cons.injEq] at same
    rw [same.1] at part
    exact absurd part (by decide)
  · obtain ⟨head, tail, text⟩ := List.exists_cons_of_ne_nil otherWord.1
    obtain ⟨inside, values, quotedText, -⟩ := quoted
    have part := otherWord.2 head (by simp [text])
    simp only [text, quotedText, List.cons_append, List.cons.injEq] at same
    rw [← same.1] at part
    exact absurd part (by decide)
  · exact quoted.unique otherQuoted same

/-! ### Rows of pieces -/

/-- The leaves of plain JSON are their own texts. -/
def words : Alphabet String where
  symbol := Symbol.text
  text := id
  text_symbol _ := rfl

@[simp]
theorem words_symbol (symbol : Symbol) : words.symbol symbol = symbol.text :=
  rfl

@[simp]
theorem words_text (text : String) : words.text text = text :=
  rfl

variable {Item : Type} {style : Style} {items more : List Item}
  {pieces : Item → List (Piece String)}

/-- Whether written items can be told apart, and from what follows them. -/
def Apart (style : Style) (pieces : Item → List (Piece String)) (first second : Item) : Prop :=
  ∀ ⦃rest others : List Char⦄, Bounded rest → Bounded others →
    write words style (pieces first) ++ rest = write words style (pieces second) ++ others →
      first = second ∧ rest = others

theorem Apart.symm {first second : Item} (apart : Apart style pieces first second) :
    Apart style pieces second first := by
  intro rest others bounded boundedOthers same
  obtain ⟨rfl, sameRest⟩ := apart boundedOthers bounded same.symm
  exact ⟨rfl, sameRest.symm⟩

/-- Whether a text begins with no closing bracket. -/
def Begins (chars : List Char) : Prop :=
  ∃ head tail, chars = head :: tail ∧ head ≠ ']' ∧ head ≠ '}'

def IsBracket (closing : Symbol) : Prop :=
  closing = .rightBracket ∨ closing = .rightBrace

/-- What stands behind the last item of a container is neither a part of the item nor a
comma. -/
theorem exists_line_closing {closing : Symbol} (bracket : IsBracket closing) (style : Style)
    (level : Nat) :
    ∃ next behind, style.line level ++ closing.text.toList = next :: behind ∧
      isWordPart next = false ∧ next ≠ ',' := by
  cases style with
  | compact => rcases bracket with rfl | rfl <;> exact ⟨_, _, rfl, by decide, by decide⟩
  | indented => exact ⟨_, _, rfl, by decide, by decide⟩

/-- The first item of a container begins with no closing bracket. -/
theorem line_ne_closing {closing : Symbol} (bracket : IsBracket closing) (level : Nat)
    {chars : List Char} (begins : Begins chars) (others : List Char) :
    closing.text.toList ++ rest ≠ style.line level ++ (chars ++ others) := by
  obtain ⟨head, tail, rfl, notBracket, notBrace⟩ := begins
  cases style <;> rcases bracket with rfl | rfl <;>
    simp [Style.line, Symbol.text, notBracket.symm, notBrace.symm]

theorem separated_unique {level : Nat} {next otherNext : Char} {behind otherBehind : List Char}
    (apart : ∀ item ∈ items, ∀ other ∈ more, Apart style pieces item other)
    (ends : isWordPart next = false ∧ next ≠ ',')
    (otherEnds : isWordPart otherNext = false ∧ otherNext ≠ ',')
    (same : write words style (separated words level (items.map pieces)) ++ next :: behind =
      write words style (separated words level (more.map pieces)) ++ otherNext :: otherBehind) :
    items = more ∧ next :: behind = otherNext :: otherBehind := by
  have boundedBehind : ∀ (others : List Item) {next : Char} (behind : List Char),
      isWordPart next = false → Bounded
        (write words style (separated words level (others.map pieces)) ++ next :: behind) := by
    intro others next behind notPart
    cases others with
    | nil => simpa [Bounded, separated] using notPart
    | cons item others => simp [Bounded, separated, Symbol.text]; decide
  induction items generalizing more with
  | nil =>
      cases more with
      | nil => exact ⟨rfl, same⟩
      | cons other others =>
          simp [separated, Symbol.text] at same
          exact absurd same.1 ends.2
  | cons item items ih =>
      cases more with
      | nil =>
          simp [separated, Symbol.text] at same
          exact absurd same.1.symm otherEnds.2
      | cons other others =>
          obtain ⟨apartItem, apartOthers⟩ := List.forall_mem_cons.mp apart
          have rests : write words style (pieces item) ++
                (write words style (separated words level (items.map pieces)) ++ next :: behind) =
              write words style (pieces other) ++
                (write words style (separated words level (others.map pieces)) ++
                  otherNext :: otherBehind) := by
            simpa [separated, Symbol.text] using same
          obtain ⟨rfl, sameRest⟩ := apartItem other List.mem_cons_self
            (boundedBehind items behind ends.1) (boundedBehind others otherBehind otherEnds.1) rests
          have apartMore : ∀ item ∈ items, ∀ other ∈ others, Apart style pieces item other :=
            fun item member other otherMember =>
              apartOthers item member other (List.mem_cons_of_mem _ otherMember)
          obtain ⟨rfl, sameEnd⟩ := ih apartMore sameRest
          exact ⟨rfl, sameEnd⟩

theorem enclosed_unique {level : Nat} {opening closing : Symbol} (bracket : IsBracket closing)
    (apart : ∀ item ∈ items, ∀ other ∈ more, Apart style pieces item other)
    (begins : ∀ item ∈ items, Begins (write words style (pieces item)))
    (beginsMore : ∀ item ∈ more, Begins (write words style (pieces item)))
    (same : write words style (enclosed words level opening closing (items.map pieces)) ++ rest =
      write words style (enclosed words level opening closing (more.map pieces)) ++ others) :
    items = more ∧ rest = others := by
  obtain ⟨next, behind, line, ends⟩ := exists_line_closing bracket style level
  cases items with
  | nil =>
      cases more with
      | nil => exact ⟨rfl, by simpa [enclosed] using same⟩
      | cons other items =>
          simp [enclosed] at same
          exact absurd same (line_ne_closing bracket _ (beginsMore other List.mem_cons_self) _)
  | cons item items =>
      cases more with
      | nil =>
          simp [enclosed] at same
          exact absurd same.symm (line_ne_closing bracket _ (begins item List.mem_cons_self) _)
      | cons other more =>
          have inner :
              write words style (separated words (level + 1) ((item :: items).map pieces)) ++
                next :: (behind ++ rest) =
              write words style (separated words (level + 1) ((other :: more).map pieces)) ++
                next :: (behind ++ others) := by
            simp only [← List.cons_append, ← line]
            simpa [enclosed, separated] using same
          obtain ⟨sameItems, sameEnd⟩ := separated_unique apart ends ends inner
          exact ⟨sameItems, by simpa using sameEnd⟩

end TemplatedJson.Layout

namespace TemplatedJson.Outline

open Layout

/-! ### Outlines -/

/-- Whether each leaf and each key is a word or a quoted string. -/
def Plain (outline : Outline String) : Prop :=
  outline.Each (fun leaves => ∃ text, leaves = [text] ∧ Standalone text) Standalone

variable {style : Style} {outline other : Outline String} {level : Nat}

theorem begins_of_standalone {text : String} (standalone : Standalone text) (others : List Char) :
    Begins (text.toList ++ others) := by
  obtain ⟨head, tail, same, part | rfl⟩ := standalone.begins
  · refine ⟨head, tail ++ others, by rw [same, List.cons_append], ?_, ?_⟩ <;>
      rintro rfl <;> exact absurd part (by decide)
  · exact ⟨_, _, by rw [same, List.cons_append], by decide, by decide⟩

theorem Plain.begins (isPlain : outline.Plain) :
    Begins (write words style (outline.pieces words level)) := by
  cases isPlain with
  | single leaf =>
      obtain ⟨text, rfl, standalone⟩ := leaf
      simpa [pieces] using begins_of_standalone standalone []
  | @array elements _ =>
      cases elements <;> exact ⟨'[', _, rfl, by decide, by decide⟩
  | @object members _ _ =>
      cases members <;> exact ⟨'{', _, rfl, by decide, by decide⟩

theorem exists_cons_enclosed (opening closing : Symbol) (items : List (List (Piece String))) :
    ∃ tail, write words style (enclosed words level opening closing items) =
      opening.text.toList ++ tail := by
  cases items <;> exact ⟨_, rfl⟩

/-- No leaf begins with a bracket. -/
theorem standalone_ne_enclosed {text : String} (standalone : Standalone text) {opening : Symbol}
    (opens : opening = .leftBracket ∨ opening = .leftBrace) (closing : Symbol)
    (items : List (List (Piece String))) (rest others : List Char) :
    text.toList ++ rest ≠
      write words style (enclosed words level opening closing items) ++ others := by
  obtain ⟨tail, enclosed⟩ := @exists_cons_enclosed style level opening closing items
  obtain ⟨head, more, same, part | rfl⟩ := standalone.begins
  · rcases opens with rfl | rfl <;> rw [enclosed, same] <;> simp [Symbol.text] <;>
      rintro rfl <;> exact absurd part (by decide)
  · rcases opens with rfl | rfl <;> rw [enclosed, same] <;> simp [Symbol.text]

theorem array_ne_object (elements members : List (List (Piece String))) (rest others : List Char) :
    write words style (enclosed words level .leftBracket .rightBracket elements) ++ rest ≠
      write words style (enclosed words level .leftBrace .rightBrace members) ++ others := by
  obtain ⟨tail, array⟩ := @exists_cons_enclosed style level .leftBracket .rightBracket elements
  obtain ⟨more, object⟩ := @exists_cons_enclosed style level .leftBrace .rightBrace members
  rw [array, object]
  simp [Symbol.text]

theorem apart_member {key otherKey : String} (standalone : Standalone key)
    (otherStandalone : Standalone otherKey)
    (apart : Apart style (pieces words level) outline other) :
    Apart style (fun (key, value) => member words key (value.pieces words level))
      (key, outline) (otherKey, other) := by
  intro rest others bounded boundedOthers same
  have colon : ∀ behind, Bounded (':' :: behind) := fun behind => by simp [Bounded]; decide
  have keys :
      key.toList ++ ':' :: (style.space ++
        (write words style (outline.pieces words level) ++ rest)) =
      otherKey.toList ++ ':' :: (style.space ++
        (write words style (other.pieces words level) ++ others)) := by
    simpa [member, Symbol.text] using same
  obtain ⟨rfl, behind⟩ := standalone.unique otherStandalone (colon _) (colon _) keys
  have values := List.append_cancel_left (List.cons.inj behind).2
  obtain ⟨rfl, sameRest⟩ := apart bounded boundedOthers values
  exact ⟨rfl, sameRest⟩

theorem apart_single {text : String} (standalone : Standalone text) (otherPlain : other.Plain) :
    Apart style (pieces words level) (.single [text]) other := by
  intro rest others bounded boundedOthers same
  have written : ∀ leaf, write words style (pieces words level (.single [leaf])) = leaf.toList := by
    simp [pieces]
  rw [written] at same
  cases otherPlain with
  | single leaf =>
      obtain ⟨otherText, rfl, otherStandalone⟩ := leaf
      rw [written] at same
      obtain ⟨rfl, sameRest⟩ := standalone.unique otherStandalone bounded boundedOthers same
      exact ⟨rfl, sameRest⟩
  | array => exact absurd same (standalone_ne_enclosed standalone (.inl rfl) _ _ _ _)
  | object => exact absurd same (standalone_ne_enclosed standalone (.inr rfl) _ _ _ _)

theorem apart_array {elements more : List (Outline String)}
    (each : ∀ element ∈ elements, element.Plain) (eachMore : ∀ element ∈ more, element.Plain)
    (apart : ∀ element ∈ elements, ∀ other ∈ more,
      Apart style (pieces words (level + 1)) element other) :
    Apart style (pieces words level) (.array elements) (.array more) := by
  intro rest others _ _ same
  simp only [pieces, elementPieces_eq_map] at same
  obtain ⟨rfl, sameRest⟩ := enclosed_unique (.inl rfl) apart
    (fun element member => Plain.begins (each element member))
    (fun element member => Plain.begins (eachMore element member)) same
  exact ⟨rfl, sameRest⟩

theorem apart_object {members more : List (String × Outline String)}
    (keys : ∀ member ∈ members, Standalone member.1)
    (moreKeys : ∀ member ∈ more, Standalone member.1)
    (apart : ∀ member ∈ members, ∀ other ∈ more,
      Apart style (pieces words (level + 1)) member.2 other.2) :
    Apart style (pieces words level) (.object members) (.object more) := by
  intro rest others _ _ same
  simp only [pieces, memberPieces_eq_map] at same
  have begins : ∀ {items : List (String × Outline String)}, (∀ item ∈ items, Standalone item.1) →
      ∀ item ∈ items, Begins (write words style
        (member words item.1 (item.2.pieces words (level + 1)))) := by
    intro items named item isItem
    simpa [member] using begins_of_standalone (named item isItem) _
  have items : ∀ item ∈ members, ∀ other ∈ more, Apart style (fun (key, value) =>
      member words key (value.pieces words (level + 1))) item other :=
    fun item isItem other isOther =>
      apart_member (keys item isItem) (moreKeys other isOther) (apart item isItem other isOther)
  obtain ⟨rfl, sameRest⟩ :=
    enclosed_unique (.inr rfl) items (begins keys) (begins moreKeys) same
  exact ⟨rfl, sameRest⟩

/-- The text of an outline tells the outline and where the text ends. -/
theorem Plain.apart (isPlain : outline.Plain) (otherPlain : other.Plain) :
    Apart style (pieces words level) outline other := by
  induction outline using Outline.induction generalizing other level with
  | single leaves =>
      obtain ⟨leaf⟩ := isPlain
      obtain ⟨text, rfl, standalone⟩ := leaf
      exact apart_single standalone otherPlain
  | array elements ih =>
      obtain _ | each := id isPlain
      cases otherPlain with
      | single leaf =>
          obtain ⟨text, rfl, standalone⟩ := leaf
          exact (apart_single standalone isPlain).symm
      | array eachMore =>
          exact apart_array each eachMore fun element member other otherMember =>
            ih element member (each element member) (eachMore other otherMember)
      | object => exact fun _ _ _ _ same => absurd same (array_ne_object _ _ _ _)
  | object members ih =>
      obtain _ | _ | ⟨keys, each⟩ := id isPlain
      cases otherPlain with
      | single leaf =>
          obtain ⟨text, rfl, standalone⟩ := leaf
          exact (apart_single standalone isPlain).symm
      | array => exact fun _ _ _ _ same => absurd same.symm (array_ne_object _ _ _ _)
      | object moreKeys eachMore =>
          exact apart_object keys moreKeys fun property member other otherMember =>
            ih property member (each property member) (eachMore other otherMember)

/-- Different outlines have different texts. -/
theorem Plain.eq_of_text (isPlain : outline.Plain) (otherPlain : other.Plain)
    (same : write words style (outline.pieces words level) =
      write words style (other.pieces words level)) : outline = other := by
  have bounded : Bounded [] := by simp [Bounded]
  exact (isPlain.apart otherPlain bounded bounded (by rw [same])).1

end TemplatedJson.Outline
