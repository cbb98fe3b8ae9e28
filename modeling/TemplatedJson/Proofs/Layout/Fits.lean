import TemplatedJson.Proofs.Layout.Outline
import TemplatedJson.Proofs.Lexing.Layout
import TemplatedJson.Proofs.Lexing.Unbroken
import TemplatedJson.Proofs.Node.Context

/-!
# Pieces that fit together

The leaves of JSON texts are tokens.  A row of pieces fits together if each token ends
before what is written behind it in either style, if each line is as deep as the
containers around it, and if spaces stand behind colons and nowhere else.  Containers
whose items fit together do so themselves.
-/

namespace TemplatedJson

/-- The kind and the text of a token. -/
abbrev Token.Shape := Token.Kind × String

namespace Token.Kind

def isOpening : Kind → Bool
  | symbol .leftBrace | symbol .leftBracket => true
  | _ => false

def isClosing : Kind → Bool
  | symbol .rightBrace | symbol .rightBracket => true
  | _ => false

end Token.Kind

namespace Layout

open Token (Shape)

def shapeOf (symbol : Symbol) : Shape :=
  (.symbol symbol, symbol.text)

/-- Leaves that are tokens. -/
def lexemes : Alphabet Shape where
  symbol := shapeOf
  text := Prod.snd
  text_symbol _ := rfl

@[simp]
theorem lexemes_symbol (symbol : Symbol) : lexemes.symbol symbol = shapeOf symbol :=
  rfl

@[simp]
theorem lexemes_text (shape : Shape) : lexemes.text shape = shape.2 :=
  rfl

/-- How many containers are open behind a token. -/
def behind (depth : Nat) (kind : Token.Kind) : Nat :=
  depth + kind.isOpening.toNat - kind.isClosing.toNat

/-- Whether the pieces behind an opening bracket begin with its closing one or with a
line inside of the container. -/
def OpensInto (depth : Nat) (opening : Shape) (rest : List (Piece Shape)) : Prop :=
  (∃ closing more, rest = .leaf closing :: more ∧ closing.1.isClosing ∧
    (opening.2 ++ closing.2 = "[]" ∨ opening.2 ++ closing.2 = "\x7b\x7d")) ∨
  ∃ more, rest = .line (depth + 1) :: more

/-- Whether a token inside `depth` containers goes together with the pieces behind it. -/
structure LeafFits (depth : Nat) (shape : Shape) (rest : List (Piece Shape)) : Prop where
  written : Scan.Written shape.1 shape.2.toList
  unbroken : '\n' ∉ shape.2.toList
  ends : ∀ style, Scan.EndsBefore shape.1 (write lexemes style rest)
  colon : shape.1 = .symbol .colon ↔ rest.head? = some .space
  opens : shape.1.isOpening → OpensInto depth shape rest
  closes : shape.1.isClosing → 0 < depth

/-- Whether a row of pieces inside `depth` containers fits together. -/
def Fits : (depth : Nat) → List (Piece Shape) → Prop
  | _, [] => True
  | depth, .leaf shape :: rest => LeafFits depth shape rest ∧ Fits (behind depth shape.1) rest
  | depth, .line level :: rest =>
      (∃ shape more, rest = .leaf shape :: more ∧ level + shape.1.isClosing.toNat = depth) ∧
        Fits depth rest
  | depth, .space :: rest => (∃ shape more, rest = .leaf shape :: more) ∧ Fits depth rest

/-- Whether a row of pieces can stand behind a value. -/
structure Follows (rest : List (Piece Shape)) : Prop where
  closes : ∀ style, JsonText.Closes (write lexemes style rest)
  noSpace : rest.head? ≠ some .space

/-- Whether pieces are those of a value or of a member, inside `level` containers. -/
structure Item (level : Nat) (pieces : List (Piece Shape)) : Prop where
  begins : ∃ shape more, pieces = .leaf shape :: more ∧ shape.1.isClosing = false
  fits : ∀ rest, Follows rest → Fits level rest → Fits level (pieces ++ rest)

/-- Whether a token belongs to a single value: it is no symbol and fits on a line. -/
structure Ordinary (shape : Shape) : Prop where
  written : Scan.Written shape.1 shape.2.toList
  unbroken : '\n' ∉ shape.2.toList
  noSymbol : ∀ symbol, shape.1 ≠ .symbol symbol

variable {depth level : Nat} {shape : Shape} {rest : List (Piece Shape)}

theorem blanks_line (style : Style) (level : Nat) : Blanks (style.line level) := by
  intro blank member
  cases style with
  | compact => cases member
  | indented =>
      rcases List.mem_cons.mp member with rfl | space
      · rfl
      · rw [List.eq_of_mem_replicate space]
        rfl

/-- An item on a line of its own stands inside of all containers around the line. -/
theorem Item.begins_line {pieces : List (Piece Shape)} (item : Item level pieces)
    (rest : List (Piece Shape)) :
    ∃ shape more, pieces ++ rest = .leaf shape :: more ∧
      level + shape.1.isClosing.toNat = level := by
  obtain ⟨shape, more, rfl, notClosing⟩ := item.begins
  exact ⟨shape, more ++ rest, rfl, by simp [notClosing]⟩

theorem follows_nil : Follows [] where
  closes _ := JsonText.closes_of_blanks blanks_nil
  noSpace := by simp

/-- Signs and separators are whole before anything that may follow them. -/
theorem leafFits_mark {symbol : Symbol}
    (mark : symbol = .minus ∨ symbol = .comma ∨ symbol = .colon)
    (colon : symbol = .colon ↔ rest.head? = some .space) : LeafFits depth (shapeOf symbol) rest := by
  refine ⟨.symbol symbol, ?_, fun style => ?_, by simpa [shapeOf] using colon, ?_, ?_⟩ <;>
    rcases mark with rfl | rfl | rfl <;>
    simp [shapeOf, Symbol.text, Scan.EndsBefore, Token.Kind.isOpening, Token.Kind.isClosing]

/-! ### Single values -/

theorem Ordinary.leafFits (ordinary : Ordinary shape)
    (ends : ∀ style, Scan.EndsBefore shape.1 (write lexemes style rest))
    (noSpace : rest.head? ≠ some .space) :
    LeafFits depth shape rest ∧ behind depth shape.1 = depth := by
  obtain ⟨kind, text⟩ := shape
  have noSymbol := ordinary.noSymbol
  have plain : kind.isOpening = false ∧ kind.isClosing = false ∧ kind ≠ .symbol .colon := by
    cases kind <;> simp_all [Token.Kind.isOpening, Token.Kind.isClosing]
  obtain ⟨notOpening, notClosing, notColon⟩ := plain
  refine ⟨⟨ordinary.written, ordinary.unbroken, ends, ?_, ?_, ?_⟩, ?_⟩
  · simp [notColon, noSpace]
  · simp [notOpening]
  · simp [notClosing]
  · simp [behind, notOpening, notClosing]

theorem ordinary_of_written {kind : Token.Kind} {text : String}
    (written : Scan.Written kind text.toList) (noSymbol : ∀ symbol, kind ≠ .symbol symbol)
    (double : ∀ content quote, kind = .string content quote → quote = .double) :
    Ordinary (kind, text) where
  written := written
  unbroken broken := by
    obtain ⟨content, quote, same, notDouble⟩ := written.exists_quote broken
    exact notDouble (double content quote same)
  noSymbol := noSymbol

theorem item_single (ordinary : Ordinary shape) : Item level [.leaf shape] where
  begins := by
    refine ⟨shape, [], rfl, ?_⟩
    obtain ⟨kind, text⟩ := shape
    have noSymbol := ordinary.noSymbol
    cases kind <;> simp_all [Token.Kind.isClosing]
  fits rest follows fits := by
    obtain ⟨leaf, same⟩ := @Ordinary.leafFits level shape rest ordinary
      (fun style => (follows.closes style).endsBefore _) follows.noSpace
    refine ⟨leaf, ?_⟩
    rwa [same]

/-- A minus sign stands right before the digits of a negative number. -/
theorem item_negative (ordinary : Ordinary shape) :
    Item level [.leaf (shapeOf .minus), .leaf shape] where
  begins := ⟨_, _, rfl, rfl⟩
  fits rest follows fits := by
    have minus : LeafFits level (shapeOf .minus) (.leaf shape :: rest) :=
      leafFits_mark (.inl rfl) (by simp)
    exact ⟨minus, (item_single ordinary).fits rest follows fits⟩

/-! ### Members -/

theorem item_member {key : Shape} {value : List (Piece Shape)} (ordinary : Ordinary key)
    (quoted : ∃ content, key.1 = .string content .double) (item : Item level value) :
    Item level (Outline.member lexemes key value) where
  begins := by
    obtain ⟨content, kind⟩ := quoted
    exact ⟨key, _, rfl, by rw [kind]; rfl⟩
  fits rest follows fits := by
    obtain ⟨content, kind⟩ := quoted
    obtain ⟨first, more, begins, -⟩ := item.begins_line rest
    have named := @Ordinary.leafFits level key (.leaf (shapeOf .colon) :: .space :: (value ++ rest))
      ordinary (fun _ => by rw [kind]; trivial) (by simp)
    have colon : LeafFits level (shapeOf .colon) (.space :: (value ++ rest)) :=
      leafFits_mark (.inr (.inr rfl)) (by simp)
    exact ⟨named.1, named.2.symm ▸ ⟨colon, ⟨first, more, begins⟩, item.fits rest follows fits⟩⟩

/-! ### Containers -/

/-- The two brackets of a container. -/
inductive Brackets : Symbol → Symbol → Prop where
  | array : Brackets .leftBracket .rightBracket
  | object : Brackets .leftBrace .rightBrace

variable {opening closing : Symbol} {others : List (List (Piece Shape))}

theorem Brackets.kinds (brackets : Brackets opening closing) :
    (Token.Kind.symbol opening).isOpening = true ∧ (Token.Kind.symbol opening).isClosing = false ∧
      (Token.Kind.symbol closing).isOpening = false ∧
        (Token.Kind.symbol closing).isClosing = true := by
  cases brackets <;> decide

theorem Brackets.isClosing (brackets : Brackets opening closing) : JsonText.IsClosing closing := by
  cases brackets
  · exact .inr (.inr rfl)
  · exact .inr (.inl rfl)

theorem Brackets.opening_fits (brackets : Brackets opening closing)
    (opens : OpensInto depth (shapeOf opening) rest) (noSpace : rest.head? ≠ some .space) :
    LeafFits depth (shapeOf opening) rest := by
  refine ⟨.symbol opening, ?_, fun style => ?_, ?_, fun _ => opens, ?_⟩ <;>
    cases brackets <;>
    simp_all [shapeOf, Symbol.text, Scan.EndsBefore, Token.Kind.isClosing]

theorem Brackets.closing_fits (brackets : Brackets opening closing) (inside : 0 < depth)
    (noSpace : rest.head? ≠ some .space) : LeafFits depth (shapeOf closing) rest := by
  refine ⟨.symbol closing, ?_, fun style => ?_, ?_, ?_, fun _ => inside⟩ <;>
    cases brackets <;>
    simp_all [shapeOf, Symbol.text, Scan.EndsBefore, Token.Kind.isOpening]

/-- A closing bracket stands on a line of its own. -/
theorem Brackets.fits_end (brackets : Brackets opening closing) (follows : Follows rest)
    (fits : Fits level rest) :
    Follows (.line level :: .leaf (shapeOf closing) :: rest) ∧
      Fits (level + 1) (.line level :: .leaf (shapeOf closing) :: rest) := by
  obtain ⟨-, -, notOpening, isClosing⟩ := brackets.kinds
  have bracket := @Brackets.closing_fits (level + 1) rest _ _ brackets (by omega) follows.noSpace
  have depth : behind (level + 1) (shapeOf closing).1 = level := by
    simp [behind, shapeOf, notOpening, isClosing]
  refine ⟨⟨fun style => ?_, by simp⟩, ⟨_, _, rfl, ?_⟩, bracket, ?_⟩
  · exact (JsonText.closes_of_symbol brackets.isClosing (write lexemes style rest)).after_blanks
      (blanks_line style level)
  · simp [shapeOf, isClosing]
  · rwa [depth]

/-- Each item behind another one stands behind a comma and on a line of its own. -/
theorem fits_separated (items : ∀ item ∈ others, Item level item) (follows : Follows rest)
    (fits : Fits level rest) :
    Follows (separated lexemes level others ++ rest) ∧
      Fits level (separated lexemes level others ++ rest) := by
  induction others with
  | nil => exact ⟨follows, fits⟩
  | cons item others ih =>
      obtain ⟨isItem, areItems⟩ := List.forall_mem_cons.mp items
      obtain ⟨followsMore, fitsMore⟩ := ih areItems
      have comma : LeafFits level (shapeOf .comma)
          (.line level :: (item ++ separated lexemes level others) ++ rest) :=
        leafFits_mark (.inr (.inl rfl)) (by simp)
      have inside := isItem.fits _ followsMore fitsMore
      rw [← List.append_assoc] at inside
      have line := isItem.begins_line (separated lexemes level others ++ rest)
      rw [← List.append_assoc] at line
      refine ⟨⟨fun style => ?_, by simp [separated]⟩, comma, line, inside⟩
      exact @JsonText.closes_of_symbol .comma (.inl rfl)
        (write lexemes style (.line level :: (item ++ separated lexemes level others) ++ rest))

/-- The items of a container fit into its brackets. -/
theorem item_enclosed (brackets : Brackets opening closing)
    {items : List (List (Piece Shape))} (each : ∀ item ∈ items, Item (level + 1) item) :
    Item level (enclosed lexemes level opening closing items) where
  begins := by
    obtain ⟨-, notClosing, -, -⟩ := brackets.kinds
    cases items <;> exact ⟨_, _, rfl, notClosing⟩
  fits rest follows fits := by
    obtain ⟨isOpening, notClosing, notOpening, isClosing⟩ := brackets.kinds
    have deeper : behind level (shapeOf opening).1 = level + 1 := by
      simp [behind, shapeOf, isOpening, notClosing]
    have higher : behind (level + 1) (shapeOf closing).1 = level := by
      simp [behind, shapeOf, isClosing, notOpening]
    cases items with
    | nil =>
        have begins : OpensInto level (shapeOf opening) (.leaf (shapeOf closing) :: rest) :=
          .inl ⟨_, _, rfl, isClosing, by cases brackets <;> decide⟩
        have ends := @Brackets.closing_fits (level + 1) rest _ _ brackets (by omega) follows.noSpace
        have regroup : enclosed lexemes level opening closing [] ++ rest =
            .leaf (shapeOf opening) :: .leaf (shapeOf closing) :: rest := rfl
        rw [regroup]
        refine ⟨brackets.opening_fits begins (by simp), ?_⟩
        rw [deeper]
        refine ⟨ends, ?_⟩
        rwa [higher]
    | cons first others =>
        obtain ⟨isItem, areItems⟩ := List.forall_mem_cons.mp each
        obtain ⟨followsEnd, fitsEnd⟩ := brackets.fits_end follows fits
        obtain ⟨followsMore, fitsMore⟩ := fits_separated areItems followsEnd fitsEnd
        have inside := isItem.fits _ followsMore fitsMore
        have regroup : enclosed lexemes level opening closing (first :: others) ++ rest =
            .leaf (shapeOf opening) :: .line (level + 1) ::
              (first ++ (separated lexemes (level + 1) others ++
                .line level :: .leaf (shapeOf closing) :: rest)) := by
          simp [enclosed]
        rw [regroup]
        refine ⟨brackets.opening_fits (.inr ⟨_, rfl⟩) (by simp), ?_⟩
        rw [deeper]
        exact ⟨isItem.begins_line _, inside⟩

/-! ### Outlines -/

/-- Whether the leaves of a single value are those of an ordinary token, with a minus
sign before it or without one. -/
def Sound (leaves : List Shape) : Prop :=
  ∃ shape, Ordinary shape ∧ (leaves = [shape] ∨ leaves = [shapeOf .minus, shape])

def Named (key : Shape) : Prop :=
  Ordinary key ∧ ∃ content, key.1 = .string content .double

/-- The pieces of a value fit together. -/
theorem item_pieces {outline : Outline Shape} (each : outline.Each Sound Named) :
    Item level (outline.pieces lexemes level) := by
  induction outline using Outline.induction generalizing level with
  | single leaves =>
      obtain ⟨shape, ordinary, rfl | rfl⟩ := each
      · exact item_single ordinary
      · exact item_negative ordinary
  | array elements ih =>
      obtain _ | elementsEach := each
      rw [Outline.pieces, Outline.elementPieces_eq_map]
      exact item_enclosed .array (List.forall_mem_map.mpr fun element member =>
        ih element member (elementsEach element member))
  | object members ih =>
      obtain _ | _ | ⟨keys, values⟩ := each
      rw [Outline.pieces, Outline.memberPieces_eq_map]
      exact item_enclosed .object (List.forall_mem_map.mpr fun property member =>
        item_member (keys property member).1 (keys property member).2
          (ih property member (values property member)))

end Layout

end TemplatedJson
