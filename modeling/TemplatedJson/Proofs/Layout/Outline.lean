import Mathlib.Data.List.Basic
import TemplatedJson.Layout
import TemplatedJson.Token.Basic

/-!
# Outlines of printed values

Plain JSON and JSON with templates are laid out alike.  An outline forgets what is
printed but for the texts of leaves and keys.  It is written as a row of pieces: leaves
and symbols, and between them the places where only an indented text has blanks.  So
the two styles differ in how they write those places and in nothing else.
-/

namespace TemplatedJson

/-- Nested containers.  What stands for a single value may have several leaves. -/
inductive Outline (Leaf : Type) where
  | single (leaves : List Leaf)
  | array (elements : List (Outline Leaf))
  | object (members : List (Leaf × Outline Leaf))

namespace Layout

inductive Style where
  | compact
  | indented
deriving DecidableEq, Repr

namespace Style

/-- What begins a line inside `level` containers.  A compact text has a single line. -/
def line : Style → Nat → List Char
  | compact, _ => []
  | indented, level => '\n' :: List.replicate (2 * level) ' '

/-- What stands behind the colon of a member. -/
def space : Style → List Char
  | compact => []
  | indented => [' ']

end Style

/-- A part of a printed text. -/
inductive Piece (Leaf : Type) where
  | leaf (leaf : Leaf)
  /-- The beginning of a line inside `level` containers. -/
  | line (level : Nat)
  /-- The place behind the colon of a member. -/
  | space
deriving DecidableEq, Repr

/-- How leaves are written, and which of them are symbols. -/
structure Alphabet (Leaf : Type) where
  symbol : Symbol → Leaf
  text : Leaf → String
  text_symbol : ∀ sign, text (symbol sign) = sign.text

attribute [simp] Alphabet.text_symbol

variable {Leaf : Type} (alphabet : Alphabet Leaf) (style : Style)

def Piece.write : Piece Leaf → List Char
  | leaf single => (alphabet.text single).toList
  | line level => style.line level
  | space => style.space

/-- The text of a row of pieces. -/
def write (pieces : List (Piece Leaf)) : List Char :=
  pieces.flatMap (Piece.write alphabet style)

section Write

variable (pieces more : List (Piece Leaf))

@[simp]
theorem write_nil : write alphabet style [] = [] :=
  rfl

@[simp]
theorem write_leaf (leaf : Leaf) :
    write alphabet style (.leaf leaf :: pieces) =
      (alphabet.text leaf).toList ++ write alphabet style pieces :=
  List.flatMap_cons

@[simp]
theorem write_line (level : Nat) :
    write alphabet style (.line level :: pieces) =
      style.line level ++ write alphabet style pieces :=
  List.flatMap_cons

@[simp]
theorem write_space :
    write alphabet style (.space :: pieces) = style.space ++ write alphabet style pieces :=
  List.flatMap_cons

@[simp]
theorem write_append :
    write alphabet style (pieces ++ more) =
      write alphabet style pieces ++ write alphabet style more :=
  List.flatMap_append

end Write

/-- Items behind another one, each on a line of its own. -/
def separated (level : Nat) : List (List (Piece Leaf)) → List (Piece Leaf)
  | [] => []
  | item :: rest =>
      .leaf (alphabet.symbol .comma) :: .line level :: (item ++ separated level rest)

/-- The items of a container that stands inside `level` others. -/
def enclosed (level : Nat) (opening closing : Symbol) : List (List (Piece Leaf)) → List (Piece Leaf)
  | [] => [.leaf (alphabet.symbol opening), .leaf (alphabet.symbol closing)]
  | first :: rest =>
      .leaf (alphabet.symbol opening) :: .line (level + 1) ::
        (first ++ (separated alphabet (level + 1) rest ++
          [.line level, .leaf (alphabet.symbol closing)]))

end Layout

namespace Outline

open Layout

variable {Leaf : Type}

section Pieces

variable (alphabet : Alphabet Leaf)

/-- A key, its colon and the pieces of its value. -/
def member (key : Leaf) (value : List (Piece Leaf)) : List (Piece Leaf) :=
  .leaf key :: .leaf (alphabet.symbol .colon) :: .space :: value

mutual

/-- The pieces of what stands inside `level` containers. -/
def pieces (level : Nat) : Outline Leaf → List (Piece Leaf)
  | single leaves => leaves.map .leaf
  | array elements =>
      enclosed alphabet level .leftBracket .rightBracket (elementPieces (level + 1) elements)
  | object members =>
      enclosed alphabet level .leftBrace .rightBrace (memberPieces (level + 1) members)

def elementPieces (level : Nat) : List (Outline Leaf) → List (List (Piece Leaf))
  | [] => []
  | first :: rest => first.pieces level :: elementPieces level rest

def memberPieces (level : Nat) : List (Leaf × Outline Leaf) → List (List (Piece Leaf))
  | [] => []
  | (key, value) :: rest => member alphabet key (value.pieces level) :: memberPieces level rest

end

theorem elementPieces_eq_map (level : Nat) (elements : List (Outline Leaf)) :
    elementPieces alphabet level elements = elements.map (pieces alphabet level) := by
  induction elements with
  | nil => rfl
  | cons first rest ih => rw [elementPieces, ih, List.map_cons]

theorem memberPieces_eq_map (level : Nat) (members : List (Leaf × Outline Leaf)) :
    memberPieces alphabet level members =
      members.map fun (key, value) => member alphabet key (value.pieces alphabet level) := by
  induction members with
  | nil => rfl
  | cons first rest ih => rw [memberPieces, ih, List.map_cons]

end Pieces

/-- What holds of single values, and of each container if it holds of the values in it,
holds of all outlines. -/
theorem induction {motive : Outline Leaf → Prop} (single : ∀ leaves, motive (.single leaves))
    (array : ∀ elements, (∀ element ∈ elements, motive element) → motive (.array elements))
    (object : ∀ members, (∀ member ∈ members, motive member.2) → motive (.object members))
    (outline : Outline Leaf) : motive outline :=
  @Outline.rec Leaf motive (fun elements => ∀ element ∈ elements, motive element)
    (fun members => ∀ member ∈ members, motive member.2) (fun member => motive member.2)
    single array object
    (List.forall_mem_nil _) (fun _ _ first rest => List.forall_mem_cons.mpr ⟨first, rest⟩)
    (List.forall_mem_nil _) (fun _ _ first rest => List.forall_mem_cons.mpr ⟨first, rest⟩)
    (fun _ _ value => value) outline

/-- Whether a value, or all values in a container, have leaves with a property, and so
do all keys. -/
inductive Each (single : List Leaf → Prop) (named : Leaf → Prop) : Outline Leaf → Prop where
  | single {leaves : List Leaf} : single leaves → Each single named (.single leaves)
  | array {elements : List (Outline Leaf)} :
      (∀ element ∈ elements, Each single named element) → Each single named (.array elements)
  | object {members : List (Leaf × Outline Leaf)} :
      (∀ member ∈ members, named member.1) → (∀ member ∈ members, Each single named member.2) →
        Each single named (.object members)

end Outline

/-! ### Printed containers -/

namespace Layout

variable {Leaf Item : Type} {alphabet : Alphabet Leaf} {style : Style}
  {pieces : Item → List (Piece Leaf)} {print : Item → List Char}

theorem write_separated (level : Nat) (first : Item) (rest : List Item)
    (each : ∀ item ∈ first :: rest, write alphabet style (pieces item) = print item) :
    write alphabet style (pieces first ++ separated alphabet level (rest.map pieces)) =
      List.intercalate (',' :: style.line level) ((first :: rest).map print) := by
  induction rest generalizing first with
  | nil =>
      obtain ⟨printed, -⟩ := List.forall_mem_cons.mp each
      simp [separated, printed]
  | cons second others ih =>
      obtain ⟨printed, behind⟩ := List.forall_mem_cons.mp each
      have more := ih second behind
      rw [write_append] at more ⊢
      simp only [List.map_cons, separated, write_leaf, write_line, write_append,
        Alphabet.text_symbol]
      rw [more, printed]
      simp [List.intercalate_cons_cons, Symbol.text]

/-- The items of a container stand between its brackets, joined by commas. -/
theorem write_enclosed (level : Nat) (opening closing : Symbol) (first : Item) (rest : List Item)
    (each : ∀ item ∈ first :: rest, write alphabet style (pieces item) = print item) :
    write alphabet style (enclosed alphabet level opening closing ((first :: rest).map pieces)) =
      opening.text.toList ++ (style.line (level + 1) ++
        (List.intercalate (',' :: style.line (level + 1)) ((first :: rest).map print) ++
          (style.line level ++ closing.text.toList))) := by
  have items := write_separated (level + 1) first rest each
  rw [← items]
  simp [enclosed]

/-- What stands behind each separator and before the first item may count to the items. -/
theorem append_intercalate_append (gap separator first : List Char) (rest : List (List Char)) :
    gap ++ List.intercalate (separator ++ gap) (first :: rest) =
      List.intercalate separator ((first :: rest).map fun item => gap ++ item) := by
  induction rest generalizing first with
  | nil => simp
  | cons second others ih =>
      have more := ih second
      simp only [List.map_cons] at more
      simp only [List.map_cons, List.intercalate_cons_cons, ← more, List.append_assoc]

theorem write_enclosed_compact (level : Nat) (opening closing : Symbol) (items : List Item)
    (print : Item → String)
    (each : ∀ item ∈ items, write alphabet .compact (pieces item) = (print item).toList) :
    write alphabet .compact (enclosed alphabet level opening closing (items.map pieces)) =
      (opening.text ++ String.intercalate "," (items.map print) ++ closing.text).toList := by
  cases items with
  | nil => simp [enclosed]
  | cons first rest =>
      rw [write_enclosed level opening closing first rest each]
      simp [Style.line, String.toList_intercalate, Function.comp_def]

theorem write_enclosed_indented (level : Nat) (opening closing : Symbol) (first : Item)
    (rest : List Item) (print : Item → String)
    (each : ∀ item ∈ first :: rest, write alphabet .indented (pieces item) = (print item).toList) :
    write alphabet .indented
        (enclosed alphabet level opening closing ((first :: rest).map pieces)) =
      (block level opening.text closing.text ((first :: rest).map print)).toList := by
  have indentedLine : ∀ level, Style.indented.line level = '\n' :: (indentation level).toList := by
    simp [Style.line, indentation]
  have joined := append_intercalate_append (indentation (level + 1)).toList [',', '\n']
    (print first).toList (rest.map fun item => (print item).toList)
  simp only [List.cons_append, List.nil_append] at joined
  rw [write_enclosed level opening closing first rest each]
  simp only [indentedLine, List.map_cons, List.cons_append, ← List.append_assoc, joined]
  simp only [block, String.toList_append, String.toList_intercalate, List.map_cons, List.map_map,
    Function.comp_def, List.append_assoc]
  rfl

end Layout

end TemplatedJson
