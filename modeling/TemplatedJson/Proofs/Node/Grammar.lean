import TemplatedJson.Outcome
import TemplatedJson.Proofs.Lexing.Yields

/-!
# The grammar of JSON texts with templates

The grammar is that of RFC 8259, read over the characters of a text.  It knows
one kind of quotes, no signs but the one attached to its number, no leading
zeros, no trailing commas and three words.  Every text stands for one value.  It
departs from the standard in three places only: surrogates must be paired,
numbers must be finite, and a string in value position whose content is a
template stands for its expression.
-/

namespace TemplatedJson.JsonText

/-! ### Strings -/

/-- The letters after a backslash and the characters that they stand for. -/
def shortEscapes : List (Char × Char) :=
  [('\x22', '\x22'), ('\\', '\\'), ('/', '/'), ('b', '\x08'), ('f', '\x0c'), ('n', '\n'),
    ('r', '\r'), ('t', '\t')]

/-- One character inside a string. -/
inductive Character : List Char → Char → Prop where
  | unescaped {value : Char} :
      ' ' ≤ value → value ≠ '\x22' → value ≠ '\\' → Character [value] value
  | short {mark value : Char} : (mark, value) ∈ shortEscapes → Character ['\\', mark] value
  | unit {digits : List Char} {value : Char} :
      CodeUnit digits value.toNat → Character ('\\' :: 'u' :: digits) value
  | pair {first second : List Char} {high low : Nat} {value : Char} :
      CodeUnit first high → CodeUnit second low → Pairs high low value →
        Character ('\\' :: 'u' :: (first ++ '\\' :: 'u' :: second)) value

/-- All characters inside a string. -/
inductive Content : List Char → List Char → Prop where
  | nil : Content [] []
  | cons {first rest : List Char} {value : Char} {values : List Char} :
      Character first value → Content rest values → Content (first ++ rest) (value :: values)

/-- A string in quotation marks and its content. -/
def IsString (chars : List Char) (content : String) : Prop :=
  ∃ inside, chars = '\x22' :: (inside ++ ['\x22']) ∧ Content inside content.toList

/-! ### Numbers -/

/-- The digits before the point: a lone zero, or digits that begin with none. -/
def IsInteger (chars : List Char) : Prop :=
  chars = ['0'] ∨ Digits chars ∧ chars.head? ≠ some '0'

/-- A number: a minus sign if it is negative, then digits, a fraction and an
exponent. -/
def IsNumber (chars : List Char) : Prop :=
  ∃ sign whole fraction exponent, chars = sign ++ (whole ++ (fraction ++ exponent)) ∧
    (sign = [] ∨ sign = ['-']) ∧ IsInteger whole ∧ FractionPart fraction ∧ ExponentPart exponent

/-! ### Values -/

/-- The phrases of the grammar, each with what it stands for. -/
inductive Phrase where
  | value (node : Node)
  /-- A value and the blanks around it. -/
  | element (node : Node)
  /-- A member of an object and the blanks around its parts. -/
  | member (member : Member Node)
  | elements (nodes : List Node)
  | members (members : List (Member Node))

/-- Which texts stand for each phrase. -/
inductive Spells : Phrase → List Char → Prop where
  | true : Spells (.value (.literal ⟨.boolean true, "true"⟩)) "true".toList
  | false : Spells (.value (.literal ⟨.boolean false, "false"⟩)) "false".toList
  | null : Spells (.value (.literal ⟨.null, "null"⟩)) "null".toList
  | number {chars : List Char} {value : Number} :
      IsNumber chars → Number.ofText? (String.ofList chars) = some value →
        Spells (.value (.literal ⟨.number value, String.ofList chars⟩)) chars
  /-- A string that is no template is a literal. -/
  | string {chars : List Char} {content : String} :
      IsString chars content → Template.detect? content = none →
        Spells (.value (.literal ⟨.string content, String.ofList chars⟩)) chars
  /-- A string that is a template stands for the expression that it holds. -/
  | template {chars : List Char} {content : String} {embedded : Template.Embedded} {tree : Expr}
      {options : ParseOptions} :
      IsString chars content → Template.detect? content = some embedded →
        parseExpression embedded.source options = .ofExcept (.ok tree) →
          Spells (.value (.template tree)) chars
  | emptyObject {blanks : List Char} :
      Blanks blanks → Spells (.value (.object [])) ('{' :: (blanks ++ ['}']))
  | object {members : List (Member Node)} {chars : List Char} :
      Spells (.members members) chars → Spells (.value (.object members)) ('{' :: (chars ++ ['}']))
  | emptyArray {blanks : List Char} :
      Blanks blanks → Spells (.value (.array [])) ('[' :: (blanks ++ [']']))
  | array {nodes : List Node} {chars : List Char} :
      Spells (.elements nodes) chars → Spells (.value (.array nodes)) ('[' :: (chars ++ [']']))
  | element {node : Node} {before chars after : List Char} :
      Blanks before → Spells (.value node) chars → Blanks after →
        Spells (.element node) (before ++ (chars ++ after))
  /-- The content of a key is never looked at as a template. -/
  | member {key : String} {node : Node} {before name after chars : List Char} :
      Blanks before → IsString name key → Blanks after → Spells (.element node) chars →
        Spells (.member ⟨key, node⟩) (before ++ (name ++ (after ++ ':' :: chars)))
  | lastElement {node : Node} {chars : List Char} :
      Spells (.element node) chars → Spells (.elements [node]) chars
  | nextElement {node : Node} {nodes : List Node} {chars more : List Char} :
      Spells (.element node) chars → Spells (.elements nodes) more →
        Spells (.elements (node :: nodes)) (chars ++ ',' :: more)
  | lastMember {member : Member Node} {chars : List Char} :
      Spells (.member member) chars → Spells (.members [member]) chars
  | nextMember {member : Member Node} {members : List (Member Node)} {chars more : List Char} :
      Spells (.member member) chars → Spells (.members members) more →
        Spells (.members (member :: members)) (chars ++ ',' :: more)

end TemplatedJson.JsonText

namespace TemplatedJson

namespace Node

/-- Whether a value is an object or an array. -/
def IsContainer : Node → Prop
  | object _ | array _ => True
  | literal _ | template _ => False

mutual

/-- How deep a value nests: containers count one level each, and a template
counts as many levels as its expression has.  Literals count none. -/
def nesting : Node → Nat
  | object members => 1 + nestingOfMembers members
  | array elements => 1 + nestingOfElements elements
  | literal _ => 0
  | template expression => expression.height

def nestingOfMembers : List (Member Node) → Nat
  | [] => 0
  | ⟨_, value⟩ :: rest => max value.nesting (nestingOfMembers rest)

def nestingOfElements : List Node → Nat
  | [] => 0
  | first :: rest => max first.nesting (nestingOfElements rest)

end

end Node

/-- Whether a text is a JSON object or array with templates that stands for the
given value. -/
def JsonText.IsText (text : List Char) (node : Node) : Prop :=
  node.IsContainer ∧ JsonText.Spells (.element node) text

end TemplatedJson
