import TemplatedJson.Unicode.Blank

/-!
# Expressions inside strings

The content of a string may be an expression in one of two forms.  In the
inline form the content is an equals sign and the expression.  In the block
form it is the expression between two pairs of braces, and white space may
surround the braces.  Text that only mentions such a form is no template.
-/

namespace TemplatedJson.Template

/-- The two forms of an expression inside a string. -/
inductive Form where
  | inline
  | block
deriving DecidableEq, Repr

def Form.name : Form → String
  | .inline => "Inline"
  | .block => "Block"

/-- An expression found in the content of a string, and the index in the
content at which its text starts. -/
structure Embedded where
  form : Form
  source : String
  start : Nat
deriving DecidableEq, Repr

/-- Whether a character stands twice in a row anywhere in a text. -/
def hasPair (character : Char) : List Char → Bool
  | first :: second :: rest =>
      (first = character && second = character) || hasPair character (second :: rest)
  | _ => false

/-- Whether the text between the outer braces of a block belongs to one span:
it has no pair of braces and no brace next to the outer ones. -/
def isSingleSpan (source : List Char) : Bool :=
  let inner := Unicode.trim source
  !hasPair '{' source && !hasPair '}' source &&
    inner.head? ≠ some '{' && inner.getLast? ≠ some '}'

/-- The text between the first pair of braces and the last one, if the content
has only white space around them. -/
def blockSource? (content : List Char) : Option (List Char) :=
  match content.dropWhile Unicode.isWhiteSpace with
  | '{' :: '{' :: afterOpening =>
      match afterOpening.reverse.dropWhile Unicode.isWhiteSpace with
      | '}' :: '}' :: reversed => some reversed.reverse
      | _ => none
  | _ => none

/-- The expression that the content of a string holds, if it has one of the two
forms.  The inline form wins over the block form. -/
def detect? (content : String) : Option Embedded :=
  match content.toList with
  | '=' :: source => some ⟨.inline, String.ofList source, 1⟩
  | characters =>
      match blockSource? characters with
      | some source =>
          if isSingleSpan source then
            let blanks := characters.takeWhile Unicode.isWhiteSpace
            some ⟨.block, String.ofList source, blanks.length + 2⟩
          else none
      | none => none

/-- A template met while a document is read: its form and the offset of the
string that holds it. -/
structure Sighting where
  form : Form
  offset : Nat
deriving DecidableEq, Repr

end TemplatedJson.Template
