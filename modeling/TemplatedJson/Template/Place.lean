/-!
# Places inside quoted strings

An error inside an expression names a character of the decoded content of a
string.  To show it in the document, the index of that character is turned into
an index in the quoted text, where escapes take several characters.
-/

namespace TemplatedJson.Template

/-- Whether the digits of a numeric escape begin with those of a high surrogate
and another numeric escape follows them. -/
def isPairSpelling : List Char → Bool
  | first :: second :: _ :: _ :: '\\' :: 'u' :: _ =>
      (first = 'd' || first = 'D') &&
        (second = '8' || second = '9' || second = 'a' || second = 'b' || second = 'A' ||
          second = 'B')
  | _ => false

/-- How many characters spell the first character of a quoted text. -/
def spellingWidth : List Char → Nat
  | '\\' :: 'u' :: digits => if isPairSpelling digits then 12 else 6
  | '\\' :: _ :: _ => 2
  | _ => 1

/-- How many characters spell the first `count` characters of a quoted text.
The last character of the text, its closing quote, is not counted. -/
def spelledWidth : (count : Nat) → List Char → Nat
  | 0, _ => 0
  | _ + 1, [] => 0
  | _ + 1, [_] => 0
  | count + 1, text =>
      spellingWidth text + spelledWidth count (text.drop (spellingWidth text))

/-- The index in a quoted string of the spelling of the content character with
the given index.  Indexes past the content lead to the closing quote. -/
def rawIndex (raw : String) (index : Nat) : Nat :=
  min (1 + spelledWidth index (raw.toList.drop 1)) (raw.length - 1)

end TemplatedJson.Template
