import TemplatedJson.Json.Basic
import TemplatedJson.Layout
import TemplatedJson.Unicode.Escape

/-!
# The text of plain JSON

Plain JSON is written either without any blanks or indented.  Strings escape
what they must and nothing else: quotes, backslashes and the control characters
below space.
-/

namespace TemplatedJson.Json

def escapeCharacter (character : Char) : List Char :=
  if character = '\x22' then ['\\', '\x22']
  else if character = '\\' then ['\\', '\\']
  else if character = '\x08' then ['\\', 'b']
  else if character = '\t' then ['\\', 't']
  else if character = '\n' then ['\\', 'n']
  else if character = '\x0c' then ['\\', 'f']
  else if character = '\r' then ['\\', 'r']
  else if character < ' ' then Unicode.escape character
  else [character]

def quote (content : String) : String :=
  "\x22" ++ String.ofList (content.toList.flatMap escapeCharacter) ++ "\x22"

def booleanText (value : Bool) : String :=
  if value then "true" else "false"

mutual

/-- The text of a value without blanks. -/
def compact : Json → String
  | null => "null"
  | boolean value => booleanText value
  | number value => value.text
  | string content => quote content
  | array elements => "[" ++ String.intercalate "," (compactElements elements) ++ "]"
  | object members => "\x7b" ++ String.intercalate "," (compactMembers members) ++ "\x7d"

def compactElements : List Json → List String
  | [] => []
  | first :: rest => first.compact :: compactElements rest

def compactMembers : List (Member Json) → List String
  | [] => []
  | ⟨key, value⟩ :: rest => (quote key ++ ":" ++ value.compact) :: compactMembers rest

end

mutual

/-- The text of a value that stands inside `level` containers, with one member
or element on a line.  Containers without any stay on one line. -/
def indented (level : Nat) : Json → String
  | null => "null"
  | boolean value => booleanText value
  | number value => value.text
  | string content => quote content
  | array [] => "[]"
  | array (first :: rest) =>
      Layout.block level "[" "]" (indentedElements (level + 1) (first :: rest))
  | object [] => "\x7b\x7d"
  | object (first :: rest) =>
      Layout.block level "\x7b" "\x7d" (indentedMembers (level + 1) (first :: rest))

def indentedElements (level : Nat) : List Json → List String
  | [] => []
  | first :: rest => first.indented level :: indentedElements level rest

def indentedMembers (level : Nat) : List (Member Json) → List String
  | [] => []
  | ⟨key, value⟩ :: rest =>
      (quote key ++ ": " ++ value.indented level) :: indentedMembers level rest

end

def pretty (value : Json) : String :=
  value.indented 0

end TemplatedJson.Json
