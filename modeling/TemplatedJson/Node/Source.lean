import TemplatedJson.Expr.Source
import TemplatedJson.Layout
import TemplatedJson.Node.Basic
import TemplatedJson.Token.Quoted

/-!
# The source text of a JSON value

A value is written either without any blanks or with one member or element on
a line.  An expression inside a string is written in the inline form, which
begins with an equals sign.
-/

namespace TemplatedJson.Node

/-- A string that holds an expression. -/
def templateSource (expression : Expr) : String :=
  "\x22=" ++ Quoted.escape expression.source ++ "\x22"

mutual

/-- The text of a value without blanks. -/
def source : Node → String
  | object members => "\x7b" ++ String.intercalate "," (memberSources members) ++ "\x7d"
  | array elements => "[" ++ String.intercalate "," (elementSources elements) ++ "]"
  | literal leaf => leaf.raw
  | template expression => templateSource expression

def memberSources : List (Member Node) → List String
  | [] => []
  | ⟨key, value⟩ :: rest => (Quoted.quote key ++ ":" ++ value.source) :: memberSources rest

def elementSources : List Node → List String
  | [] => []
  | first :: rest => first.source :: elementSources rest

end

mutual

/-- The text of a value that stands inside `level` containers, with one member
or element on a line.  Containers without any stay on one line. -/
def indentedSource (level : Nat) : Node → String
  | object [] => "\x7b\x7d"
  | object (first :: rest) =>
      Layout.block level "\x7b" "\x7d" (indentedMembers (level + 1) (first :: rest))
  | array [] => "[]"
  | array (first :: rest) =>
      Layout.block level "[" "]" (indentedElements (level + 1) (first :: rest))
  | literal leaf => leaf.raw
  | template expression => templateSource expression

def indentedMembers (level : Nat) : List (Member Node) → List String
  | [] => []
  | ⟨key, value⟩ :: rest =>
      (Quoted.quote key ++ ": " ++ value.indentedSource level) :: indentedMembers level rest

def indentedElements (level : Nat) : List Node → List String
  | [] => []
  | first :: rest => first.indentedSource level :: indentedElements level rest

end

end TemplatedJson.Node
