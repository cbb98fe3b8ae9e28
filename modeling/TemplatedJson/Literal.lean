import TemplatedJson.Number

/-!
# Literals

A literal keeps the exact text that it was written with beside its value, so
that the spelling of numbers and escapes survives printing.
-/

namespace TemplatedJson

inductive Literal.Value where
  | string (content : String)
  | number (number : Number)
  | boolean (value : Bool)
  | null
deriving DecidableEq, Repr

/-- A value and the text that it was written with. -/
structure Literal where
  value : Literal.Value
  raw : String
deriving DecidableEq, Repr

namespace Literal

/-- The literal that the text of a number denotes, if it denotes a finite
number. -/
def number? (raw : String) : Option Literal :=
  (Number.ofText? raw).map fun number => ⟨.number number, raw⟩

def kindName (literal : Literal) : String :=
  match literal.value with
  | .string _ => "string"
  | .number _ => "number"
  | .boolean _ => "boolean"
  | .null => "null"

def string? (literal : Literal) : Option String :=
  match literal.value with
  | .string content => some content
  | _ => none

end Literal

end TemplatedJson
