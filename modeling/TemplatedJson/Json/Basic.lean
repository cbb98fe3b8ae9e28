import TemplatedJson.Number

/-!
# Plain JSON values

Results are shown as plain JSON.  The members of an object have a fixed order,
which is that of the list that holds them.
-/

namespace TemplatedJson

structure Member (Value : Type) where
  key : String
  value : Value
deriving DecidableEq, Repr

/-- JSON values to be written. -/
inductive Json where
  | null
  | boolean (value : Bool)
  | number (value : Number)
  | string (content : String)
  | array (elements : List Json)
  | object (members : List (Member Json))
deriving Repr

namespace Json

def count (value : Nat) : Json :=
  number (.integer value)

end Json

end TemplatedJson
