import TemplatedJson.Expr.Basic
import TemplatedJson.Json.Basic

/-!
# JSON values with templates

JSON values are kept as they were written: literals with their text, members
and elements in the order of the source, equal keys side by side.  A string
whose content is an expression is a template.
-/

namespace TemplatedJson

/-- JSON values whose strings may be templates. -/
inductive Node where
  | object (members : List (Member Node))
  | array (elements : List Node)
  | literal (literal : Literal)
  /-- A string whose content is an expression. -/
  | template (expression : Expr)
deriving Repr

namespace Node

def typeName : Node → String
  | object _ => "jsonObject"
  | array _ => "jsonArray"
  | literal _ => "jsonLiteral"
  | template _ => "stringTemplate"

/-- The value of the first member of an object that has the given key. -/
def get? (node : Node) (key : String) : Option Node :=
  match node with
  | object members => (members.find? fun property => property.key = key).map Member.value
  | _ => none

mutual

def hasTemplates : Node → Bool
  | object members => anyMember members
  | array elements => anyElement elements
  | literal _ => false
  | template _ => true

def anyMember : List (Member Node) → Bool
  | [] => false
  | ⟨_, value⟩ :: rest => value.hasTemplates || anyMember rest

def anyElement : List Node → Bool
  | [] => false
  | first :: rest => first.hasTemplates || anyElement rest

end

mutual

def same : Node → Node → Bool
  | object members, object otherMembers => sameMembers members otherMembers
  | array elements, array otherElements => sameElements elements otherElements
  | literal first, literal second => first = second
  | template first, template second => first = second
  | _, _ => false

def sameMembers : List (Member Node) → List (Member Node) → Bool
  | [], [] => true
  | ⟨key, value⟩ :: rest, ⟨otherKey, otherValue⟩ :: otherRest =>
      key = otherKey && same value otherValue && sameMembers rest otherRest
  | _, _ => false

def sameElements : List Node → List Node → Bool
  | [], [] => true
  | first :: rest, otherFirst :: otherRest =>
      same first otherFirst && sameElements rest otherRest
  | _, _ => false

end

mutual

theorem same_iff : (first second : Node) → (same first second = true ↔ first = second)
  | object members, second => by cases second <;> simp [same, sameMembers_iff members]
  | array elements, second => by cases second <;> simp [same, sameElements_iff elements]
  | literal _, second => by cases second <;> simp [same]
  | template _, second => by cases second <;> simp [same]

theorem sameMembers_iff :
    (first second : List (Member Node)) → (sameMembers first second = true ↔ first = second)
  | [], second => by cases second <;> simp [sameMembers]
  | ⟨_, value⟩ :: rest, second => by
      rcases second with _ | ⟨⟨otherKey, otherValue⟩, otherRest⟩ <;>
        simp [sameMembers, same_iff value, sameMembers_iff rest]

theorem sameElements_iff :
    (first second : List Node) → (sameElements first second = true ↔ first = second)
  | [], second => by cases second <;> simp [sameElements]
  | head :: tail, second => by
      cases second <;> simp [sameElements, same_iff head, sameElements_iff tail]

end

instance : DecidableEq Node := fun first second =>
  decidable_of_iff _ (same_iff first second)

end Node

end TemplatedJson
