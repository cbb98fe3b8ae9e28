import TemplatedJson.Document

/-!
# The templates of a document

The expressions of all templates of a value, from left to right.  A value has templates if
this list is not empty.
-/

namespace TemplatedJson

namespace Node

mutual

/-- The expressions of the templates of a value, as they are written from left to right. -/
def templates : Node → List Expr
  | object members => memberTemplates members
  | array elements => elementTemplates elements
  | literal _ => []
  | template tree => [tree]

def memberTemplates : List (Member Node) → List Expr
  | [] => []
  | ⟨_, value⟩ :: rest => value.templates ++ memberTemplates rest

def elementTemplates : List Node → List Expr
  | [] => []
  | first :: rest => first.templates ++ elementTemplates rest

end

theorem memberTemplates_eq (members : List (Member Node)) :
    memberTemplates members = members.flatMap fun member => member.value.templates := by
  induction members with
  | nil => rfl
  | cons member members ih => rw [memberTemplates, ih, List.flatMap_cons]

theorem elementTemplates_eq (elements : List Node) :
    elementTemplates elements = elements.flatMap templates := by
  induction elements with
  | nil => rfl
  | cons element elements ih => rw [elementTemplates, ih, List.flatMap_cons]

mutual

theorem hasTemplates_eq_false_iff :
    (node : Node) → (node.hasTemplates = false ↔ node.templates = [])
  | object members => anyMember_eq_false_iff members
  | array elements => anyElement_eq_false_iff elements
  | literal _ => by simp [hasTemplates, templates]
  | template _ => by simp [hasTemplates, templates]

theorem anyMember_eq_false_iff :
    (members : List (Member Node)) → (anyMember members = false ↔ memberTemplates members = [])
  | [] => by simp [anyMember, memberTemplates]
  | ⟨_, value⟩ :: rest => by
      rw [anyMember, memberTemplates, Bool.or_eq_false_iff, List.append_eq_nil_iff,
        hasTemplates_eq_false_iff value, anyMember_eq_false_iff rest]

theorem anyElement_eq_false_iff :
    (elements : List Node) → (anyElement elements = false ↔ elementTemplates elements = [])
  | [] => by simp [anyElement, elementTemplates]
  | first :: rest => by
      rw [anyElement, elementTemplates, Bool.or_eq_false_iff, List.append_eq_nil_iff,
        hasTemplates_eq_false_iff first, anyElement_eq_false_iff rest]

end

theorem hasTemplates_iff (node : Node) : node.hasTemplates = true ↔ node.templates ≠ [] := by
  rw [← Bool.not_eq_false, ne_eq, node.hasTemplates_eq_false_iff]

end Node

/-- The expressions of the templates of a document.  An expression alone is none. -/
def Document.templates : Document → List Expr
  | json root => root.templates
  | expression _ => []

end TemplatedJson
