import TemplatedJson.Json.Text
import TemplatedJson.Outcome
import TemplatedJson.Session

/-!
# Trees as plain JSON

Every node of a tree is shown as an object whose first member tells what it is.
The names of the members and their order are part of what callers rely on.
-/

namespace TemplatedJson

def Literal.Value.toJson : Literal.Value → Json
  | .string content => .string content
  | .number quantity => .number quantity
  | .boolean truth => .boolean truth
  | .null => .null

def Literal.members (literal : Literal) : List (Member Json) :=
  [⟨"kind", .string literal.kindName⟩, ⟨"value", literal.value.toJson⟩,
    ⟨"raw", .string literal.raw⟩]

namespace Expr

/-- A node: its tag and its parts. -/
def tagged (expr : Expr) (parts : List (Member Json)) : Json :=
  .object (⟨"type", .string expr.typeName⟩ :: parts)

mutual

def toJson (expr : Expr) : Json :=
  match expr with
  | literal leaf => expr.tagged leaf.members
  | identifier name => expr.tagged [⟨"name", .string name⟩]
  | scope name selector =>
      expr.tagged [⟨"name", .string name⟩, ⟨"sel", selectorToJson selector⟩]
  | select base selector => expr.tagged [⟨"x", base.toJson⟩, ⟨"sel", selectorToJson selector⟩]
  | call callee arguments =>
      expr.tagged [⟨"fun", callee.toJson⟩, ⟨"args", .array (listToJson arguments)⟩]
  | prefixed operator operand =>
      expr.tagged [⟨"operator", .string operator.text⟩, ⟨"x", operand.toJson⟩]
  | binary operator left right =>
      expr.tagged
        [⟨"operator", .string operator.text⟩, ⟨"x", left.toJson⟩, ⟨"y", right.toJson⟩]
  | conditional condition consequent alternate =>
      expr.tagged
        [⟨"condition", condition.toJson⟩, ⟨"consequent", consequent.toJson⟩,
          ⟨"alternate", alternate.toJson⟩]
  | parenthesized inner => expr.tagged [⟨"x", inner.toJson⟩]

/-- A selector as plain JSON: a fixed name is a string and a key is a node. -/
def selectorToJson : Selector Expr → Json
  | .name name => .string name
  | .key key => key.toJson

def listToJson : List Expr → List Json
  | [] => []
  | first :: rest => first.toJson :: listToJson rest

end

end Expr

namespace Node

def tagged (node : Node) (parts : List (Member Json)) : Json :=
  .object (⟨"type", .string node.typeName⟩ :: parts)

mutual

def toJson (node : Node) : Json :=
  match node with
  | object members => node.tagged [⟨"children", .array (membersToJson members)⟩]
  | array elements => node.tagged [⟨"children", .array (elementsToJson elements)⟩]
  | literal leaf => node.tagged leaf.members
  | template expression => node.tagged [⟨"expression", expression.toJson⟩]

def membersToJson : List (Member Node) → List Json
  | [] => []
  | ⟨key, value⟩ :: rest =>
      .object
          [⟨"type", .string "jsonProperty"⟩, ⟨"key", .string key⟩, ⟨"value", value.toJson⟩] ::
        membersToJson rest

def elementsToJson : List Node → List Json
  | [] => []
  | first :: rest => first.toJson :: elementsToJson rest

end

end Node

def Document.toJson (document : Document) : Json :=
  let part : Member Json :=
    match document with
    | .json value => ⟨"value", value.toJson⟩
    | .expression single => ⟨"x", single.toJson⟩
  .object [⟨"type", .string document.typeName⟩, part]

def Tree.toJson : Tree → Json
  | .expression single => single.toJson
  | .value node => node.toJson
  | .document whole => whole.toJson

def ParseError.toJson (error : ParseError) : Json :=
  .object
    [⟨"kind", .string error.kind⟩, ⟨"message", .string error.message⟩,
      ⟨"offset", .count error.offset⟩]

/-- An outcome as plain JSON.  Parts that it does not have are left out. -/
def Outcome.toJson {Tree : Type} (treeToJson : Tree → Json) (outcome : Outcome Tree) : Json :=
  let tree := (outcome.tree.map fun tree => ⟨"ast", treeToJson tree⟩).toList
  let error := (outcome.error.map fun error => ⟨"error", error.toJson⟩).toList
  .object (⟨"success", .boolean outcome.success⟩ :: tree ++ error)

namespace Event

def level : Event → String
  | template _ => "TRACE"
  | _ => "DEBUG"

/-- What an event tells, the message first. -/
def fields : Event → List (Member Json)
  | started mode bytes maxDepth =>
      let message :=
        match mode with
        | .document => "parsing document"
        | .expression => "parsing resolver"
      [⟨"message", .string message⟩, ⟨"len", .count bytes⟩, ⟨"max_depth", .count maxDepth⟩]
  | template sighting =>
      [⟨"message", .string "parsing embedded expression"⟩,
        ⟨"form", .string sighting.form.name⟩, ⟨"offset", .count sighting.offset⟩]
  | failed error =>
      [⟨"message", .string ("parse failed: " ++ error.message)⟩, ⟨"kind", .string error.kind⟩,
        ⟨"offset", .count error.offset⟩]

def toJson (event : Event) : Json :=
  .object [⟨"level", .string event.level⟩, ⟨"fields", .object event.fields⟩]

end Event

end TemplatedJson
