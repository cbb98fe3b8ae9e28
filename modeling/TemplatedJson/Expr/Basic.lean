import TemplatedJson.Literal
import TemplatedJson.Operator

/-!
# Expressions

An expression names values in scopes and combines them with calls and
operators.  Parentheses are nodes of their own, so the grouping of the source
stays visible and printing never has to add any.
-/

namespace TemplatedJson

/-- What is selected from a value: a property with a fixed name, or the value
of a key that is computed. -/
inductive Selector (Key : Type) where
  | name (name : String)
  | key (key : Key)
deriving DecidableEq, Repr

namespace Selector

def map {Key Image : Type} (replace : Key → Image) : Selector Key → Selector Image
  | name property => name property
  | key computed => key (replace computed)

end Selector

/-- Expressions. -/
inductive Expr where
  | literal (literal : Literal)
  | identifier (name : String)
  /-- Access to a scope, which always comes with its first selector. -/
  | scope (name : String) (selector : Selector Expr)
  | select (base : Expr) (selector : Selector Expr)
  | call (callee : Expr) (arguments : List Expr)
  | prefixed (operator : PrefixOperator) (operand : Expr)
  | binary (operator : BinaryOperator) (left right : Expr)
  | conditional (condition consequent alternate : Expr)
  | parenthesized (inner : Expr)
deriving Repr

namespace Expr

/-- The name of the scope that a lone dollar sign addresses. -/
def defaultScope : String := "."

def typeName : Expr → String
  | literal _ => "BasicLit"
  | identifier _ => "Identifier"
  | scope _ _ => "ScopeResolver"
  | select _ _ => "SelectorExpr"
  | call _ _ => "CallExpr"
  | prefixed _ _ => "UnaryExpr"
  | binary _ _ _ => "BinaryExpr"
  | conditional _ _ _ => "TernaryExpr"
  | parenthesized _ => "ParenExpr"

mutual

/-- The height of an expression.  Leaves have height one, and every other node
is one above its tallest part. -/
def height : Expr → Nat
  | literal _ => 1
  | identifier _ => 1
  | scope _ selector => selectorHeight selector + 1
  | select base selector => max base.height (selectorHeight selector) + 1
  | call callee arguments => max callee.height (tallest arguments) + 1
  | prefixed _ operand => operand.height + 1
  | binary _ left right => max left.height right.height + 1
  | conditional condition consequent alternate =>
      max (max condition.height consequent.height) alternate.height + 1
  | parenthesized inner => inner.height + 1

/-- The height that a selector adds below its node: that of a computed key. -/
def selectorHeight : Selector Expr → Nat
  | .name _ => 0
  | .key key => key.height

def tallest : List Expr → Nat
  | [] => 0
  | first :: rest => max first.height (tallest rest)

end

mutual

def same : Expr → Expr → Bool
  | literal first, literal second => first = second
  | identifier first, identifier second => first = second
  | scope name selector, scope otherName otherSelector =>
      name = otherName && sameSelector selector otherSelector
  | select base selector, select otherBase otherSelector =>
      same base otherBase && sameSelector selector otherSelector
  | call callee arguments, call otherCallee otherArguments =>
      same callee otherCallee && sameList arguments otherArguments
  | prefixed operator operand, prefixed otherOperator otherOperand =>
      operator = otherOperator && same operand otherOperand
  | binary operator left right, binary otherOperator otherLeft otherRight =>
      operator = otherOperator && same left otherLeft && same right otherRight
  | conditional condition consequent alternate,
      conditional otherCondition otherConsequent otherAlternate =>
      same condition otherCondition && same consequent otherConsequent &&
        same alternate otherAlternate
  | parenthesized inner, parenthesized otherInner => same inner otherInner
  | _, _ => false

def sameSelector : Selector Expr → Selector Expr → Bool
  | .name first, .name second => first = second
  | .key first, .key second => same first second
  | _, _ => false

def sameList : List Expr → List Expr → Bool
  | [], [] => true
  | first :: rest, otherFirst :: otherRest => same first otherFirst && sameList rest otherRest
  | _, _ => false

end

mutual

theorem same_iff : (first second : Expr) → (same first second = true ↔ first = second)
  | literal _, second => by cases second <;> simp [same]
  | identifier _, second => by cases second <;> simp [same]
  | scope _ selector, second => by
      cases second <;> simp [same, sameSelector_iff selector]
  | select base selector, second => by
      cases second <;> simp [same, same_iff base, sameSelector_iff selector]
  | call callee arguments, second => by
      cases second <;> simp [same, same_iff callee, sameList_iff arguments]
  | prefixed _ operand, second => by
      cases second <;> simp [same, same_iff operand]
  | binary _ left right, second => by
      cases second <;> simp [same, same_iff left, same_iff right, and_assoc]
  | conditional condition consequent alternate, second => by
      cases second <;>
        simp [same, same_iff condition, same_iff consequent, same_iff alternate, and_assoc]
  | parenthesized inner, second => by
      cases second <;> simp [same, same_iff inner]

theorem sameSelector_iff :
    (first second : Selector Expr) → (sameSelector first second = true ↔ first = second)
  | .name _, second => by cases second <;> simp [sameSelector]
  | .key key, second => by cases second <;> simp [sameSelector, same_iff key]

theorem sameList_iff :
    (first second : List Expr) → (sameList first second = true ↔ first = second)
  | [], second => by cases second <;> simp [sameList]
  | head :: tail, second => by
      cases second <;> simp [sameList, same_iff head, sameList_iff tail]

end

instance : DecidableEq Expr := fun first second =>
  decidable_of_iff _ (same_iff first second)

end Expr

end TemplatedJson
