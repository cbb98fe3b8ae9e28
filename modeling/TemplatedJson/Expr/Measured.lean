import TemplatedJson.Expr.Basic

/-!
# Expressions with their height

A limit on the height of trees is checked at every node that is built.  An
expression therefore carries its height while it is read, so that a node finds
its own height from its parts without walking through them.
-/

namespace TemplatedJson

/-- An expression together with its height. -/
structure Measured where
  expr : Expr
  height : Nat
  height_eq : expr.height = height

namespace Measured

def selectorHeight : Selector Measured → Nat
  | .name _ => 0
  | .key key => key.height

def tallest : List Measured → Nat
  | [] => 0
  | first :: rest => max first.height (tallest rest)

@[simp]
theorem selectorHeight_map (selector : Selector Measured) :
    Expr.selectorHeight (selector.map expr) = selectorHeight selector := by
  cases selector with
  | name property => rfl
  | key computed => exact computed.height_eq

@[simp]
theorem tallest_map (parts : List Measured) :
    Expr.tallest (parts.map expr) = tallest parts := by
  induction parts with
  | nil => rfl
  | cons first rest ih => simp [Expr.tallest, tallest, first.height_eq, ih]

def literal (literal : Literal) : Measured where
  expr := .literal literal
  height := 1
  height_eq := by simp [Expr.height]

def identifier (name : String) : Measured where
  expr := .identifier name
  height := 1
  height_eq := by simp [Expr.height]

def scope (name : String) (selector : Selector Measured) : Measured where
  expr := .scope name (selector.map expr)
  height := selectorHeight selector + 1
  height_eq := by simp [Expr.height]

def select (base : Measured) (selector : Selector Measured) : Measured where
  expr := .select base.expr (selector.map expr)
  height := max base.height (selectorHeight selector) + 1
  height_eq := by simp [Expr.height, base.height_eq]

def call (callee : Measured) (arguments : List Measured) : Measured where
  expr := .call callee.expr (arguments.map expr)
  height := max callee.height (tallest arguments) + 1
  height_eq := by simp [Expr.height, callee.height_eq]

def prefixed (operator : PrefixOperator) (operand : Measured) : Measured where
  expr := .prefixed operator operand.expr
  height := operand.height + 1
  height_eq := by simp [Expr.height, operand.height_eq]

def binary (operator : BinaryOperator) (left right : Measured) : Measured where
  expr := .binary operator left.expr right.expr
  height := max left.height right.height + 1
  height_eq := by simp [Expr.height, left.height_eq, right.height_eq]

def conditional (condition consequent alternate : Measured) : Measured where
  expr := .conditional condition.expr consequent.expr alternate.expr
  height := max (max condition.height consequent.height) alternate.height + 1
  height_eq := by
    simp [Expr.height, condition.height_eq, consequent.height_eq, alternate.height_eq]

def parenthesized (inner : Measured) : Measured where
  expr := .parenthesized inner.expr
  height := inner.height + 1
  height_eq := by simp [Expr.height, inner.height_eq]

end Measured

end TemplatedJson
