import TemplatedJson.Token.Basic

/-!
# Operators

Binary operators bind on six levels, all of which associate to the left.
Prefix operators bind tighter than every binary one.
-/

namespace TemplatedJson

inductive BinaryOperator where
  | or
  | and
  | equal
  | notEqual
  | less
  | lessOrEqual
  | greater
  | greaterOrEqual
  | add
  | subtract
  | multiply
  | divide
  | modulo
deriving DecidableEq, Repr

namespace BinaryOperator

def symbol : BinaryOperator → Symbol
  | or => .or
  | and => .and
  | equal => .equal
  | notEqual => .notEqual
  | less => .less
  | lessOrEqual => .lessOrEqual
  | greater => .greater
  | greaterOrEqual => .greaterOrEqual
  | add => .plus
  | subtract => .minus
  | multiply => .star
  | divide => .slash
  | modulo => .percent

/-- The operator that a symbol writes between two operands. -/
def ofSymbol? : Symbol → Option BinaryOperator
  | .or => some or
  | .and => some and
  | .equal => some equal
  | .notEqual => some notEqual
  | .less => some less
  | .lessOrEqual => some lessOrEqual
  | .greater => some greater
  | .greaterOrEqual => some greaterOrEqual
  | .plus => some add
  | .minus => some subtract
  | .star => some multiply
  | .slash => some divide
  | .percent => some modulo
  | _ => none

def text (operator : BinaryOperator) : String :=
  operator.symbol.text

def precedence : BinaryOperator → Nat
  | or => 1
  | and => 2
  | equal | notEqual => 3
  | less | lessOrEqual | greater | greaterOrEqual => 4
  | add | subtract => 5
  | multiply | divide | modulo => 6

theorem ofSymbol?_eq_some_iff {sign : Symbol} {operator : BinaryOperator} :
    ofSymbol? sign = some operator ↔ sign = operator.symbol := by
  cases sign <;> cases operator <;> decide

end BinaryOperator

inductive PrefixOperator where
  | not
  | negate
deriving DecidableEq, Repr

namespace PrefixOperator

def symbol : PrefixOperator → Symbol
  | not => .exclamation
  | negate => .minus

/-- The operator that a symbol writes before an operand. -/
def ofSymbol? : Symbol → Option PrefixOperator
  | .exclamation => some not
  | .minus => some negate
  | _ => none

def text (operator : PrefixOperator) : String :=
  operator.symbol.text

theorem ofSymbol?_eq_some_iff {sign : Symbol} {operator : PrefixOperator} :
    ofSymbol? sign = some operator ↔ sign = operator.symbol := by
  cases sign <;> cases operator <;> decide

end PrefixOperator

end TemplatedJson
