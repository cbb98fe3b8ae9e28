/-!
# Ranges of code points

A Unicode property is held as a table of inclusive ranges of code points in
increasing order.
-/

namespace TemplatedJson.Unicode

/-- Inclusive ranges of code points, in increasing order. -/
abbrev Ranges := List (Nat × Nat)

/-- Whether one of the ranges holds the code point. -/
def Ranges.contains (ranges : Ranges) (codePoint : Nat) : Bool :=
  ranges.any fun range => range.1 ≤ codePoint && codePoint ≤ range.2

end TemplatedJson.Unicode
