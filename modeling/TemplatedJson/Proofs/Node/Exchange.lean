import TemplatedJson.Proofs.Expr.Inside
import TemplatedJson.Proofs.Node.Congruence
import TemplatedJson.Proofs.Reading.Exchange
import TemplatedJson.Proofs.Template.Range

/-!
# Values with one string for another

The JSON parser runs alike in two texts with one string for another.  A value leaves the
brackets around it open, so behind every comma of an object a key is looked for, where the
strings do not stand.  Where they stand, the same expression is read in both.
-/

namespace TemplatedJson

/-! ### Spots in containers -/

namespace Spot

end Spot

namespace Parse

variable {exchange : Exchange} {begins ends : Spot → Prop} {spot : Spot}
  {cursor otherCursor : Cursor} {token other : Token} {content otherContent : String}
  {maximum : Nat} {brackets : List Symbol}

/-! ### Strings -/

end Parse

end TemplatedJson
