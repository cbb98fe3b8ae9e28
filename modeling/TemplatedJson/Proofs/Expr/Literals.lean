import TemplatedJson.Proofs.Expr.Grammar

/-!
# Literals of expressions

Every literal of an expression comes from one of the tokens that the expression was read
from.
-/

namespace TemplatedJson

/-- Whether the value of a number is what its text denotes. -/
def Literal.Exact (literal : Literal) : Prop :=
  ∀ number, literal.value = .number number → Number.ofText? literal.raw = some number

theorem Literal.exact_of_number? {raw : String} {literal : Literal}
    (found : Literal.number? raw = some literal) : literal.Exact := by
  obtain ⟨number, known, rfl⟩ := Option.map_eq_some_iff.mp found
  intro other same
  rw [known, Value.number.inj same]

namespace Expr

mutual

/-- The literals of an expression, as they are written from left to right. -/
def literals : Expr → List Literal
  | literal leaf => [leaf]
  | identifier _ => []
  | scope _ selector => selectorLiterals selector
  | select base selector => base.literals ++ selectorLiterals selector
  | call callee arguments => callee.literals ++ listLiterals arguments
  | prefixed _ operand => operand.literals
  | binary _ left right => left.literals ++ right.literals
  | conditional condition consequent alternate =>
      condition.literals ++ (consequent.literals ++ alternate.literals)
  | parenthesized inner => inner.literals

def selectorLiterals : Selector Expr → List Literal
  | .name _ => []
  | .key key => key.literals

def listLiterals : List Expr → List Literal
  | [] => []
  | first :: rest => first.literals ++ listLiterals rest

end

/-- Whether the value of each number in an expression is what its text denotes. -/
def Exact (expr : Expr) : Prop :=
  ∀ leaf ∈ expr.literals, leaf.Exact

/-! ### Other literals in the same tree -/

mutual

/-- The same tree with each literal replaced. -/
def mapLiterals (replace : Literal → Literal) : Expr → Expr
  | literal leaf => literal (replace leaf)
  | identifier name => identifier name
  | scope name selector => scope name (mapSelector replace selector)
  | select base selector => select (base.mapLiterals replace) (mapSelector replace selector)
  | call callee arguments => call (callee.mapLiterals replace) (mapList replace arguments)
  | prefixed operator operand => prefixed operator (operand.mapLiterals replace)
  | binary operator left right =>
      binary operator (left.mapLiterals replace) (right.mapLiterals replace)
  | conditional condition consequent alternate =>
      conditional (condition.mapLiterals replace) (consequent.mapLiterals replace)
        (alternate.mapLiterals replace)
  | parenthesized inner => parenthesized (inner.mapLiterals replace)

def mapSelector (replace : Literal → Literal) : Selector Expr → Selector Expr
  | .name name => .name name
  | .key key => .key (key.mapLiterals replace)

def mapList (replace : Literal → Literal) : List Expr → List Expr
  | [] => []
  | first :: rest => first.mapLiterals replace :: mapList replace rest

end

mutual

theorem height_mapLiterals (replace : Literal → Literal) :
    (tree : Expr) → (tree.mapLiterals replace).height = tree.height
  | literal _ => rfl
  | identifier _ => rfl
  | scope _ selector => by simp [mapLiterals, height, height_mapSelector replace selector]
  | select base selector => by
      simp [mapLiterals, height, height_mapLiterals replace base,
        height_mapSelector replace selector]
  | call callee arguments => by
      simp [mapLiterals, height, height_mapLiterals replace callee,
        tallest_mapList replace arguments]
  | prefixed _ operand => by simp [mapLiterals, height, height_mapLiterals replace operand]
  | binary _ left right => by
      simp [mapLiterals, height, height_mapLiterals replace left,
        height_mapLiterals replace right]
  | conditional condition consequent alternate => by
      simp [mapLiterals, height, height_mapLiterals replace condition,
        height_mapLiterals replace consequent, height_mapLiterals replace alternate]
  | parenthesized inner => by simp [mapLiterals, height, height_mapLiterals replace inner]

theorem height_mapSelector (replace : Literal → Literal) :
    (selector : Selector Expr) →
      selectorHeight (mapSelector replace selector) = selectorHeight selector
  | .name _ => rfl
  | .key key => height_mapLiterals replace key

theorem tallest_mapList (replace : Literal → Literal) :
    (trees : List Expr) → tallest (mapList replace trees) = tallest trees
  | [] => rfl
  | first :: rest => by
      simp [mapList, tallest, height_mapLiterals replace first, tallest_mapList replace rest]

end

mutual

theorem mapLiterals_id : (tree : Expr) → tree.mapLiterals id = tree
  | literal _ => rfl
  | identifier _ => rfl
  | scope _ selector => by simp [mapLiterals, mapSelector_id selector]
  | select base selector => by
      simp [mapLiterals, mapLiterals_id base, mapSelector_id selector]
  | call callee arguments => by simp [mapLiterals, mapLiterals_id callee, mapList_id arguments]
  | prefixed _ operand => by simp [mapLiterals, mapLiterals_id operand]
  | binary _ left right => by simp [mapLiterals, mapLiterals_id left, mapLiterals_id right]
  | conditional condition consequent alternate => by
      simp [mapLiterals, mapLiterals_id condition, mapLiterals_id consequent,
        mapLiterals_id alternate]
  | parenthesized inner => by simp [mapLiterals, mapLiterals_id inner]

theorem mapSelector_id : (selector : Selector Expr) → mapSelector id selector = selector
  | .name _ => rfl
  | .key key => by simp [mapSelector, mapLiterals_id key]

theorem mapList_id : (trees : List Expr) → mapList id trees = trees
  | [] => rfl
  | first :: rest => by simp [mapList, mapLiterals_id first, mapList_id rest]

end

theorem mapLiterals_eq_identifier_iff {replace : Literal → Literal} {tree : Expr} {name : String} :
    tree.mapLiterals replace = .identifier name ↔ tree = .identifier name := by
  cases tree <;> simp [mapLiterals]

end Expr

namespace Grammar

theorem exact_of_literal? {token : Token} {leaf : Literal} (found : literal? token = some leaf) :
    leaf.Exact := by
  unfold literal? at found
  split at found
  · exact Literal.exact_of_number? found
  all_goals
    cases found
    try exact fun _ same => nomatch same

/-- The literals of the trees of a phrase. -/
def Phrase.literals : Phrase → List Literal
  | expression tree | level _ tree | operand tree | chain tree | primary tree => tree.literals
  | selector picked => Expr.selectorLiterals picked
  | arguments trees => Expr.listLiterals trees

/-- Whether each of some literals comes from one of some tokens. -/
def ComeFrom (tokens : List Token) (leaves : List Literal) : Prop :=
  ∀ leaf ∈ leaves, ∃ token ∈ tokens, literal? token = some leaf

variable {tokens more : List Token} {leaves others : List Literal}

theorem comeFrom_nil : ComeFrom tokens [] :=
  List.forall_mem_nil _

theorem ComeFrom.mono (come : ComeFrom tokens leaves) (subset : ∀ token ∈ tokens, token ∈ more) :
    ComeFrom more leaves := by
  intro leaf member
  obtain ⟨token, among, found⟩ := come leaf member
  exact ⟨token, subset token among, found⟩

theorem ComeFrom.append (come : ComeFrom tokens leaves) (comeOthers : ComeFrom tokens others) :
    ComeFrom tokens (leaves ++ others) :=
  List.forall_mem_append.mpr ⟨come, comeOthers⟩

/-- The literals of a phrase come from its tokens. -/
theorem Derives.comeFrom {phrase : Phrase} (derivation : Derives phrase tokens) :
    ComeFrom tokens phrase.literals := by
  induction derivation with
  | chained _ ih | tighter _ _ ih | single _ ih | bare _ ih | unchained _ ih => exact ih
  | literal found => simpa [Phrase.literals, Expr.literals, ComeFrom] using found
  | identifier | property | bracketName | noArgument => exact comeFrom_nil
  | prefixed _ _ ih | scope _ _ ih | parenthesized _ _ _ ih | bracketKey _ _ _ _ ih =>
      exact ih.mono (by simp +contextual)
  | conditional _ _ _ _ _ ihCondition ihConsequent ihAlternate =>
      refine .append (ihCondition.mono ?_) (.append (ihConsequent.mono ?_) (ihAlternate.mono ?_)) <;>
        simp +contextual
  | binary _ _ _ ihLeft ihRight => refine .append (ihLeft.mono ?_) (ihRight.mono ?_) <;> simp +contextual
  | call _ _ _ _ ihCallee ihArguments =>
      refine .append (ihCallee.mono ?_) (ihArguments.mono ?_) <;> simp +contextual
  | select _ _ ihBase ihSelector =>
      refine .append (ihBase.mono ?_) (ihSelector.mono ?_) <;> simp +contextual
  | lastArgument _ ih => exact .append ih comeFrom_nil
  | argument _ _ _ ihFirst ihRest =>
      refine .append (ihFirst.mono ?_) (ihRest.mono ?_) <;> simp +contextual

theorem Derives.exact {phrase : Phrase} (derivation : Derives phrase tokens) :
    ∀ leaf ∈ phrase.literals, leaf.Exact := by
  intro leaf member
  obtain ⟨token, -, found⟩ := derivation.comeFrom leaf member
  exact exact_of_literal? found

end Grammar

end TemplatedJson
