import TemplatedJson.Proofs.Expr.Literals
import TemplatedJson.Proofs.Lexing.Layout

/-!
# The grammar and the places of tokens

The grammar asks for the kinds of tokens and for the texts of literals and properties.  Where a
token stands does not matter, so tokens of the same shapes derive the same phrases.  What
stands between the quotes of a string goes into a literal only.  So tokens that agree up to
their strings derive the same phrases up to the literals of these strings.
-/

namespace TemplatedJson

/-- What the grammar may ask of a token, when it does not tell apart literals of strings that
are replaced by the same one. -/
def Token.role (replace : Literal → Literal) (token : Token) : Literal ⊕ (Token.Kind × String) :=
  match token.kind with
  | .string content _ => .inl (replace ⟨.string content, token.raw⟩)
  | _ => .inr token.shape

namespace Grammar

variable {token other : Token} {phrase : Phrase} {tokens others : List Token}

/-! ### Tokens of the same shape -/

theorem kind_congr (same : other.shape = token.shape) {kind : Token.Kind}
    (known : token.kind = kind) : other.kind = kind :=
  (congrArg Prod.fst same).trans known

theorem literal?_congr (same : other.shape = token.shape) : literal? other = literal? token := by
  obtain ⟨kind, raw⟩ := Prod.mk.inj same
  unfold literal?
  rw [kind, raw]

theorem propertyName?_congr (same : other.shape = token.shape) :
    propertyName? other = propertyName? token := by
  obtain ⟨kind, raw⟩ := Prod.mk.inj same
  unfold propertyName?
  rw [kind, raw]

theorem scopeName?_congr (same : other.shape = token.shape) :
    scopeName? other = scopeName? token := by
  unfold scopeName?
  rw [kind_congr same rfl]

/-! ### Tokens of the same role -/

variable {replace : Literal → Literal}

theorem role_congr (same : other.shape = token.shape) :
    other.role replace = token.role replace := by
  obtain ⟨kind, raw⟩ := Prod.mk.inj same
  unfold Token.role
  rw [kind, raw, same]

theorem map_role_congr (same : others.map Token.shape = tokens.map Token.shape) :
    others.map (Token.role replace) = tokens.map (Token.role replace) := by
  induction tokens generalizing others with
  | nil =>
      obtain rfl := List.map_eq_nil_iff.mp same
      rfl
  | cons token tokens ih =>
      obtain ⟨other, others, rfl, sameToken, sameTokens⟩ := List.map_eq_cons_iff.mp same
      rw [List.map_cons, List.map_cons, role_congr sameToken, ih sameTokens]

/-- Nothing but strings is replaced. -/
theorem shape_of_role (same : other.role replace = token.role replace)
    (noString : ∀ content quote, token.kind ≠ .string content quote) :
    other.shape = token.shape := by
  have plain : token.role replace = .inr token.shape := by
    unfold Token.role
    split
    · next content quote isString => exact absurd isString (noString content quote)
    · rfl
  rw [plain] at same
  unfold Token.role at same
  split at same
  · cases same
  · exact Sum.inr.inj same

theorem symbol_of_role (same : other.role replace = token.role replace) {symbol : Symbol}
    (known : token.kind = .symbol symbol) : other.kind = .symbol symbol :=
  kind_congr (shape_of_role same (by simp [known])) known

theorem identifier_of_role (same : other.role replace = token.role replace) {name : String}
    (known : token.kind = .identifier name) : other.kind = .identifier name :=
  kind_congr (shape_of_role same (by simp [known])) known

theorem scopeName?_of_role (same : other.role replace = token.role replace) {name : String}
    (found : scopeName? token = some name) : scopeName? other = some name := by
  have noString : ∀ content quote, token.kind ≠ .string content quote := by
    intro content quote isString
    simp [scopeName?, isString] at found
  rw [scopeName?_congr (shape_of_role same noString), found]

theorem propertyName?_of_role (same : other.role replace = token.role replace) {name : String}
    (found : propertyName? token = some name) : propertyName? other = some name := by
  have noString : ∀ content quote, token.kind ≠ .string content quote := by
    intro content quote isString
    simp [propertyName?, isString] at found
  rw [propertyName?_congr (shape_of_role same noString), found]

theorem exists_literal_of_role (same : other.role replace = token.role replace) {leaf : Literal}
    (found : literal? token = some leaf) :
    ∃ otherLeaf, literal? other = some otherLeaf ∧ replace otherLeaf = replace leaf := by
  cases kind : token.kind with
  | string content quote =>
      simp only [literal?, kind, Option.some.injEq] at found
      subst found
      unfold Token.role at same
      rw [kind] at same
      split at same
      · next content' quote' isString =>
          exact ⟨_, by rw [literal?, isString], Sum.inl.inj same⟩
      · cases same
  | _ =>
      have sameShape := shape_of_role same (by simp [kind])
      exact ⟨leaf, (literal?_congr sameShape).trans found, rfl⟩

/-- Whether tokens derive a phrase, up to literals that are replaced by the same one. -/
@[reducible]
def DerivesUpTo (replace : Literal → Literal) (tokens : List Token) : Phrase → Prop
  | .expression tree => ∃ other, Derives (.expression other) tokens ∧
      other.mapLiterals replace = tree.mapLiterals replace
  | .level rank tree => ∃ other, Derives (.level rank other) tokens ∧
      other.mapLiterals replace = tree.mapLiterals replace
  | .operand tree => ∃ other, Derives (.operand other) tokens ∧
      other.mapLiterals replace = tree.mapLiterals replace
  | .chain tree => ∃ other, Derives (.chain other) tokens ∧
      other.mapLiterals replace = tree.mapLiterals replace
  | .primary tree => ∃ other, Derives (.primary other) tokens ∧
      other.mapLiterals replace = tree.mapLiterals replace
  | .selector picked => ∃ other, Derives (.selector other) tokens ∧
      Expr.mapSelector replace other = Expr.mapSelector replace picked
  | .arguments trees => ∃ other, Derives (.arguments other) tokens ∧
      Expr.mapList replace other = Expr.mapList replace trees

/-- Tokens of the same roles derive the same phrases, up to literals that are replaced by the
same one. -/
theorem Derives.respell (derivation : Derives phrase tokens)
    (same : others.map (Token.role replace) = tokens.map (Token.role replace)) :
    DerivesUpTo replace others phrase := by
  induction derivation generalizing others with
  | chained _ ih =>
      obtain ⟨_, derivation, alike⟩ := ih same
      exact ⟨_, .chained derivation, alike⟩
  | tighter loose _ ih =>
      obtain ⟨_, derivation, alike⟩ := ih same
      exact ⟨_, .tighter loose derivation, alike⟩
  | single _ ih =>
      obtain ⟨_, derivation, alike⟩ := ih same
      exact ⟨_, .single derivation, alike⟩
  | bare _ ih =>
      obtain ⟨_, derivation, alike⟩ := ih same
      exact ⟨_, .bare derivation, alike⟩
  | unchained _ ih =>
      obtain ⟨_, derivation, alike⟩ := ih same
      exact ⟨_, .unchained derivation, alike⟩
  | lastArgument _ ih =>
      obtain ⟨_, derivation, alike⟩ := ih same
      exact ⟨_, .lastArgument derivation, by simp [Expr.mapList, alike]⟩
  | noArgument =>
      obtain rfl := List.map_eq_nil_iff.mp same
      exact ⟨[], .noArgument, rfl⟩
  | conditional _ asks _ divides _ condition consequent alternate =>
      simp only [List.map_append, List.map_cons, List.map_eq_append_iff,
        List.map_eq_cons_iff] at same
      obtain ⟨whether, _, rfl, sameWhether, question, _, rfl, sameQuestion, yes, _, rfl, sameYes,
        colon, no, rfl, sameColon, sameNo⟩ := same
      obtain ⟨_, derivesWhether, alikeWhether⟩ := condition sameWhether
      obtain ⟨_, derivesYes, alikeYes⟩ := consequent sameYes
      obtain ⟨_, derivesNo, alikeNo⟩ := alternate sameNo
      exact ⟨_, .conditional derivesWhether (symbol_of_role sameQuestion asks) derivesYes
        (symbol_of_role sameColon divides) derivesNo,
        by simp [Expr.mapLiterals, alikeWhether, alikeYes, alikeNo]⟩
  | binary _ kind _ left right =>
      simp only [List.map_append, List.map_cons, List.map_eq_append_iff,
        List.map_eq_cons_iff] at same
      obtain ⟨before, _, rfl, sameBefore, sign, after, rfl, sameSign, sameAfter⟩ := same
      obtain ⟨_, derivesLeft, alikeLeft⟩ := left sameBefore
      obtain ⟨_, derivesRight, alikeRight⟩ := right sameAfter
      exact ⟨_, .binary derivesLeft (symbol_of_role sameSign kind) derivesRight,
        by simp [Expr.mapLiterals, alikeLeft, alikeRight]⟩
  | prefixed kind _ ih =>
      obtain ⟨sign, operand, rfl, sameSign, sameOperand⟩ := List.map_eq_cons_iff.mp same
      obtain ⟨_, derivation, alike⟩ := ih sameOperand
      exact ⟨_, .prefixed (symbol_of_role sameSign kind) derivation,
        by simp [Expr.mapLiterals, alike]⟩
  | call _ opens _ closes callee arguments =>
      simp only [List.map_append, List.map_cons, List.map_nil, List.map_eq_append_iff,
        List.map_eq_cons_iff, List.map_eq_nil_iff] at same
      obtain ⟨before, _, rfl, sameBefore, opening, _, rfl, sameOpening, inside, _, rfl, sameInside,
        closing, _, rfl, sameClosing, rfl⟩ := same
      obtain ⟨_, derivesCallee, alikeCallee⟩ := callee sameBefore
      obtain ⟨_, derivesArguments, alikeArguments⟩ := arguments sameInside
      exact ⟨_, .call derivesCallee (symbol_of_role sameOpening opens) derivesArguments
        (symbol_of_role sameClosing closes),
        by simp [Expr.mapLiterals, alikeCallee, alikeArguments]⟩
  | select _ _ base selector =>
      obtain ⟨before, after, rfl, sameBefore, sameAfter⟩ :=
        List.map_eq_append_iff.mp (same.trans List.map_append)
      obtain ⟨_, derivesBase, alikeBase⟩ := base sameBefore
      obtain ⟨_, derivesSelector, alikeSelector⟩ := selector sameAfter
      exact ⟨_, .select derivesBase derivesSelector,
        by simp [Expr.mapLiterals, alikeBase, alikeSelector]⟩
  | literal found =>
      obtain ⟨token, rfl, sameToken⟩ := List.map_eq_singleton_iff.mp same
      obtain ⟨leaf, otherFound, alike⟩ := exists_literal_of_role sameToken found
      exact ⟨_, .literal otherFound, by simp [Expr.mapLiterals, alike]⟩
  | identifier named =>
      obtain ⟨token, rfl, sameToken⟩ := List.map_eq_singleton_iff.mp same
      exact ⟨_, .identifier (identifier_of_role sameToken named), rfl⟩
  | scope found _ ih =>
      obtain ⟨token, selected, rfl, sameToken, sameSelected⟩ := List.map_eq_cons_iff.mp same
      obtain ⟨_, derivation, alike⟩ := ih sameSelected
      exact ⟨_, .scope (scopeName?_of_role sameToken found) derivation,
        by simp [Expr.mapLiterals, alike]⟩
  | parenthesized opens _ closes ih =>
      simp only [List.map_append, List.map_cons, List.map_nil, List.map_eq_append_iff,
        List.map_eq_cons_iff, List.map_eq_nil_iff] at same
      obtain ⟨opening, _, rfl, sameOpening, inside, _, rfl, sameInside, closing, _, rfl,
        sameClosing, rfl⟩ := same
      obtain ⟨_, derivation, alike⟩ := ih sameInside
      exact ⟨_, .parenthesized (symbol_of_role sameOpening opens) derivation
        (symbol_of_role sameClosing closes), by simp [Expr.mapLiterals, alike]⟩
  | property dots found =>
      simp only [List.map_cons, List.map_nil, List.map_eq_cons_iff, List.map_eq_nil_iff] at same
      obtain ⟨dot, _, rfl, sameDot, token, _, rfl, sameToken, rfl⟩ := same
      exact ⟨_, .property (symbol_of_role sameDot dots) (propertyName?_of_role sameToken found),
        rfl⟩
  | bracketName opens named closes =>
      simp only [List.map_cons, List.map_nil, List.map_eq_cons_iff, List.map_eq_nil_iff] at same
      obtain ⟨opening, _, rfl, sameOpening, token, _, rfl, sameToken, closing, _, rfl, sameClosing,
        rfl⟩ := same
      exact ⟨_, .bracketName (symbol_of_role sameOpening opens) (identifier_of_role sameToken named)
        (symbol_of_role sameClosing closes), rfl⟩
  | bracketKey opens _ notName closes ih =>
      simp only [List.map_append, List.map_cons, List.map_nil, List.map_eq_append_iff,
        List.map_eq_cons_iff, List.map_eq_nil_iff] at same
      obtain ⟨opening, _, rfl, sameOpening, inside, _, rfl, sameInside, closing, _, rfl,
        sameClosing, rfl⟩ := same
      obtain ⟨otherKey, derivation, alike⟩ := ih sameInside
      have notNameEither : ∀ name, otherKey ≠ .identifier name := by
        rintro name rfl
        exact notName name (Expr.mapLiterals_eq_identifier_iff.mp alike.symm)
      exact ⟨_, .bracketKey (symbol_of_role sameOpening opens) derivation notNameEither
        (symbol_of_role sameClosing closes), by simp [Expr.mapSelector, alike]⟩
  | argument _ divides _ first rest =>
      simp only [List.map_append, List.map_cons, List.map_eq_append_iff,
        List.map_eq_cons_iff] at same
      obtain ⟨before, _, rfl, sameBefore, comma, after, rfl, sameComma, sameAfter⟩ := same
      obtain ⟨_, derivesFirst, alikeFirst⟩ := first sameBefore
      obtain ⟨more, derivesRest, alikeRest⟩ := rest sameAfter
      cases more with
      | nil => cases alikeRest
      | cons second later =>
          exact ⟨_, .argument derivesFirst (symbol_of_role sameComma divides) derivesRest,
            by simp only [Expr.mapList, alikeFirst] at alikeRest ⊢; rw [alikeRest]⟩

/-- With every literal replaced by itself, the phrase itself is derived. -/
theorem DerivesUpTo.derives (derives : DerivesUpTo id tokens phrase) : Derives phrase tokens := by
  cases phrase with
  | selector picked =>
      obtain ⟨other, derivation, alike⟩ := derives
      rw [Expr.mapSelector_id, Expr.mapSelector_id] at alike
      exact alike ▸ derivation
  | arguments trees =>
      obtain ⟨other, derivation, alike⟩ := derives
      rw [Expr.mapList_id, Expr.mapList_id] at alike
      exact alike ▸ derivation
  | _ =>
      obtain ⟨other, derivation, alike⟩ := derives
      rw [Expr.mapLiterals_id, Expr.mapLiterals_id] at alike
      exact alike ▸ derivation

/-- Tokens of the same shapes derive the same phrases. -/
theorem Derives.congr (derivation : Derives phrase tokens)
    (same : others.map Token.shape = tokens.map Token.shape) : Derives phrase others :=
  (derivation.respell (map_role_congr same)).derives

end Grammar

end TemplatedJson
