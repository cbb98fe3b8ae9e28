import TemplatedJson.Proofs.Expr.Printing

/-!
# Well-formed expressions

Printing adds no parentheses and no blanks inside of names.  So a tree that was put
together by hand is read back only if its leaves are spelled like tokens and its
operands stand on the levels that the grammar has for them.  These are exactly the
trees that some tokens derive.
-/

namespace TemplatedJson

/-- The token that a text lexes to, if it lexes to a single one. -/
def onlyToken? (text : String) : Option Token :=
  match tokenize text with
  | .ok [token, _] => some token
  | _ => none

namespace Expr

open Grammar

/-- The level of the grammar on which a tree stands.  A choice is the loosest tree.
Binary operators stand on the level of their precedence, prefix operators above all of
them, and every other tree is tighter still. -/
def level : Expr → Nat
  | conditional _ _ _ => 0
  | binary operator _ _ => operator.precedence
  | prefixed _ _ => operandLevel
  | _ => operandLevel + 1

/-- Whether an expression is a name alone. -/
def isName : Expr → Bool
  | identifier _ => true
  | _ => false

mutual

/-- Whether the leaves of a tree are spelled like tokens of their own, and whether
each part of it stands on a level that its place admits. -/
def WellFormed : Expr → Prop
  | literal leaf => (onlyToken? leaf.raw).bind literal? = some leaf
  | identifier name => (onlyToken? name).map Token.kind = some (.identifier name)
  | scope name selector =>
      (name = defaultScope ∨ (onlyToken? ("$" ++ name)).map Token.kind = some (.scope name)) ∧
        WellFormedSelector selector
  | select base selector =>
      operandLevel < base.level ∧ base.WellFormed ∧ WellFormedSelector selector
  | call callee arguments =>
      operandLevel < callee.level ∧ callee.WellFormed ∧ AllWellFormed arguments
  | prefixed _ operand => operandLevel ≤ operand.level ∧ operand.WellFormed
  | binary operator left right =>
      (operator.precedence ≤ left.level ∧ left.WellFormed) ∧
        operator.precedence < right.level ∧ right.WellFormed
  | conditional condition consequent alternate =>
      (0 < condition.level ∧ condition.WellFormed) ∧
        consequent.WellFormed ∧ alternate.WellFormed
  | parenthesized inner => inner.WellFormed

/-- A fixed name is a name or a keyword, and a computed key is not a name alone. -/
def WellFormedSelector : Selector Expr → Prop
  | .name name => (onlyToken? name).bind propertyName? = some name
  | .key key => key.isName = false ∧ key.WellFormed

def AllWellFormed : List Expr → Prop
  | [] => True
  | first :: rest => first.WellFormed ∧ AllWellFormed rest

end

mutual

def decideWellFormed : (tree : Expr) → Decidable tree.WellFormed
  | literal _ => inferInstanceAs (Decidable (_ = _))
  | identifier _ => inferInstanceAs (Decidable (_ = _))
  | scope _ selector =>
      have := decideWellFormedSelector selector
      inferInstanceAs (Decidable ((_ = _ ∨ _ = _) ∧ _))
  | select base selector =>
      have := base.decideWellFormed
      have := decideWellFormedSelector selector
      inferInstanceAs (Decidable (_ < _ ∧ _ ∧ _))
  | call callee arguments =>
      have := callee.decideWellFormed
      have := decideAllWellFormed arguments
      inferInstanceAs (Decidable (_ < _ ∧ _ ∧ _))
  | prefixed _ operand =>
      have := operand.decideWellFormed
      inferInstanceAs (Decidable (_ ≤ _ ∧ _))
  | binary _ left right =>
      have := left.decideWellFormed
      have := right.decideWellFormed
      inferInstanceAs (Decidable ((_ ≤ _ ∧ _) ∧ _ < _ ∧ _))
  | conditional condition consequent alternate =>
      have := condition.decideWellFormed
      have := consequent.decideWellFormed
      have := alternate.decideWellFormed
      inferInstanceAs (Decidable ((_ < _ ∧ _) ∧ _ ∧ _))
  | parenthesized inner => inner.decideWellFormed

def decideWellFormedSelector : (selector : Selector Expr) → Decidable (WellFormedSelector selector)
  | .name _ => inferInstanceAs (Decidable (_ = _))
  | .key key =>
      have := key.decideWellFormed
      inferInstanceAs (Decidable (_ = _ ∧ _))

def decideAllWellFormed : (trees : List Expr) → Decidable (AllWellFormed trees)
  | [] => inferInstanceAs (Decidable True)
  | first :: rest =>
      have := first.decideWellFormed
      have := decideAllWellFormed rest
      inferInstanceAs (Decidable (_ ∧ _))

end

instance : DecidablePred WellFormed := decideWellFormed

end Expr

/-! ### Texts of single tokens -/

theorem lexical_of_onlyToken? {text : String} {token : Token} (found : onlyToken? text = some token) :
    token.Lexical := by
  unfold onlyToken? at found
  split at found
  · next single final lexed =>
      obtain rfl := Option.some.inj found
      have known : ∃ final, tokenize text = .ok ([single] ++ [final]) := ⟨final, lexed⟩
      obtain ⟨last, yields, -⟩ := exists_tokenize_iff.mp known
      exact yields.lexical single List.mem_cons_self
  · cases found

/-- The text of a token lexes to this token alone. -/
theorem onlyToken?_raw {token : Token} (lexical : token.Lexical) :
    ∃ offset, onlyToken? token.raw = some ⟨token.kind, token.raw, offset⟩ := by
  have ended := Scan.endsBefore_of_stops token.kind Scan.stops_nil (by simp)
  obtain ⟨tokens, final, lexed, offset, rfl⟩ := (Lexes.written lexical).exists_tokenize ended
  rw [String.ofList_toList] at lexed
  exact ⟨offset, by simp [onlyToken?, lexed]⟩

namespace Grammar

/-! ### Well-formed trees are derived -/

/-- Whether some tokens that the lexer can answer derive a phrase. -/
def Derivable (phrase : Phrase) : Prop :=
  ∃ tokens, (∀ token ∈ tokens, token.Lexical) ∧ Derives phrase tokens

theorem derivable_of_onlyToken? {phrase : Phrase} {text : String} {token : Token}
    (found : onlyToken? text = some token) (derivation : Derives phrase [token]) :
    Derivable phrase :=
  ⟨[token], by simpa using lexical_of_onlyToken? found, derivation⟩

/-- A token of a symbol. -/
def signOf (symbol : Symbol) : Token :=
  ⟨.symbol symbol, symbol.text, 0⟩

theorem lexical_signOf (symbol : Symbol) : (signOf symbol).Lexical :=
  .symbol symbol

/-- Tokens behind a symbol. -/
theorem lexical_cons {after : List Token} (symbol : Symbol)
    (lexical : ∀ token ∈ after, token.Lexical) :
    ∀ token ∈ signOf symbol :: after, token.Lexical :=
  List.forall_mem_cons.mpr ⟨lexical_signOf symbol, lexical⟩

/-- Tokens before and behind a symbol. -/
theorem lexical_joined {before after : List Token} (lexical : ∀ token ∈ before, token.Lexical)
    (symbol : Symbol) (lexicalAfter : ∀ token ∈ after, token.Lexical) :
    ∀ token ∈ before ++ signOf symbol :: after, token.Lexical :=
  List.forall_mem_append.mpr ⟨lexical, lexical_cons symbol lexicalAfter⟩

/-- Tokens between two symbols. -/
theorem lexical_enclosed {inside : List Token} (opening : Symbol)
    (lexical : ∀ token ∈ inside, token.Lexical) (closing : Symbol) :
    ∀ token ∈ signOf opening :: (inside ++ [signOf closing]), token.Lexical :=
  lexical_cons opening (lexical_joined lexical closing (List.forall_mem_nil _))

variable {tree first second : Expr} {picked : Selector Expr} {trees : List Expr}

/-- Whether tokens derive a tree on every level up to its own. -/
structure Stands (tree : Expr) : Prop where
  expression : Derivable (.expression tree)
  level : ∀ rank, 0 < rank → rank ≤ operandLevel → rank ≤ tree.level → Derivable (.level rank tree)
  operand : operandLevel ≤ tree.level → Derivable (.operand tree)
  chain : operandLevel < tree.level → Derivable (.chain tree)

theorem Derivable.loosen {rank looser : Nat} (derivable : Derivable (.level rank tree))
    (looserLe : looser ≤ rank) (rankLe : rank ≤ operandLevel) : Derivable (.level looser tree) := by
  obtain ⟨tokens, lexical, derivation⟩ := derivable
  exact ⟨tokens, lexical, derivation.loosen looserLe rankLe⟩

theorem Derivable.chained (derivable : Derivable (.level 1 tree)) : Derivable (.expression tree) := by
  obtain ⟨tokens, lexical, derivation⟩ := derivable
  exact ⟨tokens, lexical, .chained derivation⟩

theorem Derivable.bare (derivable : Derivable (.chain tree)) : Derivable (.operand tree) := by
  obtain ⟨tokens, lexical, derivation⟩ := derivable
  exact ⟨tokens, lexical, .bare derivation⟩

theorem Derivable.single (derivable : Derivable (.operand tree)) :
    Derivable (.level operandLevel tree) := by
  obtain ⟨tokens, lexical, derivation⟩ := derivable
  exact ⟨tokens, lexical, .single derivation⟩

theorem stands_of_conditional (derivable : Derivable (.expression tree)) (loosest : tree.level = 0) :
    Stands tree where
  expression := derivable
  level _ positive _ low := by omega
  operand tight := absurd tight (by simp [loosest, operandLevel])
  chain tight := absurd tight (by simp [loosest])

theorem stands_of_level (derivable : Derivable (.level tree.level tree)) (positive : 0 < tree.level)
    (loose : tree.level < operandLevel) : Stands tree where
  expression := (derivable.loosen positive (Nat.le_of_lt loose)).chained
  level _ _ _ low := derivable.loosen low (Nat.le_of_lt loose)
  operand tight := absurd loose (Nat.not_lt.mpr tight)
  chain tight := absurd loose (Nat.not_lt.mpr (Nat.le_of_lt tight))

theorem stands_of_operand (derivable : Derivable (.operand tree)) (isOperand : tree.level = operandLevel) :
    Stands tree where
  expression := (derivable.single.loosen (by decide) (Nat.le_refl _)).chained
  level _ _ low _ := derivable.single.loosen low (Nat.le_refl _)
  operand _ := derivable
  chain tight := absurd tight (by simp [isOperand])

theorem stands_of_chain (derivable : Derivable (.chain tree)) : Stands tree where
  expression := (derivable.bare.single.loosen (by decide) (Nat.le_refl _)).chained
  level _ _ low _ := derivable.bare.single.loosen low (Nat.le_refl _)
  operand _ := derivable.bare
  chain _ := derivable

/-! ### Trees from their parts -/

theorem derivable_literal {leaf : Literal}
    (single : (onlyToken? leaf.raw).bind literal? = some leaf) :
    Derivable (.chain (.literal leaf)) := by
  obtain ⟨token, found, denotes⟩ := Option.bind_eq_some_iff.mp single
  exact derivable_of_onlyToken? found (.unchained (.literal denotes))

theorem derivable_identifier {name : String}
    (single : (onlyToken? name).map Token.kind = some (.identifier name)) :
    Derivable (.chain (.identifier name)) := by
  obtain ⟨token, found, kind⟩ := Option.map_eq_some_iff.mp single
  exact derivable_of_onlyToken? found (.unchained (.identifier kind))

theorem derivable_scope {name : String}
    (single : name = Expr.defaultScope ∨
      (onlyToken? ("$" ++ name)).map Token.kind = some (.scope name))
    (selects : Derivable (.selector picked)) : Derivable (.chain (.scope name picked)) := by
  obtain ⟨tokens, lexical, derivation⟩ := selects
  rcases single with rfl | single
  · exact ⟨_, lexical_cons .dollar lexical,
      .unchained (.scope rfl derivation)⟩
  · obtain ⟨token, found, kind⟩ := Option.map_eq_some_iff.mp single
    have named : scopeName? token = some name := by simp [scopeName?, kind]
    exact ⟨_, List.forall_mem_cons.mpr ⟨lexical_of_onlyToken? found, lexical⟩,
      .unchained (.scope named derivation)⟩

theorem derivable_select (base : Derivable (.chain tree)) (selects : Derivable (.selector picked)) :
    Derivable (.chain (.select tree picked)) := by
  obtain ⟨before, lexical, derivation⟩ := base
  obtain ⟨after, lexicalAfter, derivationAfter⟩ := selects
  exact ⟨_, List.forall_mem_append.mpr ⟨lexical, lexicalAfter⟩, .select derivation derivationAfter⟩

theorem derivable_call (callee : Derivable (.chain tree)) (arguments : Derivable (.arguments trees)) :
    Derivable (.chain (.call tree trees)) := by
  obtain ⟨before, lexical, derivation⟩ := callee
  obtain ⟨inside, lexicalInside, derivationInside⟩ := arguments
  have enclosed := lexical_enclosed .leftParenthesis lexicalInside .rightParenthesis
  exact ⟨_, List.forall_mem_append.mpr ⟨lexical, enclosed⟩, .call derivation rfl derivationInside rfl⟩

theorem derivable_prefixed (operator : PrefixOperator) (operand : Derivable (.operand tree)) :
    Derivable (.operand (.prefixed operator tree)) := by
  obtain ⟨tokens, lexical, derivation⟩ := operand
  exact ⟨_, lexical_cons operator.symbol lexical, .prefixed rfl derivation⟩

theorem derivable_binary {operator : BinaryOperator}
    (left : Derivable (.level operator.precedence first))
    (right : Derivable (.level (operator.precedence + 1) second)) :
    Derivable (.level operator.precedence (.binary operator first second)) := by
  obtain ⟨before, lexical, derivation⟩ := left
  obtain ⟨after, lexicalAfter, derivationAfter⟩ := right
  exact ⟨_, lexical_joined lexical operator.symbol lexicalAfter, .binary derivation rfl derivationAfter⟩

theorem derivable_conditional (condition : Derivable (.level 1 tree))
    (consequent : Derivable (.expression first)) (alternate : Derivable (.expression second)) :
    Derivable (.expression (.conditional tree first second)) := by
  obtain ⟨whether, lexical, derivation⟩ := condition
  obtain ⟨yes, lexicalYes, derivationYes⟩ := consequent
  obtain ⟨no, lexicalNo, derivationNo⟩ := alternate
  have divided := lexical_joined lexicalYes .colon lexicalNo
  exact ⟨_, lexical_joined lexical .question divided,
    .conditional derivation rfl derivationYes rfl derivationNo⟩

theorem derivable_parenthesized (inner : Derivable (.expression tree)) :
    Derivable (.chain (.parenthesized tree)) := by
  obtain ⟨inside, lexical, derivation⟩ := inner
  exact ⟨_, lexical_enclosed .leftParenthesis lexical .rightParenthesis,
    .unchained (.parenthesized rfl derivation rfl)⟩

theorem derivable_property {name : String}
    (single : (onlyToken? name).bind propertyName? = some name) :
    Derivable (.selector (.name name)) := by
  obtain ⟨token, found, names⟩ := Option.bind_eq_some_iff.mp single
  have lexical : ∀ other ∈ [token], other.Lexical := by simpa using lexical_of_onlyToken? found
  exact ⟨_, lexical_cons .dot lexical, .property rfl names⟩

theorem derivable_key (computed : tree.isName = false) (key : Derivable (.expression tree)) :
    Derivable (.selector (.key tree)) := by
  obtain ⟨inside, lexical, derivation⟩ := key
  have notName : ∀ name, tree ≠ .identifier name := by
    rintro name rfl
    cases computed
  exact ⟨_, lexical_enclosed .leftBracket lexical .rightBracket, .bracketKey rfl derivation notName rfl⟩

theorem derivable_argument (one : Derivable (.expression tree)) (others : Derivable (.arguments trees)) :
    Derivable (.arguments (tree :: trees)) := by
  obtain ⟨before, lexical, derivation⟩ := one
  obtain ⟨after, lexicalAfter, derivationAfter⟩ := others
  cases trees with
  | nil => exact ⟨before, lexical, .lastArgument derivation⟩
  | cons next rest =>
      exact ⟨_, lexical_joined lexical .comma lexicalAfter, .argument derivation rfl derivationAfter⟩

mutual

/-- Some tokens derive a well-formed tree on every level up to its own. -/
theorem stands_of_wellFormed : (tree : Expr) → tree.WellFormed → Stands tree
  | .literal _, single => stands_of_chain (derivable_literal single)
  | .identifier _, single => stands_of_chain (derivable_identifier single)
  | .scope _ picked, ⟨single, selects⟩ =>
      stands_of_chain (derivable_scope single (derivable_of_wellFormedSelector picked selects))
  | .select base picked, ⟨tight, isBase, selects⟩ =>
      stands_of_chain (derivable_select ((stands_of_wellFormed base isBase).chain tight)
        (derivable_of_wellFormedSelector picked selects))
  | .call callee arguments, ⟨tight, isCallee, areArguments⟩ =>
      stands_of_chain (derivable_call ((stands_of_wellFormed callee isCallee).chain tight)
        (derivable_of_allWellFormed arguments areArguments))
  | .prefixed operator operand, ⟨tight, isOperand⟩ =>
      stands_of_operand (derivable_prefixed operator
        ((stands_of_wellFormed operand isOperand).operand tight)) rfl
  | .binary operator left right, ⟨⟨low, isLeft⟩, tight, isRight⟩ =>
      have positive := precedence_pos operator
      have loose := precedence_lt operator
      have before := (stands_of_wellFormed left isLeft).level _ positive (Nat.le_of_lt loose) low
      have after := (stands_of_wellFormed right isRight).level _ (Nat.succ_pos _) loose tight
      stands_of_level (derivable_binary before after) positive loose
  | .conditional condition consequent alternate, ⟨⟨low, isCondition⟩, isConsequent, isAlternate⟩ =>
      have whether := (stands_of_wellFormed condition isCondition).level 1 (by decide) (by decide) low
      stands_of_conditional (derivable_conditional whether
        (stands_of_wellFormed consequent isConsequent).expression
        (stands_of_wellFormed alternate isAlternate).expression) rfl
  | .parenthesized inner, isInner =>
      stands_of_chain (derivable_parenthesized (stands_of_wellFormed inner isInner).expression)

theorem derivable_of_wellFormedSelector :
    (picked : Selector Expr) → Expr.WellFormedSelector picked → Derivable (.selector picked)
  | .name _, single => derivable_property single
  | .key key, ⟨computed, isKey⟩ =>
      derivable_key computed (stands_of_wellFormed key isKey).expression

theorem derivable_of_allWellFormed :
    (trees : List Expr) → Expr.AllWellFormed trees → Derivable (.arguments trees)
  | [], _ => ⟨[], by simp, .noArgument⟩
  | first :: rest, ⟨isFirst, areRest⟩ =>
      derivable_argument (stands_of_wellFormed first isFirst).expression
        (derivable_of_allWellFormed rest areRest)

end

/-! ### Derived trees are well-formed -/

/-- Whether the trees of a phrase are well-formed and stand on its level. -/
def Phrase.WellFormed : Phrase → Prop
  | expression tree => tree.WellFormed
  | level rank tree => rank ≤ tree.level ∧ tree.WellFormed
  | operand tree => operandLevel ≤ tree.level ∧ tree.WellFormed
  | chain tree | primary tree => operandLevel < tree.level ∧ tree.WellFormed
  | selector picked => Expr.WellFormedSelector picked
  | arguments trees => Expr.AllWellFormed trees

theorem literal?_onlyToken?_raw {token : Token} {leaf : Literal} (found : literal? token = some leaf)
    (lexical : token.Lexical) : (onlyToken? leaf.raw).bind literal? = some leaf := by
  obtain ⟨offset, single⟩ := onlyToken?_raw lexical
  rw [(raw_of_literal? found).1, single]
  exact found

theorem propertyName?_onlyToken? {token : Token} {name : String}
    (found : propertyName? token = some name) (lexical : token.Lexical) :
    (onlyToken? name).bind propertyName? = some name := by
  obtain ⟨offset, single⟩ := onlyToken?_raw lexical
  obtain ⟨rfl, -⟩ := eq_of_propertyName? found lexical
  rw [single]
  exact found

theorem kind_onlyToken? {token : Token} {text : String} (lexical : token.Lexical)
    (raw : token.raw = text) : (onlyToken? text).map Token.kind = some token.kind := by
  obtain ⟨offset, single⟩ := onlyToken?_raw lexical
  rw [← raw, single]
  rfl

theorem scopeName_onlyToken? {token : Token} {name : String} (found : scopeName? token = some name)
    (lexical : token.Lexical) : name = Expr.defaultScope ∨
      (onlyToken? ("$" ++ name)).map Token.kind = some (.scope name) := by
  unfold scopeName? at found
  split at found
  · next known kind =>
      obtain rfl := Option.some.inj found
      have spelled := lexical.spelled
      rw [kind] at spelled
      have raw : token.raw = "$" ++ known := by
        rw [← String.toList_inj, spelled.1, String.toList_append]
        rfl
      exact .inr (kind ▸ kind_onlyToken? lexical raw)
  · exact .inl (Option.some.inj found).symm
  · cases found

/-- A tree that lexical tokens derive is well-formed. -/
theorem Derives.wellFormed {phrase : Phrase} {tokens : List Token} (derivation : Derives phrase tokens)
    (lexical : ∀ token ∈ tokens, token.Lexical) : phrase.WellFormed := by
  induction derivation with
  | chained _ ih => exact (ih lexical).2
  | conditional _ _ _ _ _ condition consequent alternate =>
      exact ⟨condition (by grind), consequent (by grind), alternate (by grind)⟩
  | binary _ _ _ left right =>
      exact ⟨Nat.le_refl _, left (by grind), right (by grind)⟩
  | tighter _ _ ih =>
      obtain ⟨low, wellFormed⟩ := ih lexical
      exact ⟨Nat.le_of_succ_le low, wellFormed⟩
  | single _ ih => exact ih lexical
  | prefixed _ _ ih => exact ⟨Nat.le_refl _, ih (by grind)⟩
  | bare _ ih =>
      obtain ⟨tight, wellFormed⟩ := ih lexical
      exact ⟨Nat.le_of_lt tight, wellFormed⟩
  | call _ _ _ _ callee arguments =>
      obtain ⟨tight, isCallee⟩ := callee (by grind)
      exact ⟨Nat.le_refl _, tight, isCallee, arguments (by grind)⟩
  | select _ _ base picked =>
      obtain ⟨tight, isBase⟩ := base (by grind)
      exact ⟨Nat.le_refl _, tight, isBase, picked (by grind)⟩
  | unchained _ ih => exact ih lexical
  | literal found =>
      exact ⟨Nat.le_refl _, literal?_onlyToken?_raw found (lexical _ List.mem_cons_self)⟩
  | @identifier token name named =>
      have written := lexical _ List.mem_cons_self
      have spelled := written.spelled
      rw [named] at spelled
      have single := kind_onlyToken? written (String.toList_inj.mp spelled.1)
      rw [named] at single
      exact ⟨Nat.le_refl _, single⟩
  | scope found _ ih =>
      exact ⟨Nat.le_refl _, scopeName_onlyToken? found (lexical _ List.mem_cons_self), ih (by grind)⟩
  | parenthesized _ _ _ ih => exact ⟨Nat.le_refl _, ih (by grind)⟩
  | property _ found => exact propertyName?_onlyToken? found (lexical _ (by simp))
  | @bracketName _ token _ name _ named _ =>
      have found : propertyName? token = some name := by simp [propertyName?, named]
      exact propertyName?_onlyToken? found (lexical _ (by simp))
  | @bracketKey key _ _ _ _ _ computed _ ih =>
      have notName : key.isName = false := by
        cases key with
        | identifier name => exact absurd rfl (computed name)
        | _ => rfl
      exact ⟨notName, ih (by grind)⟩
  | noArgument => trivial
  | lastArgument _ ih => exact ⟨ih lexical, trivial⟩
  | argument _ _ _ first rest => exact ⟨first (by grind), rest (by grind)⟩

end Grammar

/-! ### Printing and parsing -/

namespace Expr

variable {tree : Expr}

/-- The trees of texts are well-formed. -/
theorem Spells.wellFormed {text : String} (spells : Spells text tree) : tree.WellFormed := by
  obtain ⟨tokens, final, lexed, derivation⟩ := spells
  obtain ⟨last, yields, -⟩ := exists_tokenize_iff.mp ⟨final, lexed⟩
  exact derivation.wellFormed yields.lexical

/-- A tree is spelled by its printed text exactly if it is well-formed. -/
theorem spells_source_iff : Spells tree.source tree ↔ tree.WellFormed := by
  constructor
  · exact Spells.wellFormed
  · intro wellFormed
    obtain ⟨tokens, lexical, derivation⟩ := (Grammar.stands_of_wellFormed tree wellFormed).expression
    exact derivation.spells_source lexical

end Expr

end TemplatedJson
