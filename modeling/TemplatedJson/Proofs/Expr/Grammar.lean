import TemplatedJson.Expr.Basic

/-!
# The grammar of expressions

The grammar is stratified: an expression is a choice or a chain of binary
operators, binary operators bind on six levels that associate to the left, and
operands are prefix operators before a primary expression with its calls and
selectors.  Every phrase of the grammar carries the tree that it derives.
-/

namespace TemplatedJson.Grammar

/-- The phrases of the grammar, each with the tree that it stands for. -/
inductive Phrase where
  | expression (tree : Expr)
  /-- Operands joined by operators that bind at least as tightly as `rank`. -/
  | level (rank : Nat) (tree : Expr)
  /-- Prefix operators before a chain. -/
  | operand (tree : Expr)
  /-- A primary expression followed by calls and selectors. -/
  | chain (tree : Expr)
  | primary (tree : Expr)
  | selector (selector : Selector Expr)
  /-- The arguments of a call, separated by commas. -/
  | arguments (trees : List Expr)

/-- The tree of a phrase that derives a single one. -/
def Phrase.tree? : Phrase → Option Expr
  | expression tree | level _ tree | operand tree | chain tree | primary tree => some tree
  | selector _ | arguments _ => none

def Phrase.isChain : Phrase → Bool
  | chain _ | primary _ => true
  | _ => false

/-- The level above those of the binary operators, on which operands stand. -/
def operandLevel : Nat := 7

/-- The literal that a token stands for.  A number stands for one only if its
value is finite. -/
def literal? (token : Token) : Option Literal :=
  match token.kind with
  | .number => Literal.number? token.raw
  | .string content _ => some ⟨.string content, token.raw⟩
  | .boolean value => some ⟨.boolean value, token.raw⟩
  | .null => some ⟨.null, token.raw⟩
  | _ => none

/-- The property that a token names after a dot: identifiers and keywords name
one. -/
def propertyName? (token : Token) : Option String :=
  match token.kind with
  | .identifier name => some name
  | .boolean _ => some token.raw
  | .null => some token.raw
  | _ => none

/-- The scope that a token opens: a name after a dollar sign, or the default
scope. -/
def scopeName? (token : Token) : Option String :=
  match token.kind with
  | .scope name => some name
  | .symbol .dollar => some Expr.defaultScope
  | _ => none

/-- Which token sequences each phrase derives. -/
inductive Derives : Phrase → List Token → Prop where
  | chained {tree : Expr} {tokens : List Token} :
      Derives (.level 1 tree) tokens → Derives (.expression tree) tokens
  | conditional {condition consequent alternate : Expr}
      {whether yes no : List Token} {question colon : Token} :
      Derives (.level 1 condition) whether → question.kind = .symbol .question →
        Derives (.expression consequent) yes → colon.kind = .symbol .colon →
          Derives (.expression alternate) no →
            Derives (.expression (.conditional condition consequent alternate))
              (whether ++ question :: (yes ++ colon :: no))
  | binary {operator : BinaryOperator} {left right : Expr} {before after : List Token}
      {sign : Token} :
      Derives (.level operator.precedence left) before → sign.kind = .symbol operator.symbol →
        Derives (.level (operator.precedence + 1) right) after →
          Derives (.level operator.precedence (.binary operator left right))
            (before ++ sign :: after)
  | tighter {rank : Nat} {tree : Expr} {tokens : List Token} :
      rank < operandLevel → Derives (.level (rank + 1) tree) tokens →
        Derives (.level rank tree) tokens
  | single {tree : Expr} {tokens : List Token} :
      Derives (.operand tree) tokens → Derives (.level operandLevel tree) tokens
  | prefixed {operator : PrefixOperator} {tree : Expr} {sign : Token} {tokens : List Token} :
      sign.kind = .symbol operator.symbol → Derives (.operand tree) tokens →
        Derives (.operand (.prefixed operator tree)) (sign :: tokens)
  | bare {tree : Expr} {tokens : List Token} :
      Derives (.chain tree) tokens → Derives (.operand tree) tokens
  | call {callee : Expr} {trees : List Expr} {before inside : List Token}
      {opening closing : Token} :
      Derives (.chain callee) before → opening.kind = .symbol .leftParenthesis →
        Derives (.arguments trees) inside → closing.kind = .symbol .rightParenthesis →
          Derives (.chain (.call callee trees)) (before ++ opening :: (inside ++ [closing]))
  | select {base : Expr} {selector : Selector Expr} {before after : List Token} :
      Derives (.chain base) before → Derives (.selector selector) after →
        Derives (.chain (.select base selector)) (before ++ after)
  | unchained {tree : Expr} {tokens : List Token} :
      Derives (.primary tree) tokens → Derives (.chain tree) tokens
  | literal {token : Token} {leaf : Literal} :
      literal? token = some leaf → Derives (.primary (.literal leaf)) [token]
  | identifier {token : Token} {name : String} :
      token.kind = .identifier name → Derives (.primary (.identifier name)) [token]
  | scope {token : Token} {name : String} {selector : Selector Expr} {tokens : List Token} :
      scopeName? token = some name → Derives (.selector selector) tokens →
        Derives (.primary (.scope name selector)) (token :: tokens)
  | parenthesized {inner : Expr} {opening closing : Token} {inside : List Token} :
      opening.kind = .symbol .leftParenthesis → Derives (.expression inner) inside →
        closing.kind = .symbol .rightParenthesis →
          Derives (.primary (.parenthesized inner)) (opening :: (inside ++ [closing]))
  | property {dot token : Token} {name : String} :
      dot.kind = .symbol .dot → propertyName? token = some name →
        Derives (.selector (.name name)) [dot, token]
  | bracketName {opening token closing : Token} {name : String} :
      opening.kind = .symbol .leftBracket → token.kind = .identifier name →
        closing.kind = .symbol .rightBracket →
          Derives (.selector (.name name)) [opening, token, closing]
  /-- A lone name between brackets is no computed key. -/
  | bracketKey {key : Expr} {opening closing : Token} {inside : List Token} :
      opening.kind = .symbol .leftBracket → Derives (.expression key) inside →
        (∀ name, key ≠ .identifier name) → closing.kind = .symbol .rightBracket →
          Derives (.selector (.key key)) (opening :: (inside ++ [closing]))
  | noArgument : Derives (.arguments []) []
  | lastArgument {tree : Expr} {tokens : List Token} :
      Derives (.expression tree) tokens → Derives (.arguments [tree]) tokens
  | argument {first second : Expr} {rest : List Expr} {before after : List Token}
      {comma : Token} :
      Derives (.expression first) before → comma.kind = .symbol .comma →
        Derives (.arguments (second :: rest)) after →
          Derives (.arguments (first :: second :: rest)) (before ++ comma :: after)

/-- A phrase of a looser level may consist of one of a tighter level alone. -/
theorem Derives.loosen {rank looser : Nat} {tree : Expr} {tokens : List Token}
    (derivation : Derives (.level rank tree) tokens) (looserLe : looser ≤ rank)
    (rankLe : rank ≤ operandLevel) : Derives (.level looser tree) tokens := by
  obtain ⟨distance, rfl⟩ := Nat.exists_eq_add_of_le looserLe
  induction distance with
  | zero => exact derivation
  | succ distance ih =>
      apply ih _ (by omega) (by omega)
      exact .tighter (by omega) derivation

/-- The tree of an operand with prefix operators before it, the outermost one
first. -/
def prefixedBy (operators : List PrefixOperator) (tree : Expr) : Expr :=
  operators.foldr Expr.prefixed tree

/-- Whether tokens spell the given prefix operators. -/
def Signs (operators : List PrefixOperator) (signs : List Token) : Prop :=
  signs.map Token.kind = operators.map fun operator => .symbol operator.symbol

theorem Signs.cons {operators : List PrefixOperator} {signs : List Token}
    {operator : PrefixOperator} {sign : Token} (kind : sign.kind = .symbol operator.symbol)
    (spelled : Signs operators signs) : Signs (operator :: operators) (sign :: signs) := by
  simpa [Signs, kind] using spelled

theorem Derives.prefixedBy {operators : List PrefixOperator} {signs tokens : List Token}
    {tree : Expr} (derivation : Derives (.operand tree) tokens) (spelled : Signs operators signs) :
    Derives (.operand (prefixedBy operators tree)) (signs ++ tokens) := by
  induction operators generalizing signs with
  | nil =>
      rw [List.map_eq_nil_iff.mp spelled]
      exact derivation
  | cons operator operators ih =>
      obtain ⟨sign, others, rfl, kind, rest⟩ := List.map_eq_cons_iff.mp spelled
      exact .prefixed kind (ih rest)

theorem precedence_pos (operator : BinaryOperator) : 0 < operator.precedence := by
  cases operator <;> decide

theorem precedence_lt (operator : BinaryOperator) : operator.precedence < operandLevel := by
  cases operator <;> decide

/-- Only a lone name derives the tree of a name. -/
theorem Derives.eq_of_identifier {phrase : Phrase} {tokens : List Token} {name : String}
    (derivation : Derives phrase tokens) (named : phrase.tree? = some (.identifier name)) :
    ∃ token : Token, tokens = [token] ∧ token.kind = .identifier name := by
  induction derivation with
  | chained _ ih | tighter _ _ ih | single _ ih | bare _ ih | unchained _ ih => exact ih named
  | @identifier token found kind =>
      simp only [Phrase.tree?, Option.some.injEq, Expr.identifier.injEq] at named
      exact ⟨token, rfl, named ▸ kind⟩
  | _ => simp [Phrase.tree?] at named

/-! ### The first tokens of a phrase -/

/-- Whether a token of this kind can begin an operand. -/
def startsOperand : Token.Kind → Bool
  | .number | .string _ _ | .boolean _ | .null | .identifier _ | .scope _ => true
  | .symbol .dollar | .symbol .leftParenthesis => true
  | .symbol symbol => (PrefixOperator.ofSymbol? symbol).isSome
  | .endOfInput => false

theorem startsOperand_of_literal? {token : Token} {leaf : Literal}
    (found : literal? token = some leaf) : startsOperand token.kind := by
  unfold literal? at found
  split at found <;> simp_all [startsOperand]

theorem startsOperand_of_scopeName? {token : Token} {name : String}
    (found : scopeName? token = some name) : startsOperand token.kind := by
  unfold scopeName? at found
  split at found <;> simp_all [startsOperand]

theorem startsOperand_prefix (operator : PrefixOperator) :
    startsOperand (.symbol operator.symbol) := by
  cases operator <;> rfl

/-- Whatever derives a tree begins with a token that begins an operand. -/
theorem Derives.starts {phrase : Phrase} {tokens : List Token} (derivation : Derives phrase tokens)
    (isTree : phrase.tree?.isSome) :
    ∃ first rest, tokens = first :: rest ∧ startsOperand first.kind := by
  induction derivation with
  | chained _ ih | tighter _ _ ih | single _ ih | bare _ ih | unchained _ ih => exact ih isTree
  | conditional _ _ _ _ _ ih | binary _ _ _ ih | call _ _ _ _ ih | select _ _ ih =>
      obtain ⟨first, rest, rfl, starts⟩ := ih rfl
      exact ⟨first, _, rfl, starts⟩
  | prefixed kind => exact ⟨_, _, rfl, by rw [kind]; exact startsOperand_prefix _⟩
  | literal found => exact ⟨_, [], rfl, startsOperand_of_literal? found⟩
  | identifier kind => exact ⟨_, [], rfl, by rw [kind]; rfl⟩
  | scope found => exact ⟨_, _, rfl, startsOperand_of_scopeName? found⟩
  | parenthesized opens => exact ⟨_, _, rfl, by rw [opens]; rfl⟩
  | property | bracketName | bracketKey | noArgument | lastArgument | argument =>
      simp [Phrase.tree?] at isTree

theorem Derives.ne_nil {phrase : Phrase} {tokens : List Token} (derivation : Derives phrase tokens)
    (isTree : phrase.tree?.isSome) : tokens ≠ [] := by
  obtain ⟨first, rest, rfl, -⟩ := derivation.starts isTree
  simp

/-- A lone name derives nothing but the tree of the name. -/
theorem Derives.tree?_of_name {phrase : Phrase} {tokens : List Token} {token : Token}
    {name : String} (derivation : Derives phrase tokens) (isTree : phrase.tree?.isSome)
    (lone : tokens = [token]) (named : token.kind = .identifier name) :
    phrase.tree? = some (.identifier name) := by
  have tooLong : ∀ {before after : List Token}, before ≠ [] → after ≠ [] →
      before ++ after ≠ [token] := by
    intro before after beforeSome afterSome same
    have lengths := congrArg List.length same
    have beforePositive := List.length_pos_iff.mpr beforeSome
    have afterPositive := List.length_pos_iff.mpr afterSome
    simp only [List.length_append, List.length_singleton] at lengths
    omega
  induction derivation with
  | chained _ ih | tighter _ _ ih | single _ ih | bare _ ih | unchained _ ih => exact ih isTree lone
  | conditional condition => exact absurd lone (tooLong (condition.ne_nil rfl) (by simp))
  | binary left => exact absurd lone (tooLong (left.ne_nil rfl) (by simp))
  | call callee => exact absurd lone (tooLong (callee.ne_nil rfl) (by simp))
  | select base selected =>
      refine absurd lone (tooLong (base.ne_nil rfl) ?_)
      cases selected <;> simp
  | prefixed kind =>
      obtain rfl := (List.cons.inj lone).1
      simp [named] at kind
  | literal found =>
      obtain rfl := (List.cons.inj lone).1
      simp [literal?, named] at found
  | identifier kind =>
      obtain rfl := (List.cons.inj lone).1
      rw [named, Token.Kind.identifier.injEq] at kind
      simp [Phrase.tree?, kind]
  | scope found =>
      obtain rfl := (List.cons.inj lone).1
      simp [scopeName?, named] at found
  | parenthesized opens =>
      obtain rfl := (List.cons.inj lone).1
      simp [named] at opens
  | property | bracketName | bracketKey | noArgument | lastArgument | argument =>
      simp [Phrase.tree?] at isTree

/-- Whether a name at the start is followed by something else than a closing
bracket. -/
def NameNotAlone (tokens : List Token) : Prop :=
  ∀ ⦃first second rest name⦄, tokens = first :: second :: rest →
    first.kind = .identifier name → second.kind ≠ .symbol .rightBracket

theorem NameNotAlone.append {before after : List Token} {next : Token}
    (holds : NameNotAlone before) (nonempty : before ≠ [])
    (other : next.kind ≠ .symbol .rightBracket) : NameNotAlone (before ++ next :: after) := by
  intro first second rest name split named
  match before, nonempty with
  | [only], _ =>
      simp only [List.cons_append, List.nil_append, List.cons.injEq] at split
      rw [← split.2.1]
      exact other
  | one :: two :: more, _ =>
      simp only [List.cons_append, List.cons.injEq] at split
      obtain ⟨rfl, rfl, -⟩ := split
      exact holds rfl named

theorem NameNotAlone.of_first {first : Token} {rest : List Token}
    (noName : ∀ name, first.kind ≠ .identifier name) : NameNotAlone (first :: rest) := by
  intro head second others name split named
  simp only [List.cons.injEq] at split
  exact absurd (split.1 ▸ named) (noName name)

/-- In the tokens of a tree no closing bracket comes right after a name at the
start. -/
theorem Derives.nameNotAlone {phrase : Phrase} {tokens : List Token}
    (derivation : Derives phrase tokens) (isTree : phrase.tree?.isSome) :
    NameNotAlone tokens := by
  induction derivation with
  | chained _ ih | tighter _ _ ih | single _ ih | bare _ ih | unchained _ ih => exact ih isTree
  | conditional condition question _ _ _ ih =>
      exact (ih rfl).append (condition.ne_nil rfl) (by simp [question])
  | @binary operator _ _ _ _ _ left sign _ ih =>
      refine (ih rfl).append (left.ne_nil rfl) ?_
      rw [sign]
      cases operator <;> simp [BinaryOperator.symbol]
  | call callee opens _ _ ih => exact (ih rfl).append (callee.ne_nil rfl) (by simp [opens])
  | select base selected ih =>
      cases selected with
      | property dot => exact (ih rfl).append (base.ne_nil rfl) (by simp [dot])
      | bracketName opens => exact (ih rfl).append (base.ne_nil rfl) (by simp [opens])
      | bracketKey opens => exact (ih rfl).append (base.ne_nil rfl) (by simp [opens])
  | prefixed kind => exact .of_first (by simp [kind])
  | literal | identifier =>
      intro first second rest name split
      simp at split
  | scope found =>
      apply NameNotAlone.of_first
      intro name named
      simp [scopeName?, named] at found
  | parenthesized opens => exact .of_first (by simp [opens])
  | property | bracketName | bracketKey | noArgument | lastArgument | argument =>
      simp [Phrase.tree?] at isTree

/-! ### All tokens of a phrase -/

/-- Whether a token is neither the mark at the end nor a number without a finite
value. -/
def Usable (token : Token) : Prop :=
  token.kind ≠ .endOfInput ∧ (token.kind = .number → (Literal.number? token.raw).isSome)

theorem usable_of_symbol {token : Token} {symbol : Symbol} (kind : token.kind = .symbol symbol) :
    Usable token := by
  simp [Usable, kind]

theorem usable_of_identifier {token : Token} {name : String}
    (kind : token.kind = .identifier name) : Usable token := by
  simp [Usable, kind]

theorem usable_of_literal? {token : Token} {leaf : Literal} (found : literal? token = some leaf) :
    Usable token := by
  unfold literal? at found
  split at found <;> simp_all [Usable]

theorem usable_of_propertyName? {token : Token} {name : String}
    (found : propertyName? token = some name) : Usable token := by
  unfold propertyName? at found
  split at found <;> simp_all [Usable]

theorem usable_of_scopeName? {token : Token} {name : String}
    (found : scopeName? token = some name) : Usable token := by
  unfold scopeName? at found
  split at found <;> simp_all [Usable]

theorem Derives.usable {phrase : Phrase} {tokens : List Token}
    (derivation : Derives phrase tokens) : ∀ token ∈ tokens, Usable token := by
  induction derivation with
  | chained _ ih | tighter _ _ ih | single _ ih | bare _ ih | unchained _ ih
  | lastArgument _ ih => exact ih
  | conditional _ asks _ divides _ condition consequent alternate =>
      have question := usable_of_symbol asks
      have colon := usable_of_symbol divides
      grind
  | binary _ kind _ left right =>
      have sign := usable_of_symbol kind
      grind
  | prefixed kind _ ih =>
      have sign := usable_of_symbol kind
      grind
  | call _ opens _ closes callee arguments =>
      have opening := usable_of_symbol opens
      have closing := usable_of_symbol closes
      grind
  | select _ _ base picked => grind
  | literal found => simpa using usable_of_literal? found
  | identifier kind => simpa using usable_of_identifier kind
  | scope found _ ih => exact List.forall_mem_cons.mpr ⟨usable_of_scopeName? found, ih⟩
  | parenthesized opens _ closes ih | bracketKey opens _ _ closes ih =>
      have opening := usable_of_symbol opens
      have closing := usable_of_symbol closes
      grind
  | property dots found => simp [usable_of_symbol dots, usable_of_propertyName? found]
  | bracketName opens kind closes =>
      simp [usable_of_symbol opens, usable_of_identifier kind, usable_of_symbol closes]
  | noArgument => simp
  | argument _ kind _ first rest =>
      have comma := usable_of_symbol kind
      grind

/-- How many tokens a phrase has at least, given the heights of its trees. -/
def Phrase.leastLength : Phrase → Nat
  | expression tree | level _ tree | operand tree | chain tree | primary tree => tree.height
  | selector picked => Expr.selectorHeight picked + 2
  | arguments trees => Expr.tallest trees

theorem Derives.leastLength_le {phrase : Phrase} {tokens : List Token}
    (derivation : Derives phrase tokens) : phrase.leastLength ≤ tokens.length := by
  induction derivation with
  | chained _ ih | tighter _ _ ih | single _ ih | bare _ ih | unchained _ ih => exact ih
  | _ =>
      simp only [Phrase.leastLength, Expr.height, Expr.selectorHeight, Expr.tallest,
        List.length_append, List.length_cons, List.length_nil] at *
      omega

/-- No tree is taller than its tokens are many. -/
theorem Derives.height_le_length {tree : Expr} {tokens : List Token}
    (derivation : Derives (.expression tree) tokens) : tree.height ≤ tokens.length :=
  derivation.leastLength_le

end TemplatedJson.Grammar
