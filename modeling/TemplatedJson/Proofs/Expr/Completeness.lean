import TemplatedJson.Proofs.Expr.Grammar
import TemplatedJson.Proofs.Reading.Refusal

/-!
# What the grammar derives is read

Where tokens derive a tree, the parser reads that tree from them, unless it
refuses because of the limit; and it may refuse only if the tree is taller than
the levels that are left.  The induction follows the derivation.  Chains of
calls and of operators are read by loops, so for them the statement compares the
loop before the chain with the loop after it.
-/

namespace TemplatedJson

def Measured.of (tree : Expr) : Measured :=
  ⟨tree, tree.height, rfl⟩

theorem Measured.eq_of {measured : Measured} {tree : Expr} (same : measured.expr = tree) :
    measured = .of tree := by
  obtain ⟨expr, height, rfl⟩ := measured
  subst same
  rfl

@[simp]
theorem Measured.map_expr_of (selector : Selector Expr) :
    (selector.map Measured.of).map Measured.expr = selector := by
  cases selector <;> rfl

theorem Expr.height_pos (tree : Expr) : 0 < tree.height := by
  cases tree <;> simp [Expr.height]

namespace Grammar

open Parse

/-- Whether a height exceeds the levels that are left or the limit. -/
def Exceeds (limits : Limits) (levels height : Nat) : Prop :=
  ¬ (height ≤ levels ∧ limits.base + height ≤ limits.maximum)

theorem Exceeds.mono {limits : Limits} {levels height taller : Nat}
    (exceeds : Exceeds limits levels height) (le : height ≤ taller) :
    Exceeds limits levels taller := by
  unfold Exceeds at exceeds ⊢
  omega

/-- What nests one level deeper exceeds the limit only if the whole does. -/
theorem Exceeds.outer {limits : Limits} {levels height taller : Nat}
    (exceeds : Exceeds limits levels height) (lt : height < taller) :
    Exceeds limits (levels + 1) taller := by
  unfold Exceeds at exceeds ⊢
  omega

def continuesChain : Token.Kind → Bool
  | .symbol .leftParenthesis | .symbol .dot | .symbol .leftBracket => true
  | _ => false

/-- Whether a token of this kind continues an expression. -/
def continuesExpression (kind : Token.Kind) : Bool :=
  continuesChain kind || kind = .symbol .question || (operatorOf? kind).isSome

theorem continuesChain_operator (operator : BinaryOperator) :
    continuesChain (.symbol operator.symbol) = false := by
  cases operator <;> rfl

theorem continuesExpression_eq_false_iff {kind : Token.Kind} :
    continuesExpression kind = false ↔
      continuesChain kind = false ∧ kind ≠ .symbol .question ∧ operatorOf? kind = none := by
  simp [continuesExpression, and_assoc]

variable {limits : Limits} {levels : Nat} {cursor after place : Cursor}

theorem build_leadsTo {tree whole : Expr} (le : tree.height ≤ whole.height) :
    LeadsTo (Exceeds limits levels whole.height) limits.maximum
      (runAt (build limits (.of tree)) cursor) (.ok (.of tree), cursor) := by
  unfold build
  split
  · exact .refl _
  · next tooTall =>
      refine .inr ⟨?_, _, _, rfl⟩
      unfold Exceeds
      change ¬ limits.base + tree.height ≤ limits.maximum at tooTall
      omega

/-! ### Selectors and arguments -/

def ReadsExpression (limits : Limits) (tree : Expr) (tokens : List Token) : Prop :=
  ∀ levels ⦃cursor after⦄, cursor.Passes tokens after →
    continuesExpression after.current.kind = false →
      LeadsTo (Exceeds limits levels tree.height) limits.maximum
        (runAt (expressionWithin limits levels) cursor) (.ok (.of tree), after)

def ReadsSelector (limits : Limits) (picked : Selector Expr) (tokens : List Token) : Prop :=
  ∀ levels ⦃cursor after⦄, cursor.Passes tokens after →
    LeadsTo (Exceeds limits levels (Expr.selectorHeight picked)) limits.maximum
      (runAt (selector (expressionWithin limits levels)) cursor)
      (.ok (picked.map .of), after)

theorem readsSelector_property {dot token : Token} {name : String} (dots : dot.kind = .symbol .dot)
    (found : propertyName? token = some name) :
    ReadsSelector limits (.name name) [dot, token] := by
  intro levels cursor after passed
  obtain ⟨rfl, -, middle, moved, rest⟩ := Cursor.passes_cons_iff.mp passed
  obtain ⟨rfl, -, last, known, ended⟩ := Cursor.passes_cons_iff.mp rest
  obtain rfl := Cursor.passes_nil_iff.mp ended
  apply LeadsTo.of_eq
  unfold selector
  simp only [runAt_isAt_bind, dots, decide_true, if_true]
  rw [runAt_bind_of_ok (runAt_discard_advance moved)]
  have named : runAt propertyName middle = (.ok name, after) := by
    unfold propertyName
    rw [runAt_bind_of_ok (runAt_advance known)]
    unfold propertyName? at found
    split at found <;> simp_all
  rw [runAt_bind_of_ok named]
  rfl

/-- Between brackets, a selector leads to what is read as its key. -/
theorem selector_brackets {picked : Selector Measured} {middle last : Cursor} {justified : Prop}
    {limit : Nat} {reader : Parse Measured}
    (opens : cursor.current.kind = .symbol .leftBracket) (moved : cursor.following? = some middle)
    (inside : LeadsTo justified limit (runAt (bracketKey reader) middle) (.ok picked, last))
    (closes : last.current.kind = .symbol .rightBracket) (known : last.following? = some after) :
    LeadsTo justified limit (runAt (selector reader) cursor) (.ok picked, after) := by
  unfold selector
  simp only [runAt_isAt_bind, opens]
  rw [if_neg (by decide), runAt_bind_of_ok (runAt_expect opens moved)]
  refine inside.bind.trans (.of_eq ?_)
  rw [runAt_bind_of_ok (runAt_expect closes known)]
  rfl

theorem readsSelector_bracketName {opening token closing : Token} {name : String}
    (opens : opening.kind = .symbol .leftBracket) (named : token.kind = .identifier name)
    (closes : closing.kind = .symbol .rightBracket) :
    ReadsSelector limits (.name name) [opening, token, closing] := by
  intro levels cursor after passed
  obtain ⟨rfl, -, middle, moved, rest⟩ := Cursor.passes_cons_iff.mp passed
  obtain ⟨rfl, -, last, known, rest⟩ := Cursor.passes_cons_iff.mp rest
  obtain ⟨rfl, -, final, ended, rest⟩ := Cursor.passes_cons_iff.mp rest
  obtain rfl := Cursor.passes_nil_iff.mp rest
  refine selector_brackets opens moved (.of_eq ?_) closes ended
  unfold bracketKey
  simp only [runAt_currentKind_bind, named]
  rw [runAt_bind_of_ok (runAt_peek known), if_pos closes,
    runAt_bind_of_ok (runAt_discard_advance known)]
  rfl

theorem readsSelector_bracketKey {opening closing : Token} {key : Expr} {inside : List Token}
    (opens : opening.kind = .symbol .leftBracket)
    (derivation : Derives (.expression key) inside) (reads : ReadsExpression limits key inside)
    (computed : ∀ name, key ≠ .identifier name) (closes : closing.kind = .symbol .rightBracket) :
    ReadsSelector limits (.key key) (opening :: (inside ++ [closing])) := by
  intro levels cursor after passed
  obtain ⟨rfl, -, middle, moved, rest⟩ := Cursor.passes_cons_iff.mp passed
  obtain ⟨last, passedInside, rest⟩ := Cursor.passes_append_iff.mp rest
  obtain ⟨rfl, -, final, ended, rest⟩ := Cursor.passes_cons_iff.mp rest
  obtain rfl := Cursor.passes_nil_iff.mp rest
  have leads := reads levels passedInside (by rw [closes]; rfl)
  refine selector_brackets opens moved ?_ closes ended
  unfold bracketKey
  rw [runAt_currentKind_bind]
  split
  · next name named =>
      -- The name has a token after it that is still inside of the brackets.
      obtain ⟨next, known, notClosing⟩ :
          ∃ next, middle.following? = some next ∧ next.current.kind ≠ .symbol .rightBracket := by
        match inside, derivation.ne_nil rfl with
        | [only], _ =>
            obtain ⟨rfl, -, next, -, -⟩ := Cursor.passes_cons_iff.mp passedInside
            have lone := derivation.tree?_of_name rfl rfl named
            exact absurd (Option.some.inj lone) (computed name)
        | first :: second :: more, _ =>
            obtain ⟨rfl, -, next, known, later⟩ := Cursor.passes_cons_iff.mp passedInside
            obtain ⟨rfl, -, -, -, -⟩ := Cursor.passes_cons_iff.mp later
            exact ⟨next, known, derivation.nameNotAlone rfl rfl named⟩
      rw [runAt_bind_of_ok (runAt_peek known), if_neg notClosing]
      exact leads.bind
  · exact leads.bind

/-! ### Primary expressions -/

def ReadsPrimary (limits : Limits) (tree : Expr) (tokens : List Token) : Prop :=
  ∀ levels ⦃cursor after⦄, cursor.Passes tokens after →
    LeadsTo (Exceeds limits (levels + 1) tree.height) limits.maximum
      (runAt (primary limits (expressionWithin limits levels)) cursor) (.ok (.of tree), after)

theorem readsPrimary_literal {token : Token} {leaf : Literal}
    (found : literal? token = some leaf) : ReadsPrimary limits (.literal leaf) [token] := by
  intro levels cursor after passed
  obtain ⟨rfl, -, middle, known, ended⟩ := Cursor.passes_cons_iff.mp passed
  obtain rfl := Cursor.passes_nil_iff.mp ended
  apply LeadsTo.of_eq
  unfold primary
  rw [runAt_bind_of_ok (runAt_advance known)]
  have leafOf : Measured.literal leaf = .of (.literal leaf) := Measured.eq_of rfl
  unfold literal? at found
  split at found <;> simp_all

theorem readsPrimary_identifier {token : Token} {name : String}
    (named : token.kind = .identifier name) : ReadsPrimary limits (.identifier name) [token] := by
  intro levels cursor after passed
  obtain ⟨rfl, -, middle, known, ended⟩ := Cursor.passes_cons_iff.mp passed
  obtain rfl := Cursor.passes_nil_iff.mp ended
  apply LeadsTo.of_eq
  unfold primary
  rw [runAt_bind_of_ok (runAt_advance known)]
  have nameOf : Measured.identifier name = .of (.identifier name) := Measured.eq_of rfl
  simp only [named, runAt_pure, nameOf]

/-- A selector begins with a dot or a bracket. -/
theorem Derives.selector_starts {picked : Selector Expr} {tokens : List Token}
    (derivation : Derives (.selector picked) tokens) :
    ∃ first rest, tokens = first :: rest ∧
      (first.kind = .symbol .dot ∨ first.kind = .symbol .leftBracket) := by
  cases derivation with
  | property dots => exact ⟨_, _, rfl, .inl dots⟩
  | bracketName opens => exact ⟨_, _, rfl, .inr opens⟩
  | bracketKey opens => exact ⟨_, _, rfl, .inr opens⟩

theorem readsPrimary_scope {token : Token} {name : String} {picked : Selector Expr}
    {tokens : List Token} (found : scopeName? token = some name)
    (derivation : Derives (.selector picked) tokens)
    (reads : ReadsSelector limits picked tokens) :
    ReadsPrimary limits (.scope name picked) (token :: tokens) := by
  intro levels cursor after passed
  obtain ⟨rfl, -, middle, known, rest⟩ := Cursor.passes_cons_iff.mp passed
  have selects : LeadsTo (Exceeds limits (levels + 1) (Expr.scope name picked).height)
      limits.maximum
      (runAt (scopeSelector (expressionWithin limits levels)) middle)
      (.ok (picked.map .of), after) := by
    obtain ⟨first, others, rfl, starts⟩ := derivation.selector_starts
    obtain ⟨rfl, -, -, -, -⟩ := Cursor.passes_cons_iff.mp rest
    unfold scopeSelector
    rw [runAt_isAtSelector_bind, if_pos (by simpa using starts)]
    exact (reads levels rest).mono fun exceeds => exceeds.outer (by simp [Expr.height])
  have scopeOf : Measured.scope name (picked.map .of) = .of (.scope name picked) :=
    Measured.eq_of (by simp [Measured.scope])
  have builds : LeadsTo (Exceeds limits (levels + 1) (Expr.scope name picked).height)
      limits.maximum
      (runAt (do build limits (.scope name (← scopeSelector (expressionWithin limits levels))))
        middle)
      (.ok (.of (.scope name picked)), after) := by
    refine selects.bind.trans ?_
    rw [scopeOf]
    exact build_leadsTo (Nat.le_refl _)
  unfold primary
  rw [runAt_bind_of_ok (runAt_advance known)]
  unfold scopeName? at found
  split at found
  · next other kind =>
      obtain rfl := Option.some.inj found
      simpa only [kind] using builds
  · next kind =>
      obtain rfl := Option.some.inj found
      simpa only [kind] using builds
  · simp at found

theorem readsPrimary_parenthesized {opening closing : Token} {inner : Expr} {inside : List Token}
    (opens : opening.kind = .symbol .leftParenthesis)
    (reads : ReadsExpression limits inner inside)
    (closes : closing.kind = .symbol .rightParenthesis) :
    ReadsPrimary limits (.parenthesized inner) (opening :: (inside ++ [closing])) := by
  intro levels cursor after passed
  obtain ⟨rfl, -, middle, moved, rest⟩ := Cursor.passes_cons_iff.mp passed
  obtain ⟨last, passedInside, rest⟩ := Cursor.passes_append_iff.mp rest
  obtain ⟨rfl, -, final, ended, rest⟩ := Cursor.passes_cons_iff.mp rest
  obtain rfl := Cursor.passes_nil_iff.mp rest
  have leads := reads levels passedInside (by rw [closes]; rfl)
  have lower : inner.height < (Expr.parenthesized inner).height := by simp [Expr.height]
  unfold primary
  rw [runAt_bind_of_ok (runAt_advance moved)]
  simp only [opens]
  refine (leads.mono fun exceeds => exceeds.outer lower).bind.trans ?_
  have wholeOf : Measured.parenthesized (.of inner) = .of (.parenthesized inner) :=
    Measured.eq_of rfl
  rw [runAt_bind_of_ok (runAt_expect closes ended), wholeOf]
  exact build_leadsTo (Nat.le_refl _)

/-! ### Calls and selectors -/

/-- Reading a chain leads through its primary expression and then, by the loop
over calls and selectors, from there to the whole chain. -/
def ReadsChain (limits : Limits) (tree : Expr) (tokens : List Token) : Prop :=
  ∀ levels ⦃cursor after⦄, cursor.Passes tokens after →
    ∃ base middle others used, middle.Passes others after ∧ used ≤ others.length ∧
      LeadsTo (Exceeds limits (levels + 1) tree.height) limits.maximum
        (runAt (primary limits (expressionWithin limits levels)) cursor) (.ok base, middle) ∧
      ∀ more, LeadsTo (Exceeds limits (levels + 1) tree.height) limits.maximum
        (runAt (postfixes limits (expressionWithin limits levels) (more + used) base) middle)
        (runAt (postfixes limits (expressionWithin limits levels) more (.of tree)) after)

theorem readsChain_primary {tree : Expr} {tokens : List Token}
    (reads : ReadsPrimary limits tree tokens) : ReadsChain limits tree tokens := by
  intro levels cursor after passed
  exact ⟨.of tree, after, [], 0, .none after, Nat.le_refl 0, reads levels passed,
    fun more => .refl _⟩

/-- One more call or selector extends a chain. -/
theorem ReadsChain.extend {base whole : Expr} {before after : List Token}
    (reads : ReadsChain limits base before) (taller : base.height ≤ whole.height)
    (nonempty : after ≠ [])
    (step : ∀ levels ⦃more start stop⦄, Cursor.Passes start after stop →
      LeadsTo (Exceeds limits (levels + 1) whole.height) limits.maximum
        (runAt (postfixes limits (expressionWithin limits levels) (more + 1) (.of base)) start)
        (runAt (postfixes limits (expressionWithin limits levels) more (.of whole)) stop)) :
    ReadsChain limits whole (before ++ after) := by
  intro levels cursor stop passed
  obtain ⟨start, passedBefore, passedAfter⟩ := Cursor.passes_append_iff.mp passed
  obtain ⟨head, middle, others, used, passedOthers, usedLe, begins, continues⟩ :=
    reads levels passedBefore
  have nonemptyLength := List.length_pos_iff.mpr nonempty
  refine ⟨head, middle, others ++ after, used + 1, passedOthers.append passedAfter,
    by simp only [List.length_append]; omega, begins.mono fun exceeds => exceeds.mono taller, ?_⟩
  intro more
  have first := (continues (more + 1)).mono fun exceeds => exceeds.mono taller
  rw [Nat.add_right_comm] at first
  exact first.trans (step levels passedAfter)

theorem readsChain_select {base : Expr} {picked : Selector Expr} {before after : List Token}
    (reads : ReadsChain limits base before) (derivation : Derives (.selector picked) after)
    (selects : ReadsSelector limits picked after) :
    ReadsChain limits (.select base picked) (before ++ after) := by
  obtain ⟨first, others, rfl, starts⟩ := derivation.selector_starts
  refine reads.extend (by simp only [Expr.height]; omega) (by simp) ?_
  intro levels more start stop passed
  have leads := selects levels passed
  have lower : Expr.selectorHeight picked < (Expr.select base picked).height := by
    simp only [Expr.height]
    omega
  obtain ⟨rfl, -, -, -, -⟩ := Cursor.passes_cons_iff.mp passed
  have notCall : start.current.kind ≠ .symbol .leftParenthesis := by
    rcases starts with dots | opens
    · simp [dots]
    · simp [opens]
  have selectOf : Measured.select (.of base) (picked.map .of) = .of (.select base picked) :=
    Measured.eq_of (by simp [Measured.select, Measured.of])
  conv => enter [3]; unfold postfixes
  rw [runAt_isAt_bind, if_neg (by simpa using notCall), runAt_isAtSelector_bind,
    if_pos (by simpa using starts)]
  refine (leads.mono fun exceeds => exceeds.outer lower).bind.trans ?_
  rw [selectOf]
  exact (build_leadsTo (Nat.le_refl _)).bind

/-- Reading arguments leads to each of them in turn; there may be none. -/
def ReadsArguments (limits : Limits) (trees : List Expr) (tokens : List Token) : Prop :=
  trees ≠ [] → ∀ levels ⦃cursor after⦄, cursor.Passes tokens after →
    after.current.kind = .symbol .rightParenthesis →
      Offers (Exceeds limits levels (Expr.tallest trees)) limits.maximum
        (expressionWithin limits levels) cursor (trees.map .of) after

theorem readsArguments_last {tree : Expr} {tokens : List Token}
    (reads : ReadsExpression limits tree tokens) : ReadsArguments limits [tree] tokens := by
  intro _ levels cursor after passed closes
  refine .last ((reads levels passed (by rw [closes]; rfl)).mono fun exceeds => exceeds.mono ?_)
    (by simp [closes])
  simp [Expr.tallest]

theorem readsArguments_cons {first second : Expr} {rest : List Expr} {before after : List Token}
    {comma : Token} (reads : ReadsExpression limits first before)
    (kind : comma.kind = .symbol .comma)
    (readsRest : ReadsArguments limits (second :: rest) after) :
    ReadsArguments limits (first :: second :: rest) (before ++ comma :: after) := by
  intro _ levels cursor stop passed closes
  obtain ⟨middle, passedFirst, passedRest⟩ := Cursor.passes_append_iff.mp passed
  obtain ⟨rfl, -, next, moved, later⟩ := Cursor.passes_cons_iff.mp passedRest
  have leads := reads levels passedFirst (by rw [kind]; rfl)
  have offers := readsRest (by simp) levels later closes
  refine .comma (leads.mono fun exceeds => exceeds.mono ?_) kind moved
    (offers.mono fun exceeds => exceeds.mono ?_)
  · simp only [Expr.tallest]; omega
  · simp only [Expr.tallest]; omega

theorem Derives.length_arguments {trees : List Expr} {tokens : List Token}
    (derivation : Derives (.arguments trees) tokens) : trees.length ≤ tokens.length := by
  induction trees generalizing tokens with
  | nil => simp
  | cons first rest ih =>
      cases derivation with
      | lastArgument only =>
          have nonempty := List.length_pos_iff.mpr (only.ne_nil rfl)
          simp only [List.length_singleton]
          omega
      | argument head _ tail =>
          have rest := ih tail
          simp only [List.length_cons, List.length_append] at rest ⊢
          omega

/-- The arguments of a call and its closing parenthesis lead to the list of
them. -/
theorem listUntil_leadsTo (levels : Nat) {trees : List Expr} {inside : List Token} {closing : Token}
    (derivation : Derives (.arguments trees) inside) (reads : ReadsArguments limits trees inside)
    (closes : closing.kind = .symbol .rightParenthesis)
    (passed : cursor.Passes (inside ++ [closing]) after) :
    LeadsTo (Exceeds limits levels (Expr.tallest trees)) limits.maximum
      (runAt (listUntil .rightParenthesis (expressionWithin limits levels)) cursor)
      (.ok (trees.map .of), after) := by
  obtain ⟨last, passedInside, rest⟩ := Cursor.passes_append_iff.mp passed
  obtain ⟨rfl, -, final, ended, rest⟩ := Cursor.passes_cons_iff.mp rest
  obtain rfl := Cursor.passes_nil_iff.mp rest
  cases trees with
  | nil =>
      cases derivation
      obtain rfl := Cursor.passes_nil_iff.mp passedInside
      apply LeadsTo.of_eq
      unfold listUntil
      rw [runAt_isAt_bind, if_pos (by simpa using closes),
        runAt_bind_of_ok (runAt_discard_advance ended)]
      rfl
  | cons first rest =>
      have offers := reads (by simp) levels passedInside closes
      have enough := Nat.le_trans derivation.length_arguments passedInside.length_le_remaining
      refine offers.listUntil ?_ (by simp at enough ⊢; omega) closes ended
      obtain ⟨head, others, rfl, starts⟩ : ∃ head others, inside = head :: others ∧
          startsOperand head.kind := by
        cases derivation with
        | lastArgument only => exact only.starts rfl
        | argument one =>
            obtain ⟨head, others, rfl, starts⟩ := one.starts rfl
            exact ⟨head, _, rfl, starts⟩
      obtain ⟨rfl, -, -, -, -⟩ := Cursor.passes_cons_iff.mp passedInside
      intro atOnce
      simp [atOnce, startsOperand, PrefixOperator.ofSymbol?] at starts

theorem readsChain_call {callee : Expr} {trees : List Expr} {before inside : List Token}
    {opening closing : Token} (reads : ReadsChain limits callee before)
    (opens : opening.kind = .symbol .leftParenthesis)
    (derivation : Derives (.arguments trees) inside)
    (readsInside : ReadsArguments limits trees inside)
    (closes : closing.kind = .symbol .rightParenthesis) :
    ReadsChain limits (.call callee trees) (before ++ opening :: (inside ++ [closing])) := by
  refine reads.extend (by simp only [Expr.height]; omega) (by simp) ?_
  intro levels more start stop passed
  obtain ⟨rfl, -, middle, moved, rest⟩ := Cursor.passes_cons_iff.mp passed
  have leads := listUntil_leadsTo levels derivation readsInside closes rest
  have lower : Expr.tallest trees < (Expr.call callee trees).height := by
    simp only [Expr.height]
    omega
  have callOf : Measured.call (.of callee) (trees.map .of) = .of (.call callee trees) :=
    Measured.eq_of (by simp [Measured.call, Measured.of, Function.comp_def])
  conv => enter [3]; unfold postfixes
  rw [runAt_isAt_bind, if_pos (by simpa using opens),
    runAt_bind_of_ok (runAt_discard_advance moved)]
  refine (leads.mono fun exceeds => exceeds.outer lower).bind.trans ?_
  rw [callOf]
  exact (build_leadsTo (Nat.le_refl _)).bind

/-! ### Operands -/

/-- A chain does not begin with a prefix operator. -/
theorem Derives.chain_starts {phrase : Phrase} {tokens : List Token}
    (derivation : Derives phrase tokens) (isChain : phrase.isChain) :
    ∃ first rest, tokens = first :: rest ∧
      ∀ operator : PrefixOperator, first.kind ≠ .symbol operator.symbol := by
  induction derivation with
  | call _ _ _ _ ih | select _ _ ih =>
      obtain ⟨first, rest, rfl, starts⟩ := ih rfl
      exact ⟨first, _, rfl, starts⟩
  | unchained _ ih => exact ih rfl
  | literal found =>
      refine ⟨_, [], rfl, ?_⟩
      rintro operator kind
      simp [literal?, kind] at found
  | identifier named => exact ⟨_, [], rfl, by simp [named]⟩
  | scope found =>
      refine ⟨_, _, rfl, ?_⟩
      rintro operator kind
      cases operator <;> simp [scopeName?, kind, PrefixOperator.symbol] at found
  | parenthesized opens =>
      refine ⟨_, _, rfl, ?_⟩
      rintro operator kind
      cases operator <;> simp [opens, PrefixOperator.symbol] at kind
  | _ => simp [Phrase.isChain] at isChain

/-- Prefix operators are read up to the first token that is none. -/
theorem runAt_prefixOperators {operators : List PrefixOperator} {signs : List Token} {more : Nat}
    (spelled : Signs operators signs) (passed : cursor.Passes signs after)
    (enough : signs.length ≤ more)
    (ended : ∀ operator : PrefixOperator, after.current.kind ≠ .symbol operator.symbol) :
    runAt (prefixOperators more) cursor = (.ok operators, after) := by
  induction operators generalizing cursor signs more with
  | nil =>
      obtain rfl := List.map_eq_nil_iff.mp spelled
      obtain rfl := Cursor.passes_nil_iff.mp passed
      cases more with
      | zero => rfl
      | succ more =>
          unfold prefixOperators
          rw [runAt_currentKind_bind]
          split
          · next symbol kind =>
              split
              · next operator found =>
                  rw [PrefixOperator.ofSymbol?_eq_some_iff.mp found] at kind
                  exact absurd kind (ended operator)
              · rfl
          · rfl
  | cons operator operators ih =>
      obtain ⟨sign, others, rfl, kind, rest⟩ := List.map_eq_cons_iff.mp spelled
      obtain ⟨rfl, -, middle, moved, later⟩ := Cursor.passes_cons_iff.mp passed
      cases more with
      | zero => simp at enough
      | succ more =>
          have found := PrefixOperator.ofSymbol?_eq_some_iff.mpr (Eq.refl operator.symbol)
          unfold prefixOperators
          simp only [runAt_currentKind_bind, kind, found]
          rw [runAt_bind_of_ok (runAt_discard_advance moved),
            runAt_bind_of_ok (ih rest later (by simpa using enough))]
          rfl

theorem height_le_prefixedBy (operators : List PrefixOperator) (tree : Expr) :
    tree.height ≤ (prefixedBy operators tree).height := by
  induction operators with
  | nil => exact Nat.le_refl _
  | cons operator operators ih =>
      change tree.height ≤ (prefixedBy operators tree).height + 1
      omega

theorem applyPrefixes_leadsTo (operators : List PrefixOperator) (tree : Expr) :
    LeadsTo (Exceeds limits levels (prefixedBy operators tree).height) limits.maximum
      (runAt (applyPrefixes limits operators (.of tree)) cursor)
      (.ok (.of (prefixedBy operators tree)), cursor) := by
  induction operators with
  | nil => exact .refl _
  | cons operator operators ih =>
      have wholeOf : Measured.prefixed operator (.of (prefixedBy operators tree)) =
          .of (prefixedBy (operator :: operators) tree) := Measured.eq_of rfl
      have taller : (prefixedBy operators tree).height ≤
          (prefixedBy (operator :: operators) tree).height := Nat.le_succ _
      refine (ih.mono fun exceeds => exceeds.mono taller).bind.trans ?_
      rw [wholeOf]
      exact build_leadsTo (Nat.le_refl _)

/-- An operand consists of prefix operators and a chain that is read. -/
def ReadsPrefixed (limits : Limits) (tree : Expr) (tokens : List Token) : Prop :=
  ∃ operators signs chain rest, tree = prefixedBy operators chain ∧ tokens = signs ++ rest ∧
    Signs operators signs ∧ Derives (.chain chain) rest ∧ ReadsChain limits chain rest

def ReadsOperand (limits : Limits) (tree : Expr) (tokens : List Token) : Prop :=
  ∀ levels ⦃cursor after⦄, cursor.Passes tokens after → continuesChain after.current.kind = false →
    LeadsTo (Exceeds limits (levels + 1) tree.height) limits.maximum
      (runAt (operand limits (expressionWithin limits levels)) cursor) (.ok (.of tree), after)

theorem runAt_postfixes_of_ended (reader : Parse Measured) (more : Nat) (base : Measured)
    (ended : continuesChain cursor.current.kind = false) :
    runAt (postfixes limits reader more base) cursor = (.ok base, cursor) := by
  cases more with
  | zero => rfl
  | succ more =>
      have others : cursor.current.kind ≠ .symbol .leftParenthesis ∧
          cursor.current.kind ≠ .symbol .dot ∧ cursor.current.kind ≠ .symbol .leftBracket := by
        refine ⟨?_, ?_, ?_⟩ <;> intro kind <;> simp [continuesChain, kind] at ended
      unfold postfixes
      simp [others]

theorem ReadsPrefixed.operand {tree : Expr} {tokens : List Token}
    (reads : ReadsPrefixed limits tree tokens) : ReadsOperand limits tree tokens := by
  obtain ⟨operators, signs, chain, rest, rfl, rfl, spelled, derivation, readsChain⟩ := reads
  intro levels cursor after passed ended
  obtain ⟨start, passedSigns, passedChain⟩ := Cursor.passes_append_iff.mp passed
  obtain ⟨base, middle, others, used, passedOthers, usedLe, begins, continues⟩ :=
    readsChain levels passedChain
  have startsChain : ∀ operator : PrefixOperator, start.current.kind ≠ .symbol operator.symbol := by
    obtain ⟨first, more, rfl, starts⟩ := derivation.chain_starts rfl
    obtain ⟨rfl, -, -, -, -⟩ := Cursor.passes_cons_iff.mp passedChain
    exact starts
  have taller := height_le_prefixedBy operators chain
  have enough := Nat.le_trans usedLe passedOthers.length_le_remaining
  unfold Parse.operand
  rw [runAt_get_bind, runAt_bind_of_ok (runAt_prefixOperators spelled passedSigns
    passedSigns.length_le_remaining startsChain)]
  refine (begins.mono fun exceeds => exceeds.mono taller).bind.trans ?_
  rw [runAt_get_bind]
  have loop := continues (middle.remaining - used)
  rw [Nat.sub_add_cancel enough, runAt_postfixes_of_ended _ _ _ ended] at loop
  refine (loop.mono fun exceeds => exceeds.mono taller).bind.trans ?_
  exact applyPrefixes_leadsTo operators chain

/-! ### Binary operators -/

/-- Reading a level leads through its first operand.  From there the loop over
operators leads to the last operand, with a spine of left operands waiting, and
combining the spine leads to the tree. -/
def ReadsLevel (limits : Limits) (rank : Nat) (tree : Expr) (tokens : List Token) : Prop :=
  ∀ levels ⦃cursor after⦄, cursor.Passes tokens after → continuesChain after.current.kind = false →
    ∃ head others first middle used spine last,
      tokens = head ++ others ∧ middle.Passes others after ∧ used ≤ others.length ∧
      LeadsTo (Exceeds limits (levels + 1) tree.height) limits.maximum
        (runAt (operand limits (expressionWithin limits levels)) cursor) (.ok first, middle) ∧
      (∀ more pending, (∀ waiting ∈ pending.head?, waiting.2.precedence < rank) →
        LeadsTo (Exceeds limits (levels + 1) tree.height) limits.maximum
          (runAt (operatorChain limits (expressionWithin limits levels) (more + used) pending first)
            middle)
          (runAt
            (operatorChain limits (expressionWithin limits levels) more (spine ++ pending) last)
            after)) ∧
      ∀ least pending place, least ≤ rank →
        LeadsTo (Exceeds limits (levels + 1) tree.height) limits.maximum
          (runAt (combine limits least (spine ++ pending) last) place)
          (runAt (combine limits least pending (.of tree)) place)

theorem readsLevel_single {tree : Expr} {tokens : List Token}
    (reads : ReadsOperand limits tree tokens) : ReadsLevel limits operandLevel tree tokens := by
  intro levels cursor after passed ended
  exact ⟨tokens, [], .of tree, after, 0, [], .of tree, by simp, .none after, Nat.le_refl 0,
    reads levels passed ended, fun _ _ _ => .refl _, fun _ _ _ _ => .refl _⟩

theorem ReadsLevel.looser {rank : Nat} {tree : Expr} {tokens : List Token}
    (reads : ReadsLevel limits (rank + 1) tree tokens) : ReadsLevel limits rank tree tokens := by
  intro levels cursor after passed ended
  obtain ⟨head, others, first, middle, used, spine, last, split, passedOthers, usedLe, begins,
    loops, combines⟩ := reads levels passed ended
  refine ⟨head, others, first, middle, used, spine, last, split, passedOthers, usedLe, begins,
    fun more pending waits => ?_, fun least pending place least_le => ?_⟩
  · exact loops more pending fun waiting member => Nat.lt_succ_of_lt (waits waiting member)
  · exact combines least pending place (Nat.le_succ_of_le least_le)

/-- Operands that bind less tightly go on waiting. -/
theorem combine_of_looser {least : Nat} {pending : Pending} {right : Measured}
    (waits : ∀ waiting ∈ pending.head?, waiting.2.precedence < least) :
    combine limits least pending right = pure (pending, right) := by
  match pending with
  | [] => rfl
  | (left, operator) :: outer =>
      have looser : operator.precedence < least := waits (left, operator) rfl
      unfold combine
      rw [if_neg (by omega)]

theorem readsLevel_binary {operator : BinaryOperator} {left right : Expr}
    {before after : List Token} {sign : Token}
    (readsLeft : ReadsLevel limits operator.precedence left before)
    (kind : sign.kind = .symbol operator.symbol)
    (readsRight : ReadsLevel limits (operator.precedence + 1) right after) :
    ReadsLevel limits operator.precedence (.binary operator left right)
      (before ++ sign :: after) := by
  intro levels cursor stop passed ended
  obtain ⟨start, passedLeft, passedRest⟩ := Cursor.passes_append_iff.mp passed
  obtain ⟨rfl, notEnd, next, moved, passedRight⟩ := Cursor.passes_cons_iff.mp passedRest
  have leftEnded : continuesChain start.current.kind = false := by
    rw [kind]
    exact continuesChain_operator operator
  obtain ⟨head, others, first, middle, used, spine, last, rfl, passedOthers, usedLe, begins, loops,
    combines⟩ := readsLeft levels passedLeft leftEnded
  obtain ⟨rightHead, rightOthers, rightFirst, rightMiddle, rightUsed, rightSpine, rightLast, rfl,
    -, rightUsedLe, rightBegins, rightLoops, rightCombines⟩ :=
    readsRight levels passedRight ended
  have leftTaller : left.height ≤ (Expr.binary operator left right).height := by
    simp only [Expr.height]; omega
  have rightTaller : right.height ≤ (Expr.binary operator left right).height := by
    simp only [Expr.height]; omega
  have found : operatorOf? start.current.kind = some operator := operatorOf?_eq_some_iff.mpr kind
  refine ⟨head, others ++ start.current :: (rightHead ++ rightOthers), first, middle,
    used + 1 + rightUsed, rightSpine ++ [(.of left, operator)], rightLast, by simp,
    passedOthers.append passedRest, by simp only [List.length_append, List.length_cons]; omega,
    begins.mono fun exceeds => exceeds.mono leftTaller, ?_, ?_⟩
  · intro more pending waits
    have leftLoop := loops (more + rightUsed + 1) pending waits
    have leftCombined := combines operator.precedence pending start (Nat.le_refl _)
    rw [combine_of_looser waits, runAt_pure] at leftCombined
    have rightLoop := rightLoops more ((.of left, operator) :: pending)
      fun waiting member => by simp at member; simp [← member]
    have regroup : more + (used + 1 + rightUsed) = more + rightUsed + 1 + used := by omega
    rw [regroup, List.append_assoc]
    refine (leftLoop.mono fun exceeds => exceeds.mono leftTaller).trans ?_
    conv => enter [3]; unfold operatorChain
    rw [runAt_currentOperator?_bind, found]
    -- Operators of one level associate to the left: the whole left operand is
    -- combined before it waits for the right one.
    refine (leftCombined.mono fun exceeds => exceeds.mono leftTaller).bind.trans ?_
    dsimp only
    rw [runAt_bind_of_ok (runAt_discard_advance moved)]
    refine (rightBegins.mono fun exceeds => exceeds.mono rightTaller).bind.trans ?_
    exact rightLoop.mono fun exceeds => exceeds.mono rightTaller
  · intro least pending place leastLe
    have rightCombined := rightCombines least ((.of left, operator) :: pending) place
      (Nat.le_succ_of_le leastLe)
    have wholeOf : Measured.binary operator (.of left) (.of right) =
        .of (.binary operator left right) := Measured.eq_of rfl
    rw [List.append_assoc]
    refine (rightCombined.mono fun exceeds => exceeds.mono rightTaller).trans ?_
    conv => enter [3]; unfold combine
    rw [if_pos leastLe, wholeOf]
    exact (build_leadsTo (Nat.le_refl _)).bind

/-- Once no operator follows, all waiting operands are combined. -/
theorem operatorChain_of_ended {reader : Parse Measured} {more : Nat} {pending : Pending}
    {right : Measured} (ended : operatorOf? cursor.current.kind = none) :
    runAt (operatorChain limits reader more pending right) cursor =
      runAt (do return (← combine limits 0 pending right).2) cursor := by
  cases more with
  | zero => rfl
  | succ more =>
      unfold operatorChain
      rw [runAt_currentOperator?_bind, ended]

/-- A chain of operators is read up to the first token that is none. -/
theorem ReadsLevel.binary (levels : Nat) {tree : Expr} {tokens : List Token}
    (reads : ReadsLevel limits 1 tree tokens) (passed : cursor.Passes tokens after)
    (chainEnded : continuesChain after.current.kind = false)
    (ended : operatorOf? after.current.kind = none) :
    LeadsTo (Exceeds limits (levels + 1) tree.height) limits.maximum
      (runAt (binary limits (expressionWithin limits levels)) cursor) (.ok (.of tree), after) := by
  obtain ⟨head, others, first, middle, used, spine, last, -, passedOthers, usedLe, begins, loops,
    combines⟩ := reads levels passed chainEnded
  have enough := Nat.le_trans usedLe passedOthers.length_le_remaining
  have loop := loops (middle.remaining - used) [] (by simp)
  rw [Nat.sub_add_cancel enough, operatorChain_of_ended ended, List.append_nil] at loop
  have combined := combines 0 [] after (Nat.zero_le 1)
  rw [List.append_nil] at combined
  unfold Parse.binary
  refine begins.bind.trans ?_
  rw [runAt_get_bind]
  exact loop.trans combined.bind

/-! ### Whole expressions -/

/-- The last part of reading an expression: the levels are counted. -/
theorem readsExpression_of_level {tree : Expr} {tokens : List Token}
    (reads : ∀ levels ⦃cursor after⦄, Cursor.Passes cursor tokens after →
      continuesExpression after.current.kind = false →
        LeadsTo (Exceeds limits (levels + 1) tree.height) limits.maximum
          (runAt (level limits (expressionWithin limits levels)) cursor) (.ok (.of tree), after)) :
    ReadsExpression limits tree tokens := by
  intro levels cursor after passed ended
  cases levels with
  | zero =>
      refine .inr ⟨?_, _, _, rfl⟩
      have positive := tree.height_pos
      unfold Exceeds
      omega
  | succ levels =>
      unfold expressionWithin
      exact (reads levels passed.deeper ended).deeper

theorem readsExpression_chained {tree : Expr} {tokens : List Token}
    (reads : ReadsLevel limits 1 tree tokens) : ReadsExpression limits tree tokens := by
  apply readsExpression_of_level
  intro levels cursor after passed ended
  obtain ⟨chainEnded, noQuestion, noOperator⟩ := continuesExpression_eq_false_iff.mp ended
  unfold level
  refine (reads.binary levels passed chainEnded noOperator).bind.trans ?_
  rw [runAt_isAt_bind, if_neg (by simpa using noQuestion), runAt_pure]
  exact .refl _

theorem readsExpression_conditional {condition consequent alternate : Expr}
    {whether yes no : List Token} {question colon : Token}
    (readsCondition : ReadsLevel limits 1 condition whether)
    (asks : question.kind = .symbol .question)
    (readsConsequent : ReadsExpression limits consequent yes)
    (divides : colon.kind = .symbol .colon) (readsAlternate : ReadsExpression limits alternate no) :
    ReadsExpression limits (.conditional condition consequent alternate)
      (whether ++ question :: (yes ++ colon :: no)) := by
  apply readsExpression_of_level
  intro levels cursor after passed ended
  obtain ⟨start, passedCondition, rest⟩ := Cursor.passes_append_iff.mp passed
  obtain ⟨rfl, -, second, asked, rest⟩ := Cursor.passes_cons_iff.mp rest
  obtain ⟨third, passedYes, rest⟩ := Cursor.passes_append_iff.mp rest
  obtain ⟨rfl, -, fourth, divided, passedNo⟩ := Cursor.passes_cons_iff.mp rest
  have first := readsCondition.binary levels passedCondition (by rw [asks]; rfl)
    (by rw [asks]; rfl)
  have second := readsConsequent levels passedYes (by rw [divides]; rfl)
  have third := readsAlternate levels passedNo ended
  unfold level
  refine (first.mono fun exceeds => exceeds.mono ?_).bind.trans ?_
  · simp only [Expr.height]; omega
  rw [runAt_isAt_bind, if_pos (by simpa using asks), runAt_bind_of_ok (runAt_discard_advance asked)]
  refine (second.mono fun exceeds => exceeds.outer ?_).bind.trans ?_
  · simp only [Expr.height]; omega
  rw [runAt_bind_of_ok (runAt_expect divides divided)]
  refine (third.mono fun exceeds => exceeds.outer ?_).bind.trans ?_
  · simp only [Expr.height]; omega
  have wholeOf : Measured.conditional (.of condition) (.of consequent) (.of alternate) =
      .of (.conditional condition consequent alternate) := Measured.eq_of rfl
  rw [wholeOf]
  exact build_leadsTo (Nat.le_refl _)

/-! ### All phrases -/

/-- What reading the tokens of a phrase leads to. -/
def ReadsPhrase (limits : Limits) (tokens : List Token) : Phrase → Prop
  | .expression tree => ReadsExpression limits tree tokens
  | .level rank tree => ReadsLevel limits rank tree tokens
  | .operand tree => ReadsPrefixed limits tree tokens
  | .chain tree => ReadsChain limits tree tokens
  | .primary tree => ReadsPrimary limits tree tokens
  | .selector picked => ReadsSelector limits picked tokens
  | .arguments trees => ReadsArguments limits trees tokens

/-- What the grammar derives is read, whatever the limits. -/
theorem Derives.reads {phrase : Phrase} {tokens : List Token}
    (derivation : Derives phrase tokens) (limits : Limits) : ReadsPhrase limits tokens phrase := by
  induction derivation with
  | chained _ ih => exact readsExpression_chained ih
  | conditional _ asks _ divides _ condition consequent alternate =>
      exact readsExpression_conditional condition asks consequent divides alternate
  | binary _ kind _ left right => exact readsLevel_binary left kind right
  | tighter _ _ ih => exact ReadsLevel.looser ih
  | single _ ih => exact readsLevel_single (ReadsPrefixed.operand ih)
  | @prefixed operator tree sign tokens kind _ ih =>
      obtain ⟨operators, signs, chain, rest, rfl, rfl, spelled, derivation, reads⟩ := ih
      exact ⟨operator :: operators, sign :: signs, chain, rest, rfl, rfl, spelled.cons kind,
        derivation, reads⟩
  | bare derivation ih => exact ⟨[], [], _, _, rfl, rfl, rfl, derivation, ih⟩
  | call _ opens inside closes callee arguments =>
      exact readsChain_call callee opens inside arguments closes
  | select _ selector base picked => exact readsChain_select base selector picked
  | unchained _ ih => exact readsChain_primary ih
  | literal found => exact readsPrimary_literal found
  | identifier named => exact readsPrimary_identifier named
  | scope found selector ih => exact readsPrimary_scope found selector ih
  | parenthesized opens _ closes ih => exact readsPrimary_parenthesized opens ih closes
  | property dots found => exact readsSelector_property dots found
  | bracketName opens named closes => exact readsSelector_bracketName opens named closes
  | bracketKey opens inside computed closes ih =>
      exact readsSelector_bracketKey opens inside ih computed closes
  | noArgument => intro nonempty; exact absurd rfl nonempty
  | lastArgument _ ih => exact readsArguments_last ih
  | argument _ kind _ first rest => exact readsArguments_cons first kind rest

end Grammar

end TemplatedJson
