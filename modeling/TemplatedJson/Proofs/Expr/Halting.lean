import TemplatedJson.Proofs.Expr.Acceptor
import TemplatedJson.Proofs.Expr.Ends
import TemplatedJson.Proofs.Expr.WellFormed
import TemplatedJson.Proofs.Reading.Failing

/-!
# Where parsers of expressions halt

A parser that fails with a syntax error blames the token that it stands at.  Up to there it
has passed tokens that the machine of the grammar gets through, and the machine does not get
through the blamed one.  The tokens that were passed begin some phrase of the kind that the
parser reads.  Both are shown for the reader of one level under the assumption that they hold
of the reader for the next level.
-/

namespace TemplatedJson

namespace Parse

variable {Value : Type} {limits : Limits}

/-! ### Building nodes -/

/-- Whether a parser fails with no syntax error. -/
def Agrees (parser : Parse Value) : Prop :=
  ∀ ⦃cursor error after⦄, runAt parser cursor = (.error error, after) → ¬ error.IsSyntaxError

theorem agrees_tooDeep (maximum : Nat) : Agrees (tooDeep maximum : Parse Value) := by
  intro cursor error after failed
  rw [runAt_tooDeep, Prod.mk.injEq, Except.error.injEq] at failed
  rintro ⟨expected, found, cause⟩
  simp [← failed.1] at cause

theorem agrees_build (tree : Measured) : Agrees (build limits tree) := by
  intro cursor error after failed
  unfold build at failed
  split at failed
  · simp at failed
  · exact agrees_tooDeep _ failed

theorem agrees_combine (least : Nat) (pending : Pending) (right : Measured) :
    Agrees (combine limits least pending right) := by
  induction pending generalizing right with
  | nil =>
      intro cursor error after failed
      simp [combine] at failed
  | cons waiting outer ih =>
      obtain ⟨left, operator⟩ := waiting
      intro cursor error after failed
      unfold combine at failed
      split at failed
      · rcases runAt_bind_eq_error.mp failed with tooTall | ⟨built, middle, -, later⟩
        · exact agrees_build _ tooTall
        · exact ih built later
      · simp at failed

theorem agrees_applyPrefixes (operators : List PrefixOperator) (operand : Measured) :
    Agrees (applyPrefixes limits operators operand) := by
  induction operators with
  | nil =>
      intro cursor error after failed
      simp [applyPrefixes] at failed
  | cons operator operators ih =>
      intro cursor error after failed
      unfold applyPrefixes at failed
      rcases runAt_bind_eq_error.mp failed with inner | ⟨built, middle, -, tooTall⟩
      · exact ih inner
      · exact agrees_build _ tooTall

end Parse

namespace Grammar

open Parse Acceptor

/-! ### Beginnings of phrases -/

/-- Whether tokens begin some phrase of a kind, which more tokens of a text complete. -/
def Completable {Shape : Type} (phrase : Shape → Phrase) (tokens : List Token) : Prop :=
  ∃ shape more, (∀ token ∈ more, Token.Lexical token) ∧ Derives (phrase shape) (tokens ++ more)

/-- A token that is a name. -/
def anyName : Token :=
  ⟨.identifier "x", "x", 0⟩

theorem lexical_anyName : anyName.Lexical :=
  @Scan.Written.word 'x' [] (by decide) (by simp)

namespace Completable

variable {Shape Whole : Type} {phrase : Shape → Phrase} {whole : Whole → Phrase}
  {before others : List Token}

/-- A phrase that is completed belongs to a larger one, which other tokens complete. -/
theorem enclose (completable : Completable phrase others) (closing : List Token)
    (lexical : ∀ token ∈ closing, Token.Lexical token)
    (encloses : ∀ shape inside, Derives (phrase shape) inside →
      ∃ shape, Derives (whole shape) (before ++ (inside ++ closing))) :
    Completable whole (before ++ others) := by
  obtain ⟨shape, more, lexicalMore, derivation⟩ := completable
  obtain ⟨larger, derivation⟩ := encloses shape _ derivation
  exact ⟨larger, more ++ closing, List.forall_mem_append.mpr ⟨lexicalMore, lexical⟩,
    by simpa using derivation⟩

theorem append (completable : Completable phrase others)
    (grows : ∀ shape inside, Derives (phrase shape) inside →
      ∃ shape, Derives (whole shape) (before ++ inside)) : Completable whole (before ++ others) :=
  completable.enclose [] (List.forall_mem_nil _) (by simpa using grows)

theorem mono (completable : Completable phrase others)
    (implied : ∀ shape inside, Derives (phrase shape) inside →
      ∃ shape, Derives (whole shape) inside) : Completable whole others :=
  show Completable whole ([] ++ others) from completable.append implied

end Completable

theorem kind_signOf (symbol : Symbol) : (signOf symbol).kind = .symbol symbol := rfl

/-- A name is an expression. -/
theorem derives_name {token : Token} {name : String} (named : token.kind = .identifier name) :
    Derives (.expression (.identifier name)) [token] := by
  have operand : Derives (.level operandLevel (.identifier name)) [token] :=
    .single (.bare (.unchained (.identifier named)))
  exact .chained (operand.loosen (by decide) (Nat.le_refl _))

theorem derives_anyName : Derives (.expression (.identifier "x")) [anyName] :=
  derives_name rfl

/-! ### Halting runs -/

variable {limits : Limits} {reader : Parse Measured} {cursor middle after : Cursor}
  {error : ParseError} {state next : State} {frames : List Frame}
  {viable whole : List Token → Prop} {tokens before : List Token} {token : Token} {more : Nat}

/-- Whether a run halted in a state of the machine: it blames a token that the machine does not
get through, and what it passed before can still become a phrase. -/
def Halt (cursor : Cursor) (state : State) (viable : List Token → Prop) (error : ParseError) :
    Prop :=
  ∃ passed stop, cursor.Passes passed stop ∧ error.BlamesToken stop.current ∧
    Stuck state passed stop.current ∧ viable passed

/-- A run that halts at once. -/
theorem Halt.here (blames : error.BlamesToken cursor.current)
    (refused : step state cursor.current = none) (possible : viable []) :
    Halt cursor state viable error :=
  ⟨[], cursor, .none cursor, blames, ⟨state, rfl, refused⟩, possible⟩

/-- A run that halts behind tokens that it passed. -/
theorem Halt.behind (passed : cursor.Passes tokens middle) (reached : run state tokens = some next)
    (halt : Halt middle next viable error)
    (grows : ∀ others, viable others → whole (tokens ++ others)) :
    Halt cursor state whole error := by
  obtain ⟨others, stop, passedOthers, blames, stuck, possible⟩ := halt
  exact ⟨_, stop, passed.append passedOthers, blames, stuck.append reached, grows others possible⟩

theorem Halt.mono (halt : Halt cursor state viable error)
    (implied : ∀ tokens, viable tokens → whole tokens) : Halt cursor state whole error :=
  halt.behind (.none cursor) rfl implied

/-- The state matters for the first token only. -/
theorem Halt.congr {other : State} (same : step state cursor.current = step other cursor.current)
    (halt : Halt cursor state viable error) : Halt cursor other viable error := by
  obtain ⟨passed, stop, passes, blames, ⟨last, ran, refused⟩, possible⟩ := halt
  refine ⟨passed, stop, passes, blames, ?_, possible⟩
  cases passes with
  | none =>
      obtain rfl := Option.some.inj ran
      exact ⟨other, rfl, same ▸ refused⟩
  | token =>
      rw [run_cons, same, ← run_cons] at ran
      exact ⟨last, ran, refused⟩

/-- Whether every syntax error of a parser halts it in a state. -/
def Halts {Value : Type} (parser : Parse Value) (state : State) (viable : List Token → Prop) :
    Prop :=
  ∀ ⦃cursor error after⦄, cursor.Stands → error.IsSyntaxError →
    runAt parser cursor = (.error error, after) → Halt cursor state viable error

/-- What is shown of the reader for expressions: what it reads, where it ends and where it
halts. -/
structure Tracked (reader : Parse Measured) : Prop where
  reads : Reads reader fun tree => .expression tree.expr
  ends : EndsExpression reader
  halts : ∀ frames, Halts reader ⟨.operand, frames⟩ (Completable .expression)

/-! ### Tokens that cannot come next -/

/-- Behind an operand stands what continues it or closes the innermost frame. -/
theorem step_continuation_eq_none (ends : continuesExpression token.kind = false)
    (unclosed : closingStep frames token.kind = none) :
    step ⟨.continuation, frames⟩ token = none := by
  obtain ⟨unchained, noQuestion, noOperator⟩ := continuesExpression_eq_false_iff.mp ends
  have notCall : token.kind ≠ .symbol .leftParenthesis := by
    intro opens
    simp [opens, continuesChain] at unchained
  have notSelector : selectorStep frames token.kind = none := by
    unfold selectorStep
    split
    · next dots => simp [dots, continuesChain] at unchained
    · next opens => simp [opens, continuesChain] at unchained
    · rfl
  simp [step, continuationStep, noOperator, noQuestion, notCall, notSelector, unclosed]

/-- A frame is left by its symbol alone, and only between arguments a comma goes on in it. -/
theorem closingStep_eq_none {frame : Frame} (unclosed : token.kind ≠ .symbol frame.closing)
    (notComma : frame = .arguments → token.kind ≠ .symbol .comma) :
    closingStep (frame :: frames) token.kind = none := by
  unfold closingStep
  split <;> simp_all [Frame.closing]

theorem closingStep_nil_eq_none (notEnd : token.kind ≠ .endOfInput) :
    closingStep [] token.kind = none := by
  unfold closingStep
  split <;> simp_all

/-- A run that halts where its part of the expression ends, but its frame is not left. -/
theorem Halt.unclosed {frame : Frame} (passed : cursor.Passes tokens middle)
    (reached : run state tokens = some ⟨.continuation, frame :: frames⟩)
    (ends : continuesExpression middle.current.kind = false)
    (unclosed : middle.current.kind ≠ .symbol frame.closing ∧ error.BlamesToken middle.current)
    (notComma : frame = .arguments → middle.current.kind ≠ .symbol .comma)
    (possible : viable tokens) : Halt cursor state viable error :=
  ⟨tokens, middle, passed, unclosed.2,
    ⟨_, reached, step_continuation_eq_none ends (closingStep_eq_none unclosed.1 notComma)⟩,
    possible⟩

/-- An operand begins with a token that may begin one. -/
theorem step_operand_eq_none (starts : startsOperand token.kind = false) :
    step ⟨.operand, frames⟩ token = none := by
  have noLiteral : literal? token = none := by
    cases found : literal? token with
    | none => rfl
    | some leaf => simp [startsOperand_of_literal? found] at starts
  simp only [step, operandStep, noLiteral, Option.isSome_none, Bool.false_eq_true, if_false]
  unfold startsOperand at starts
  split <;> simp_all

/-! ### Selectors -/

theorem blames_of_propertyName (stands : cursor.Stands) (isSyntax : error.IsSyntaxError)
    (failed : runAt propertyName cursor = (.error error, after)) :
    propertyName? cursor.current = none ∧ error.BlamesToken cursor.current := by
  unfold propertyName at failed
  obtain ⟨middle, -, -, failed⟩ := exists_of_advance_error stands isSyntax failed
  split at failed
  · simp at failed
  · simp at failed
  · simp at failed
  · rw [runAt_failAt, Prod.mk.injEq, Except.error.injEq] at failed
    refine ⟨?_, _, failed.1.symm⟩
    unfold propertyName?
    split <;> simp_all

/-- What stands in brackets is an expression, also if it is a lone name. -/
theorem Derives.bracketed {key : Expr} {opening closing : Token} {inside : List Token}
    (derivation : Derives (.expression key) inside) (opens : opening.kind = .symbol .leftBracket)
    (closes : closing.kind = .symbol .rightBracket) :
    ∃ picked, Derives (.selector picked) (opening :: (inside ++ [closing])) := by
  by_cases named : ∃ name, key = .identifier name
  · obtain ⟨name, rfl⟩ := named
    obtain ⟨token, rfl, kind⟩ := derivation.eq_of_identifier rfl
    exact ⟨_, .bracketName opens kind closes⟩
  · exact ⟨_, .bracketKey opens derivation (not_exists.mp named) closes⟩

/-- In brackets there is a lone name or an expression. -/
theorem bracketKey_eq_ok {picked : Selector Measured}
    (run : runAt (bracketKey reader) cursor = (.ok picked, after)) :
    (∃ name, cursor.current.kind = .identifier name ∧ cursor.following? = some after ∧
      after.current.kind = .symbol .rightBracket) ∨
      ∃ key, runAt reader cursor = (.ok key, after) := by
  unfold bracketKey at run
  rw [runAt_currentKind_bind] at run
  split at run
  · next name named =>
      obtain ⟨next, start, looked, rest⟩ := runAt_bind_eq_ok.mp run
      obtain ⟨rfl, following, known, rfl⟩ := runAt_peek_eq_ok.mp looked
      split at rest
      · next closes =>
          obtain ⟨_, moved, rfl⟩ := runAt_bind_pure_eq_ok.mp rest
          have moved := runAt_discard_advance_eq_ok.mp moved
          obtain rfl := Option.some.inj (known.symm.trans moved)
          exact .inl ⟨name, named, known, closes⟩
      · obtain ⟨key, inside, rfl⟩ := runAt_bind_pure_eq_ok.mp rest
        exact .inr ⟨key, inside⟩
  · obtain ⟨key, inside, rfl⟩ := runAt_bind_pure_eq_ok.mp run
    exact .inr ⟨key, inside⟩

/-- The inside of brackets is read up to their end, or up to what does not continue it. -/
theorem bracketKey_reads_key (tracked : Tracked reader) {picked : Selector Measured}
    (run : runAt (bracketKey reader) cursor = (.ok picked, after)) :
    ∃ key inside, cursor.Passes inside after ∧ Derives (.expression key) inside ∧
      (after.current.kind = .symbol .rightBracket ∨
        continuesExpression after.current.kind = false) := by
  rcases bracketKey_eq_ok run with ⟨name, named, known, closes⟩ | ⟨key, read⟩
  · exact ⟨_, _, Cursor.passes_current (by simp [named]) known, derives_name named, .inl closes⟩
  · obtain ⟨inside, passed, derivation⟩ := tracked.reads read
    exact ⟨key.expr, inside, passed, derivation, .inr (tracked.ends read)⟩

theorem bracketKey_halts (tracked : Tracked reader) (frames : List Frame) :
    Halts (bracketKey reader) ⟨.operand, frames⟩ (Completable .expression) := by
  intro cursor error after stands isSyntax failed
  unfold bracketKey at failed
  rw [runAt_currentKind_bind] at failed
  split at failed
  · next name named =>
      -- Looking one token ahead blames nothing: it fails as the lexer does, or goes on here.
      rcases answered : cursor.upcoming.next with ⟨found | token, upcoming⟩
      · rw [runAt_bind_of_error (runAt_peek_of_error answered)] at failed
        obtain rfl := Except.error.inj (Prod.mk.inj failed).1
        exact absurd isSyntax (stands.not_isSyntaxError answered)
      · rw [runAt_bind_of_ok (runAt_peek_of_ok answered)] at failed
        split at failed
        · obtain ⟨middle, -, -, failed⟩ := exists_of_discard_error stands isSyntax failed
          simp at failed
        · exact tracked.halts frames stands isSyntax (runAt_bind_pure_eq_error.mp failed)
  · exact tracked.halts frames stands isSyntax (runAt_bind_pure_eq_error.mp failed)

theorem step_selector_eq (starts : token.kind = .symbol .dot ∨ token.kind = .symbol .leftBracket) :
    step ⟨.selector, frames⟩ token = step ⟨.continuation, frames⟩ token := by
  rcases starts with dots | opens
  · rw [step_selector_dot dots]
    exact (covers_continuation frames (step_selector_dot dots)).symm
  · rw [step_selector_bracket opens]
    exact (covers_continuation frames (step_selector_bracket opens)).symm

theorem selector_halts (tracked : Tracked reader) (frames : List Frame)
    (starts : cursor.current.kind = .symbol .dot ∨ cursor.current.kind = .symbol .leftBracket)
    (stands : cursor.Stands) (isSyntax : error.IsSyntaxError)
    (failed : runAt (selector reader) cursor = (.error error, after)) :
    Halt cursor ⟨.selector, frames⟩ (Completable .selector) error := by
  unfold Parse.selector at failed
  rw [runAt_isAt_bind] at failed
  split at failed
  · next dotted =>
      have dots : cursor.current.kind = .symbol .dot := by simpa using dotted
      obtain ⟨middle, known, standsMiddle, failed⟩ := exists_of_discard_error stands isSyntax failed
      obtain ⟨noName, blames⟩ :=
        blames_of_propertyName standsMiddle isSyntax (runAt_bind_pure_eq_error.mp failed)
      exact ⟨_, middle, Cursor.passes_current (by simp [dots]) known, blames,
        ⟨⟨.property, frames⟩, by simp [step_selector_dot dots], by simp [step, noName]⟩,
        .name "x", [anyName], by simpa using lexical_anyName, .property dots rfl⟩
  · next notDotted =>
      have opens : cursor.current.kind = .symbol .leftBracket :=
        starts.resolve_left (by simpa using notDotted)
      rcases runAt_bind_eq_error.mp failed with unopened | ⟨_, middle, opened, failed⟩
      · exact absurd opens (blames_of_expect stands isSyntax unopened).1
      have known := (runAt_expect_eq_ok.mp opened).2
      have standsMiddle := stands.following? known
      have passed := Cursor.passes_current (by simp [opens]) known
      rcases runAt_bind_eq_error.mp failed with inner | ⟨picked, last, read, failed⟩
      · refine (bracketKey_halts tracked (.brackets :: frames) standsMiddle isSyntax inner).behind
          passed (by simp [step_selector_bracket opens]) fun others completable => ?_
        exact completable.enclose [signOf .rightBracket]
          (by simpa using lexical_signOf _) fun key inside derivation =>
            derivation.bracketed opens rfl
      · obtain ⟨key, inside, passedInside, derivation, ends⟩ := bracketKey_reads_key tracked read
        have unclosed := blames_of_expect (standsMiddle.passes passedInside) isSyntax
          (runAt_bind_pure_eq_error.mp failed)
        have reached : run ⟨.selector, frames⟩ (cursor.current :: inside) =
            some ⟨.continuation, .brackets :: frames⟩ := by
          simp [step_selector_bracket opens, derivation.accepts (.brackets :: frames)]
        obtain ⟨picked, selected⟩ := derivation.bracketed opens (kind_signOf .rightBracket)
        exact .unclosed (passed.append passedInside) reached (ends.resolve_left unclosed.1) unclosed
          (by simp) ⟨picked, [signOf .rightBracket], by simpa using lexical_signOf _,
            by simpa using selected⟩

theorem scopeSelector_halts (tracked : Tracked reader) (frames : List Frame) :
    Halts (scopeSelector reader) ⟨.selector, frames⟩ (Completable .selector) := by
  intro cursor error after stands isSyntax failed
  unfold scopeSelector at failed
  rw [runAt_isAtSelector_bind] at failed
  split at failed
  · next starts =>
      exact selector_halts tracked frames (by simpa using starts) stands isSyntax failed
  · next noSelector =>
      refine .here (blames_of_unexpected failed) ?_ ?_
      · simp only [step]
        unfold selectorStep
        split <;> simp_all
      · exact ⟨.name "x", [signOf .dot, anyName], by simp [lexical_signOf, lexical_anyName],
          .property rfl rfl⟩

/-! ### Primary expressions -/

theorem scope_halts (tracked : Tracked reader) (frames : List Frame) {name : String}
    (found : scopeName? token = some name) :
    Halts (do build limits (.scope name (← scopeSelector reader))) ⟨.selector, frames⟩
      fun passed => Completable .primary (token :: passed) := by
  intro cursor error after stands isSyntax failed
  rcases runAt_bind_eq_error.mp failed with inner | ⟨_, _, -, tooTall⟩
  · refine (scopeSelector_halts tracked frames stands isSyntax inner).mono
      fun others completable => ?_
    show Completable .primary ([token] ++ others)
    exact completable.append fun picked inside derivation => ⟨_, .scope found derivation⟩
  · exact absurd isSyntax (agrees_build _ tooTall)

theorem parenthesized_halts (tracked : Tracked reader) (frames : List Frame)
    (opens : token.kind = .symbol .leftParenthesis) :
    Halts (do
        let tree ← reader
        expect .rightParenthesis
        build limits (.parenthesized tree)) ⟨.operand, .parentheses :: frames⟩
      fun passed => Completable .primary (token :: passed) := by
  intro cursor error after stands isSyntax failed
  rcases runAt_bind_eq_error.mp failed with inner | ⟨tree, last, read, failed⟩
  · refine (tracked.halts (.parentheses :: frames) stands isSyntax inner).mono
      fun others completable => ?_
    show Completable .primary ([token] ++ others)
    exact completable.enclose [signOf .rightParenthesis] (by simpa using lexical_signOf _)
      fun inner inside derivation => ⟨_, .parenthesized opens derivation rfl⟩
  obtain ⟨inside, passed, derivation⟩ := tracked.reads read
  rcases runAt_bind_eq_error.mp failed with unclosed | ⟨_, _, -, tooTall⟩
  · exact .unclosed passed (derivation.accepts (.parentheses :: frames)) (tracked.ends read)
      (blames_of_expect (stands.passes passed) isSyntax unclosed) (by simp)
      ⟨_, [signOf .rightParenthesis], by simpa using lexical_signOf _,
        .parenthesized opens derivation rfl⟩
  · exact absurd isSyntax (agrees_build _ tooTall)

theorem primary_halts (tracked : Tracked reader) (frames : List Frame)
    (noPrefix : ∀ operator : PrefixOperator, cursor.current.kind ≠ .symbol operator.symbol)
    (stands : cursor.Stands) (isSyntax : error.IsSyntaxError)
    (failed : runAt (primary limits reader) cursor = (.error error, after)) :
    Halt cursor ⟨.operand, frames⟩ (Completable .primary) error := by
  unfold primary at failed
  obtain ⟨middle, known, standsMiddle, failed⟩ := exists_of_advance_error stands isSyntax failed
  have scope : ∀ {name : String}, scopeName? cursor.current = some name →
      runAt (do build limits (.scope name (← scopeSelector reader))) middle =
        (.error error, after) → Halt cursor ⟨.operand, frames⟩ (Completable .primary) error := by
    intro name found failed
    exact (scope_halts tracked frames found standsMiddle isSyntax failed).behind
      (Cursor.passes_current (usable_of_scopeName? found).1 known)
      (by simp [step_operand_scope found]) fun others completable => completable
  split at failed
  · next kind =>
      -- A number that is out of range is no error in the order of the tokens.
      split at failed
      · simp at failed
      · rw [runAt_throw, Prod.mk.injEq, Except.error.injEq] at failed
        obtain ⟨expected, found, cause⟩ := isSyntax
        simp [← failed.1] at cause
  · simp at failed
  · simp at failed
  · simp at failed
  · simp at failed
  · next name kind => exact scope (by simp [scopeName?, kind]) failed
  · next kind => exact scope (by simp [scopeName?, kind]) failed
  · next opens =>
      exact (parenthesized_halts tracked frames opens standsMiddle isSyntax failed).behind
        (Cursor.passes_current (by simp [opens]) known) (by simp [step_operand_parenthesis opens])
        fun others completable => completable
  · rw [runAt_failAt, Prod.mk.injEq, Except.error.injEq] at failed
    refine .here ⟨_, failed.1.symm⟩ ?_ ⟨_, [anyName], by simpa using lexical_anyName,
      .identifier rfl⟩
    apply step_operand_eq_none
    -- Prefix operators would begin an operand, but all of them were read before.
    have unprefixed : ∀ symbol, cursor.current.kind = .symbol symbol →
        PrefixOperator.ofSymbol? symbol = none := by
      intro symbol kind
      cases found : PrefixOperator.ofSymbol? symbol with
      | none => rfl
      | some operator =>
          rw [PrefixOperator.ofSymbol?_eq_some_iff.mp found] at kind
          exact absurd kind (noPrefix operator)
    unfold startsOperand
    split <;> simp_all

/-! ### Calls and selectors -/

theorem commaSeparated_halts (tracked : Tracked reader) (frames : List Frame) (more : Nat) :
    Halts (commaSeparated reader more) ⟨.operand, .arguments :: frames⟩
      (Completable fun trees : Expr × List Expr => .arguments (trees.1 :: trees.2)) := by
  have first : ∀ ⦃cursor error after⦄, cursor.Stands → error.IsSyntaxError →
      runAt reader cursor = (.error error, after) →
      Halt cursor ⟨.operand, .arguments :: frames⟩
        (Completable fun trees : Expr × List Expr => .arguments (trees.1 :: trees.2)) error := by
    intro cursor error after stands isSyntax failed
    exact (tracked.halts (.arguments :: frames) stands isSyntax failed).mono
      fun others completable => completable.mono fun tree inside derivation =>
        ⟨(tree, []), .lastArgument derivation⟩
  induction more with
  | zero =>
      intro cursor error after stands isSyntax failed
      exact first stands isSyntax (runAt_bind_pure_eq_error.mp failed)
  | succ more ih =>
      intro cursor error after stands isSyntax failed
      unfold commaSeparated at failed
      rcases runAt_bind_eq_error.mp failed with inner | ⟨tree, middle, read, failed⟩
      · exact first stands isSyntax inner
      rw [runAt_isAt_bind] at failed
      split at failed
      · next atComma =>
          obtain ⟨tokens, passed, derivation⟩ := tracked.reads read
          have comma : middle.current.kind = .symbol .comma := by simpa using atComma
          obtain ⟨next, known, standsNext, failed⟩ :=
            exists_of_discard_error (stands.passes passed) isSyntax failed
          have passedComma := Cursor.passes_current (by simp [comma]) known
          have onward : step ⟨.continuation, .arguments :: frames⟩ middle.current = _ :=
            step_closing (by rw [comma]; rfl)
          refine (ih standsNext isSyntax (runAt_bind_pure_eq_error.mp failed)).behind
            (passed.append passedComma)
            (by simp [run_append, derivation.accepts (.arguments :: frames), onward])
            fun others completable => completable.append fun trees inside rest => ?_
          exact ⟨(tree.expr, trees.1 :: trees.2),
            by simpa using Derives.argument derivation comma rest⟩
      · simp at failed

/-- Arguments that halt leave a call that can still be completed. -/
theorem listUntil_halts (tracked : Tracked reader) (frames : List Frame) {callee : Expr}
    {opening : Token} (chain : Derives (.chain callee) before)
    (opens : opening.kind = .symbol .leftParenthesis) :
    Halts (listUntil .rightParenthesis reader) ⟨.argument, frames⟩
      fun passed => Completable .chain (before ++ opening :: passed) := by
  intro cursor error after stands isSyntax failed
  unfold listUntil at failed
  rw [runAt_isAt_bind] at failed
  split at failed
  · obtain ⟨middle, -, -, failed⟩ := exists_of_discard_error stands isSyntax failed
    simp at failed
  next unclosed =>
  rw [runAt_get_bind] at failed
  rcases runAt_bind_eq_error.mp failed with inner | ⟨trees, last, read, failed⟩
  · have notClosed : cursor.current.kind ≠ .symbol .rightParenthesis := by simpa using unclosed
    refine ((commaSeparated_halts tracked frames _ stands isSyntax inner).congr ?_).mono
      fun others completable => ?_
    · simp [step, notClosed]
    · have closed : Completable .chain ((before ++ [opening]) ++ others) :=
        completable.enclose [signOf .rightParenthesis]
          (by simpa using lexical_signOf _) fun trees inside derivation =>
            ⟨_, by simpa using Derives.call chain opens derivation rfl⟩
      simpa using closed
  · obtain ⟨inside, passed, derivation⟩ := arguments_derive tracked.reads (separated_of_runAt read)
    obtain ⟨notComma, ends⟩ :=
      commaSeparated_ends tracked.reads tracked.ends cursor.enough_remaining read
    have some : trees.map Measured.expr ≠ [] := by
      cases separated_of_runAt read <;> simp
    exact .unclosed passed (derivation.accepts.argument some frames) ends
      (blames_of_expect (stands.passes passed) isSyntax (runAt_bind_pure_eq_error.mp failed))
      (fun _ => notComma) ⟨_, [signOf .rightParenthesis], by simpa using lexical_signOf _,
        by simpa using Derives.call chain opens derivation rfl⟩

theorem postfixes_halts (tracked : Tracked reader) (frames : List Frame) (more : Nat)
    {base : Measured} (chain : Derives (.chain base.expr) before) :
    Halts (postfixes limits reader more base) ⟨.continuation, frames⟩
      fun passed => Completable .chain (before ++ passed) := by
  induction more generalizing base before with
  | zero =>
      intro cursor error after stands isSyntax failed
      simp [postfixes] at failed
  | succ more ih =>
      intro cursor error after stands isSyntax failed
      unfold postfixes at failed
      rw [runAt_isAt_bind] at failed
      split at failed
      · next called =>
          have opens : cursor.current.kind = .symbol .leftParenthesis := by simpa using called
          obtain ⟨middle, known, standsMiddle, failed⟩ :=
            exists_of_discard_error stands isSyntax failed
          rcases runAt_bind_eq_error.mp failed with inner | ⟨trees, last, listed, failed⟩
          · exact (listUntil_halts tracked frames chain opens standsMiddle isSyntax inner).behind
              (Cursor.passes_current (by simp [opens]) known) (by simp [step_call opens])
              fun others completable => completable
          obtain ⟨inside, closing, closes, passed, arguments⟩ :=
            listUntil_reads tracked.reads listed
          have passedCall := Cursor.Passes.token (by simp [opens]) known passed
          rcases runAt_bind_eq_error.mp failed with tooTall | ⟨built, final, grown, later⟩
          · exact absurd isSyntax (agrees_build _ tooTall)
          obtain ⟨rfl, rfl⟩ := build_eq_ok grown
          refine (ih (.call chain opens arguments closes) (stands.passes passedCall) isSyntax
            later).behind passedCall (arguments.accepts.call opens closes frames)
            fun others completable => ?_
          simpa using completable
      · rw [runAt_isAtSelector_bind] at failed
        split at failed
        · next starts =>
            have starts : cursor.current.kind = .symbol .dot ∨
                cursor.current.kind = .symbol .leftBracket := by simpa using starts
            rcases runAt_bind_eq_error.mp failed with inner | ⟨picked, last, read, failed⟩
            · refine ((selector_halts tracked frames starts stands isSyntax inner).congr
                (step_selector_eq starts)).mono fun others completable => ?_
              exact completable.append fun picked inside derivation => ⟨_, .select chain derivation⟩
            obtain ⟨tokens, passed, selected⟩ := selector_reads tracked.reads read
            rcases runAt_bind_eq_error.mp failed with tooTall | ⟨built, final, grown, later⟩
            · exact absurd isSyntax (agrees_build _ tooTall)
            obtain ⟨rfl, rfl⟩ := build_eq_ok grown
            refine (ih (.select chain selected) (stands.passes passed) isSyntax later).behind passed
              (selected.accepts.select selected frames) fun others completable => ?_
            simpa using completable
        · simp at failed

/-! ### Operands -/

theorem prefixOperators_agrees (stands : cursor.Stands)
    (failed : runAt (prefixOperators more) cursor = (.error error, after)) :
    ¬ error.IsSyntaxError := by
  intro isSyntax
  induction more generalizing cursor with
  | zero => simp [prefixOperators] at failed
  | succ more ih =>
      unfold prefixOperators at failed
      rw [runAt_currentKind_bind] at failed
      split at failed
      · split at failed
        · obtain ⟨middle, -, standsMiddle, failed⟩ := exists_of_discard_error stands isSyntax failed
          exact ih standsMiddle (runAt_bind_pure_eq_error.mp failed)
        · simp at failed
      · simp at failed

theorem Signs.accepts {operators : List PrefixOperator} {signs : List Token}
    (spelled : Signs operators signs) (frames : List Frame) :
    run ⟨.operand, frames⟩ signs = some ⟨.operand, frames⟩ := by
  induction operators generalizing signs with
  | nil =>
      rw [List.map_eq_nil_iff.mp spelled]
      rfl
  | cons operator operators ih =>
      obtain ⟨sign, others, rfl, kind, rest⟩ := List.map_eq_cons_iff.mp spelled
      rw [run_cons, step_operand_sign kind]
      exact ih rest

theorem operand_halts (tracked : Tracked reader) (frames : List Frame) :
    Halts (Parse.operand limits reader) ⟨.operand, frames⟩ (Completable .operand) := by
  intro cursor error after stands isSyntax failed
  unfold Parse.operand at failed
  rw [runAt_get_bind] at failed
  rcases runAt_bind_eq_error.mp failed with inner | ⟨operators, first, signed, failed⟩
  · exact absurd isSyntax (prefixOperators_agrees stands inner)
  obtain ⟨signs, passedSigns, spelled⟩ := prefixOperators_read signed
  have standsFirst := stands.passes passedSigns
  rcases runAt_bind_eq_error.mp failed with inner | ⟨base, second, based, failed⟩
  · refine (primary_halts tracked frames (prefixOperators_ends cursor.enough_remaining signed)
      standsFirst isSyntax inner).behind passedSigns (spelled.accepts frames)
      fun others completable => completable.append fun tree inside derivation => ?_
    exact ⟨_, (Derives.bare (.unchained derivation)).prefixedBy spelled⟩
  rw [runAt_get_bind] at failed
  obtain ⟨head, passedHead, primary⟩ := primary_reads tracked.reads based
  have chain := Derives.unchained primary
  rcases runAt_bind_eq_error.mp failed with inner | ⟨grown, third, -, failed⟩
  · refine (postfixes_halts tracked frames _ chain (standsFirst.passes passedHead) isSyntax
      inner).behind (passedSigns.append passedHead)
      (by simp [run_append, spelled.accepts frames, primary.accepts frames])
      fun others completable => ?_
    rw [List.append_assoc]
    exact completable.append fun tree inside derivation =>
      ⟨_, (Derives.bare derivation).prefixedBy spelled⟩
  · exact absurd isSyntax (agrees_applyPrefixes operators grown failed)

/-! ### Binary operators -/

/-- The operands that wait make up one level together with the last one. -/
theorem Waiting.close {bound : Nat} {pending : Pending} {right : Expr}
    (waiting : Waiting bound pending before) (boundPos : 0 < bound) (boundLe : bound ≤ operandLevel)
    (operand : Derives (.level bound right) tokens) :
    ∃ tree, Derives (.level 1 tree) (before ++ tokens) := by
  induction waiting generalizing right tokens with
  | none => exact ⟨right, operand.loosen boundPos boundLe⟩
  | @operand bound operator left outer before leftTokens sign tighter waiting leftOperand kind ih =>
      have joined : Derives (.level operator.precedence (.binary operator left.expr right))
          (leftTokens ++ sign :: tokens) :=
        .binary leftOperand kind (operand.loosen tighter boundLe)
      obtain ⟨tree, derivation⟩ :=
        ih (precedence_pos operator) (Nat.le_of_lt (precedence_lt operator)) joined
      exact ⟨tree, by simpa using derivation⟩

theorem operatorChain_halts (tracked : Tracked reader) (frames : List Frame) (more : Nat)
    {pending : Pending} {right : Measured} (waiting : Waiting operandLevel pending before)
    (operand : Derives (.level operandLevel right.expr) tokens) :
    Halts (operatorChain limits reader more pending right) ⟨.continuation, frames⟩
      fun passed => Completable (.level 1) (before ++ (tokens ++ passed)) := by
  induction more generalizing pending right before tokens with
  | zero =>
      intro cursor error after stands isSyntax failed
      exact absurd isSyntax (agrees_combine _ _ _ (runAt_bind_pure_eq_error.mp failed))
  | succ more ih =>
      intro cursor error after stands isSyntax failed
      unfold operatorChain at failed
      rw [runAt_currentOperator?_bind] at failed
      split at failed
      · exact absurd isSyntax (agrees_combine _ _ _ (runAt_bind_pure_eq_error.mp failed))
      next operator found =>
      have kind := operatorOf?_eq_some_iff.mp found
      rcases runAt_bind_eq_error.mp failed with tooTall | ⟨⟨outer, left⟩, middle, combined, moving⟩
      · exact absurd isSyntax (agrees_combine _ _ _ tooTall)
      obtain ⟨rfl, waited, joined, same, waitingOuter, leftOperand⟩ :=
        combine_reads combined waiting (Nat.le_of_lt (precedence_lt operator)) (Nat.le_refl _)
          operand
      -- What halts behind the operator is completed to an operand, with which all operands that
      -- wait make up one level.
      have waitingLeft : Waiting operandLevel ((left, operator) :: outer)
          (waited ++ (joined ++ [middle.current])) :=
        .operand (precedence_lt operator) waitingOuter leftOperand kind
      have regroup : ∀ others, before ++ (tokens ++ middle.current :: others) =
          waited ++ (joined ++ [middle.current]) ++ others := by
        intro others
        rw [← List.append_assoc, same]
        simp
      obtain ⟨second, known, standsSecond, reading⟩ :=
        exists_of_discard_error stands isSyntax moving
      rcases runAt_bind_eq_error.mp reading with inner | ⟨next, third, read, failed⟩
      · refine (operand_halts tracked frames standsSecond isSyntax inner).behind
          (Cursor.passes_current (by simp [kind]) known) (by simp [step_operator kind])
          fun others completable => ?_
        rw [List.singleton_append, regroup]
        exact completable.append fun tree inside derivation =>
          waitingLeft.close (by decide) (Nat.le_refl _) (.single derivation)
      · obtain ⟨nextTokens, passed, nextOperand⟩ := operand_reads tracked.reads read
        refine (ih waitingLeft (.single nextOperand) (standsSecond.passes passed) isSyntax
          failed).behind (.token (by simp [kind]) known passed)
          (by simp [step_operator kind, nextOperand.accepts frames]) fun others completable => ?_
        rw [List.cons_append, regroup]
        exact completable

theorem binary_halts (tracked : Tracked reader) (frames : List Frame) :
    Halts (Parse.binary limits reader) ⟨.operand, frames⟩ (Completable (.level 1)) := by
  intro cursor error after stands isSyntax failed
  unfold Parse.binary at failed
  rcases runAt_bind_eq_error.mp failed with inner | ⟨first, middle, read, failed⟩
  · refine (operand_halts tracked frames stands isSyntax inner).mono fun others completable => ?_
    exact completable.mono fun tree inside derivation =>
      ⟨tree, (Derives.single derivation).loosen (by decide) (Nat.le_refl _)⟩
  · rw [runAt_get_bind] at failed
    obtain ⟨tokens, passed, operand⟩ := operand_reads tracked.reads read
    exact (operatorChain_halts tracked frames _ .none (.single operand) (stands.passes passed)
      isSyntax failed).behind passed (operand.accepts frames) fun others completable => completable

/-! ### Whole expressions -/

/-- Behind its condition and the question mark, a choice halts in one of its two halves or at
the token that should divide them. -/
theorem choice_halts (tracked : Tracked reader) (frames : List Frame) {condition : Measured}
    (chain : Derives (.level 1 condition.expr) before) (asks : token.kind = .symbol .question) :
    Halts (do
        let consequent ← reader
        expect .colon
        let alternate ← reader
        build limits (.conditional condition consequent alternate))
      ⟨.operand, .choice :: frames⟩
      fun passed => Completable .expression (before ++ token :: passed) := by
  have lexical : ∀ token ∈ [signOf .colon, anyName], token.Lexical := by
    simp [lexical_signOf, lexical_anyName]
  intro cursor error after stands isSyntax failed
  rcases runAt_bind_eq_error.mp failed with inner | ⟨consequent, middle, readYes, failed⟩
  · refine (tracked.halts (.choice :: frames) stands isSyntax inner).mono
      fun others completable => ?_
    have closed : Completable .expression ((before ++ [token]) ++ others) :=
      completable.enclose [signOf .colon, anyName] lexical fun yes inside derivation => by
        have choice :=
          Derives.conditional chain asks derivation (kind_signOf .colon) derives_anyName
        exact ⟨_, by simpa using choice⟩
    simpa using closed
  obtain ⟨yes, passed, derivation⟩ := tracked.reads readYes
  have standsMiddle := stands.passes passed
  have reached : run ⟨.operand, .choice :: frames⟩ yes = some ⟨.continuation, .choice :: frames⟩ :=
    derivation.accepts (.choice :: frames)
  rcases runAt_bind_eq_error.mp failed with undivided | ⟨_, first, divided, failed⟩
  · have choice := Derives.conditional chain asks derivation (kind_signOf .colon) derives_anyName
    exact .unclosed passed reached (tracked.ends readYes)
      (blames_of_expect standsMiddle isSyntax undivided) (by simp)
      ⟨_, [signOf .colon, anyName], lexical, by simpa using choice⟩
  obtain ⟨colon, known⟩ := runAt_expect_eq_ok.mp divided
  rcases runAt_bind_eq_error.mp failed with inner | ⟨alternate, last, -, tooTall⟩
  · have onward : step ⟨.continuation, .choice :: frames⟩ middle.current = _ :=
      step_closing (by rw [colon]; rfl)
    refine (tracked.halts frames (standsMiddle.following? known) isSyntax inner).behind
      (passed.append (Cursor.passes_current (by simp [colon]) known))
      (by simp [run_append, reached, onward]) fun others completable => ?_
    have whole :
        Completable .expression ((before ++ token :: (yes ++ [middle.current])) ++ others) :=
      completable.append fun no inside rest => by
        have choice := Derives.conditional chain asks derivation colon rest
        exact ⟨_, by simpa using choice⟩
    simpa using whole
  · exact absurd isSyntax (agrees_build _ tooTall)

theorem level_halts (tracked : Tracked reader) (frames : List Frame) :
    Halts (Parse.level limits reader) ⟨.operand, frames⟩ (Completable .expression) := by
  intro cursor error after stands isSyntax failed
  unfold Parse.level at failed
  rcases runAt_bind_eq_error.mp failed with inner | ⟨condition, first, decided, failed⟩
  · refine (binary_halts tracked frames stands isSyntax inner).mono fun others completable => ?_
    exact completable.mono fun tree inside derivation => ⟨tree, .chained derivation⟩
  rw [runAt_isAt_bind] at failed
  split at failed
  · next asked =>
      have asks : first.current.kind = .symbol .question := by simpa using asked
      obtain ⟨whether, passed, chain⟩ := binary_reads tracked.reads decided
      obtain ⟨second, known, standsSecond, failed⟩ :=
        exists_of_discard_error (stands.passes passed) isSyntax failed
      refine (choice_halts tracked frames chain asks standsSecond isSyntax failed).behind
        (passed.append (Cursor.passes_current (by simp [asks]) known))
        (by simp [run_append, chain.accepts frames, step_question asks])
        fun others completable => ?_
      simpa using completable
  · simp at failed

/-- One level deeper, a run halts at the same token. -/
theorem Halts.deeper {Value : Type} {body : Parse Value} (halts : Halts body state viable) :
    Halts (Parse.deeper body) state viable := by
  intro cursor error after stands isSyntax failed
  have standsDeeper : Cursor.Stands { cursor with depth := cursor.depth + 1 } := stands
  obtain ⟨passed, stop, passes, blames, stuck, possible⟩ :=
    halts standsDeeper isSyntax (runAt_deeper_eq_error.mp failed)
  exact ⟨passed, { stop with depth := stop.depth - 1 }, passes.of_deeper, blames, stuck, possible⟩

/-- The reader for expressions halts at the first token that cannot come next. -/
theorem expressionWithin_tracked (limits : Limits) (levels : Nat) :
    Tracked (expressionWithin limits levels) := by
  refine ⟨expressionWithin_reads limits levels, expressionWithin_ends limits levels,
    fun frames => ?_⟩
  induction levels generalizing frames with
  | zero =>
      refine Halts.deeper fun cursor error after stands isSyntax failed => ?_
      exact absurd isSyntax (agrees_tooDeep _ failed)
  | succ levels ih =>
      have tracked : Tracked (expressionWithin limits levels) :=
        ⟨expressionWithin_reads limits levels, expressionWithin_ends limits levels, ih⟩
      exact (level_halts tracked frames).deeper

theorem expression_halts (limits : Limits) (frames : List Frame) :
    Halts (Parse.expression limits) ⟨.operand, frames⟩ (Completable .expression) := by
  intro cursor error after stands isSyntax failed
  unfold Parse.expression at failed
  rw [runAt_get_bind] at failed
  exact (expressionWithin_tracked limits _).halts frames stands isSyntax
    (runAt_bind_pure_eq_error.mp failed)

/-- A parser of whole texts halts at the first token that cannot come next, which may be the
end of the text. -/
theorem completeExpression_halts (limits : Limits) :
    Halts (completeExpression limits) ⟨.operand, []⟩ (Completable .expression) := by
  intro cursor error after stands isSyntax failed
  unfold completeExpression at failed
  rcases runAt_bind_eq_error.mp failed with inner | ⟨tree, stop, read, unended⟩
  · exact expression_halts limits [] stands isSyntax inner
  unfold Parse.expression at read
  rw [runAt_get_bind] at read
  obtain ⟨measured, inside, rfl⟩ := runAt_bind_pure_eq_ok.mp read
  have tracked := expressionWithin_tracked limits (limits.maximum - cursor.depth)
  obtain ⟨tokens, passed, derivation⟩ := tracked.reads inside
  obtain ⟨notEnd, blames⟩ :=
    blames_of_expectEnd (stands.passes passed) isSyntax (runAt_bind_pure_eq_error.mp unended)
  exact ⟨tokens, stop, passed, blames, ⟨_, derivation.accepts [],
    step_continuation_eq_none (tracked.ends inside) (closingStep_nil_eq_none notEnd)⟩,
    _, [], by simp, by simpa using derivation⟩

end Grammar

end TemplatedJson
