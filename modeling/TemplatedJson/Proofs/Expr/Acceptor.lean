import TemplatedJson.Proofs.Expr.Completeness
import TemplatedJson.Proofs.Expr.Shape

/-!
# What may come next in an expression

A machine with a stack reads the tokens of an expression one at a time.  Its state says what
may come next, and its stack says what the current part of the expression is nested in.  The
machine builds no tree and looks at no token ahead.  Wherever the grammar derives a phrase,
the machine gets through the tokens of the phrase and leaves the stack as it was.  So a text
whose tokens stop the machine is no expression, whatever stands behind them.
-/

namespace TemplatedJson.Acceptor

/-- What a part of an expression is nested in and must be left by a token of its own. -/
inductive Frame where
  /-- The part of a choice between the question mark and the colon. -/
  | choice
  | parentheses
  | arguments
  | brackets
deriving DecidableEq, Repr

/-- The symbol that leaves a frame. -/
def Frame.closing : Frame → Symbol
  | choice => .colon
  | parentheses | arguments => .rightParenthesis
  | brackets => .rightBracket

/-- What may come next. -/
inductive Expected where
  | operand
  /-- The first argument of a call, or the end of a call without arguments. -/
  | argument
  /-- The selector that a scope needs. -/
  | selector
  | property
  /-- What goes on behind an operand, or ends the part of the expression. -/
  | continuation
  | nothing
deriving DecidableEq, Repr

structure State where
  expected : Expected
  frames : List Frame
deriving DecidableEq, Repr

/-- Reads the first token of an operand, prefix operators included. -/
def operandStep (frames : List Frame) (token : Token) : Option State :=
  if (Grammar.literal? token).isSome then some ⟨.continuation, frames⟩
  else
    match token.kind with
    | .identifier _ => some ⟨.continuation, frames⟩
    | .scope _ | .symbol .dollar => some ⟨.selector, frames⟩
    | .symbol .leftParenthesis => some ⟨.operand, .parentheses :: frames⟩
    | .symbol symbol =>
        if (PrefixOperator.ofSymbol? symbol).isSome then some ⟨.operand, frames⟩ else none
    | _ => none

/-- Reads the first token of a selector. -/
def selectorStep (frames : List Frame) : Token.Kind → Option State
  | .symbol .dot => some ⟨.property, frames⟩
  | .symbol .leftBracket => some ⟨.operand, .brackets :: frames⟩
  | _ => none

/-- Leaves the innermost frame, or goes on to the next part in it. -/
def closingStep : List Frame → Token.Kind → Option State
  | .choice :: frames, .symbol .colon => some ⟨.operand, frames⟩
  | .arguments :: frames, .symbol .comma => some ⟨.operand, .arguments :: frames⟩
  | .parentheses :: frames, .symbol .rightParenthesis => some ⟨.continuation, frames⟩
  | .arguments :: frames, .symbol .rightParenthesis => some ⟨.continuation, frames⟩
  | .brackets :: frames, .symbol .rightBracket => some ⟨.continuation, frames⟩
  | [], .endOfInput => some ⟨.nothing, []⟩
  | _, _ => none

/-- Reads what stands behind an operand. -/
def continuationStep (frames : List Frame) (kind : Token.Kind) : Option State :=
  if (Parse.operatorOf? kind).isSome then some ⟨.operand, frames⟩
  else if kind = .symbol .question then some ⟨.operand, .choice :: frames⟩
  else if kind = .symbol .leftParenthesis then some ⟨.argument, frames⟩
  else (selectorStep frames kind).or (closingStep frames kind)

/-- Reads one token, unless it cannot come next. -/
def step : State → Token → Option State
  | ⟨.operand, frames⟩, token => operandStep frames token
  | ⟨.argument, frames⟩, token =>
      if token.kind = .symbol .rightParenthesis then some ⟨.continuation, frames⟩
      else operandStep (.arguments :: frames) token
  | ⟨.selector, frames⟩, token => selectorStep frames token.kind
  | ⟨.property, frames⟩, token =>
      if (Grammar.propertyName? token).isSome then some ⟨.continuation, frames⟩ else none
  | ⟨.continuation, frames⟩, token => continuationStep frames token.kind
  | ⟨.nothing, _⟩, _ => none

/-- Reads tokens up to the first one that cannot come next. -/
def run (state : State) (tokens : List Token) : Option State :=
  tokens.foldlM step state

variable {state middle after : State} {token other : Token} {tokens others : List Token}
  {frames : List Frame}

@[simp] theorem run_nil : run state [] = some state := rfl

@[simp] theorem run_cons :
    run state (token :: tokens) = (step state token).bind (run · tokens) := by
  simp [run, List.foldlM_cons, Option.bind_eq_bind]

theorem run_append : run state (tokens ++ others) = (run state tokens).bind (run · others) := by
  simp [run, List.foldlM_append, Option.bind_eq_bind]

/-- The place of a token in the text does not matter. -/
theorem step_congr (same : token.shape = other.shape) : step state token = step state other := by
  obtain ⟨expected, frames⟩ := state
  cases expected <;> simp only [step, operandStep, Grammar.literal?_congr same,
    Grammar.propertyName?_congr same, Grammar.kind_congr same rfl]

theorem run_congr (same : tokens.map Token.shape = others.map Token.shape) :
    run state tokens = run state others := by
  induction tokens generalizing state others with
  | nil =>
      rw [List.map_eq_nil_iff.mp same.symm]
  | cons token tokens ih =>
      obtain ⟨other, more, rfl, sameFirst, sameRest⟩ := List.map_eq_cons_iff.mp same.symm
      rw [run_cons, run_cons, step_congr sameFirst]
      exact Option.bind_congr fun next _ => ih sameRest.symm

/-- Whether the machine gets through some tokens and no further. -/
def Stuck (state : State) (tokens : List Token) (token : Token) : Prop :=
  ∃ next, run state tokens = some next ∧ step next token = none

theorem Stuck.append (reached : run state tokens = some middle)
    (stuck : Stuck middle others token) : Stuck state (tokens ++ others) token := by
  obtain ⟨next, ran, refused⟩ := stuck
  refine ⟨next, ?_, refused⟩
  rw [run_append, reached]
  exact ran

/-- The machine stays stuck, whatever comes behind. -/
theorem Stuck.run_eq_none (stuck : Stuck state tokens token) (rest : List Token) :
    run state (tokens ++ token :: rest) = none := by
  obtain ⟨next, ran, refused⟩ := stuck
  simp [run_append, ran, refused]

/-! ### States that allow more -/

/-- Whether one state goes wherever the other one does. -/
def Covers (state wider : State) : Prop :=
  ∀ ⦃token next⦄, step state token = some next → step wider token = some next

theorem covers_argument (frames : List Frame) :
    Covers ⟨.operand, .arguments :: frames⟩ ⟨.argument, frames⟩ := by
  intro token next read
  have notClosing : token.kind ≠ .symbol .rightParenthesis := by
    intro closing
    simp [step, operandStep, Grammar.literal?, closing, PrefixOperator.ofSymbol?] at read
  simpa [step, notClosing] using read

theorem covers_continuation (frames : List Frame) :
    Covers ⟨.selector, frames⟩ ⟨.continuation, frames⟩ := by
  intro token next read
  simp only [step, selectorStep] at read
  split at read
  · next kind => simpa [step, continuationStep, kind, Parse.operatorOf?, BinaryOperator.ofSymbol?,
      selectorStep] using read
  · next kind => simpa [step, continuationStep, kind, Parse.operatorOf?, BinaryOperator.ofSymbol?,
      selectorStep] using read
  · cases read

/-- Some tokens lead a state that allows more to the same place. -/
theorem Covers.run {wider : State} (covers : Covers state wider) (nonempty : tokens ≠ [])
    (read : run state tokens = some after) : run wider tokens = some after := by
  cases tokens with
  | nil => exact absurd rfl nonempty
  | cons token tokens =>
      rw [run_cons, Option.bind_eq_some_iff] at read ⊢
      obtain ⟨next, first, rest⟩ := read
      exact ⟨next, covers first, rest⟩

end Acceptor

namespace Grammar

open Acceptor

variable {phrase : Phrase} {tokens : List Token} {token : Token} {frames : List Frame}

/-! ### The tokens of phrases -/

/-- Whether the machine gets through tokens where a phrase may come next. -/
def Phrase.Accepts : Phrase → List Token → Prop
  | .selector _, tokens => ∀ frames, run ⟨.selector, frames⟩ tokens = some ⟨.continuation, frames⟩
  | .arguments [], tokens => tokens = []
  | .arguments (_ :: _), tokens => ∀ frames,
      run ⟨.operand, .arguments :: frames⟩ tokens = some ⟨.continuation, .arguments :: frames⟩
  | .expression _, tokens | .level _ _, tokens | .operand _, tokens | .chain _, tokens
  | .primary _, tokens => ∀ frames, run ⟨.operand, frames⟩ tokens = some ⟨.continuation, frames⟩

theorem step_operand_literal (found : (literal? token).isSome) :
    step ⟨.operand, frames⟩ token = some ⟨.continuation, frames⟩ := by
  simp [step, operandStep, found]

theorem step_operand_identifier {name : String} (named : token.kind = .identifier name) :
    step ⟨.operand, frames⟩ token = some ⟨.continuation, frames⟩ := by
  simp [step, operandStep, literal?, named]

theorem step_operand_scope {name : String} (found : scopeName? token = some name) :
    step ⟨.operand, frames⟩ token = some ⟨.selector, frames⟩ := by
  unfold scopeName? at found
  split at found
  · next kind => simp [step, operandStep, literal?, kind]
  · next kind => simp [step, operandStep, literal?, kind]
  · cases found

theorem step_operand_parenthesis (opens : token.kind = .symbol .leftParenthesis) :
    step ⟨.operand, frames⟩ token = some ⟨.operand, .parentheses :: frames⟩ := by
  simp [step, operandStep, literal?, opens]

theorem step_operand_sign {operator : PrefixOperator}
    (kind : token.kind = .symbol operator.symbol) :
    step ⟨.operand, frames⟩ token = some ⟨.operand, frames⟩ := by
  cases operator <;> simp [step, operandStep, literal?, kind, PrefixOperator.symbol,
    PrefixOperator.ofSymbol?]

theorem step_selector_dot (dots : token.kind = .symbol .dot) :
    step ⟨.selector, frames⟩ token = some ⟨.property, frames⟩ := by
  simp [step, selectorStep, dots]

theorem step_selector_bracket (opens : token.kind = .symbol .leftBracket) :
    step ⟨.selector, frames⟩ token = some ⟨.operand, .brackets :: frames⟩ := by
  simp [step, selectorStep, opens]

theorem step_property {name : String} (found : propertyName? token = some name) :
    step ⟨.property, frames⟩ token = some ⟨.continuation, frames⟩ := by
  simp [step, found]

theorem step_operator {operator : BinaryOperator} (kind : token.kind = .symbol operator.symbol) :
    step ⟨.continuation, frames⟩ token = some ⟨.operand, frames⟩ := by
  have found := Parse.operatorOf?_eq_some_iff.mpr kind
  simp [step, continuationStep, found]

theorem step_question (asks : token.kind = .symbol .question) :
    step ⟨.continuation, frames⟩ token = some ⟨.operand, .choice :: frames⟩ := by
  simp [step, continuationStep, asks, Parse.operatorOf?, BinaryOperator.ofSymbol?]

theorem step_call (opens : token.kind = .symbol .leftParenthesis) :
    step ⟨.continuation, frames⟩ token = some ⟨.argument, frames⟩ := by
  simp [step, continuationStep, opens, Parse.operatorOf?, BinaryOperator.ofSymbol?]

theorem step_noArgument (closes : token.kind = .symbol .rightParenthesis) :
    step ⟨.argument, frames⟩ token = some ⟨.continuation, frames⟩ := by
  simp [step, closes]

/-- What closes a frame neither continues the phrase in it nor begins a selector. -/
theorem step_closing {next : State} (closes : closingStep frames token.kind = some next) :
    step ⟨.continuation, frames⟩ token = some next := by
  unfold closingStep at closes
  split at closes <;>
    simp_all [step, continuationStep, selectorStep, closingStep, Parse.operatorOf?,
      BinaryOperator.ofSymbol?]

/-- The arguments of a call are more than nothing, unless there are none. -/
theorem Phrase.Accepts.argument {trees : List Expr}
    (accepts : (Phrase.arguments trees).Accepts tokens) (some : trees ≠ []) (frames : List Frame) :
    run ⟨.argument, frames⟩ tokens = .some ⟨.continuation, .arguments :: frames⟩ := by
  match trees, some with
  | first :: rest, _ =>
      have nonempty : tokens ≠ [] := by
        rintro rfl
        simpa using accepts frames
      exact (covers_argument frames).run nonempty (accepts frames)

/-- A call goes on behind its callee and leaves the stack as it was. -/
theorem Phrase.Accepts.call {trees : List Expr} {opening closing : Token}
    (accepts : (Phrase.arguments trees).Accepts tokens)
    (opens : opening.kind = .symbol .leftParenthesis)
    (closes : closing.kind = .symbol .rightParenthesis) (frames : List Frame) :
    run ⟨.continuation, frames⟩ (opening :: (tokens ++ [closing])) =
      some ⟨.continuation, frames⟩ := by
  rw [run_cons, step_call opens, Option.bind_some, run_append]
  by_cases none : trees = []
  · subst none
    obtain rfl : tokens = [] := accepts
    simp [step_noArgument closes]
  · have closed : step ⟨.continuation, .arguments :: frames⟩ closing = _ :=
      step_closing (by rw [closes]; rfl)
    simp [accepts.argument none frames, closed]

/-- A selector goes on behind its base. -/
theorem Phrase.Accepts.select {picked : Selector Expr}
    (accepts : (Phrase.selector picked).Accepts tokens)
    (derivation : Derives (.selector picked) tokens) (frames : List Frame) :
    run ⟨.continuation, frames⟩ tokens = some ⟨.continuation, frames⟩ := by
  obtain ⟨first, rest, rfl, -⟩ := derivation.selector_starts
  exact (covers_continuation frames).run (by simp) (accepts frames)

/-- The machine gets through the tokens of every phrase. -/
theorem Derives.accepts (derivation : Derives phrase tokens) : phrase.Accepts tokens := by
  induction derivation with
  | chained _ ih | tighter _ _ ih | single _ ih | bare _ ih | unchained _ ih => exact ih
  | conditional _ asks _ divides _ condition consequent alternate =>
      intro frames
      have colon : step ⟨.continuation, .choice :: frames⟩ _ = _ :=
        step_closing (by rw [divides]; rfl)
      simp [run_append, condition frames, step_question asks, consequent (.choice :: frames),
        colon, alternate frames]
  | binary _ kind _ left right =>
      intro frames
      simp [run_append, left frames, step_operator kind, right frames]
  | prefixed kind _ ih =>
      intro frames
      simp [step_operand_sign kind, ih frames]
  | call _ opens _ closes callee arguments =>
      intro frames
      rw [run_append, callee frames, Option.bind_some]
      exact arguments.call opens closes frames
  | select _ derivation base picked =>
      intro frames
      rw [run_append, base frames, Option.bind_some]
      exact picked.select derivation frames
  | literal found =>
      intro frames
      simp [step_operand_literal (Option.isSome_of_eq_some found)]
  | identifier named =>
      intro frames
      simp [step_operand_identifier named]
  | scope found _ ih =>
      intro frames
      simp [step_operand_scope found, ih frames]
  | parenthesized opens _ closes ih =>
      intro frames
      have closed : step ⟨.continuation, .parentheses :: frames⟩ _ = _ :=
        step_closing (by rw [closes]; rfl)
      simp [run_append, step_operand_parenthesis opens, ih (.parentheses :: frames), closed]
  | property dots found =>
      intro frames
      simp [step_selector_dot dots, step_property found]
  | bracketName opens named closes =>
      intro frames
      have closed : step ⟨.continuation, .brackets :: frames⟩ _ = _ :=
        step_closing (by rw [closes]; rfl)
      simp [step_selector_bracket opens, step_operand_identifier named, closed]
  | bracketKey opens _ _ closes ih =>
      intro frames
      have closed : step ⟨.continuation, .brackets :: frames⟩ _ = _ :=
        step_closing (by rw [closes]; rfl)
      simp [run_append, step_selector_bracket opens, ih (.brackets :: frames), closed]
  | noArgument => rfl
  | lastArgument _ ih => exact fun frames => ih (.arguments :: frames)
  | argument _ kind _ first rest =>
      intro frames
      have comma : step ⟨.continuation, .arguments :: frames⟩ _ = _ :=
        step_closing (by rw [kind]; rfl)
      simp [run_append, first (.arguments :: frames), comma, rest frames]

end Grammar

end TemplatedJson
