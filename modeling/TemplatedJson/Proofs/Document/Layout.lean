import TemplatedJson.Proofs.Document.Recognition
import TemplatedJson.Proofs.Node.Congruence
import TemplatedJson.Proofs.Reading.Parallel
import TemplatedJson.Proofs.Template.Range

/-!
# Layout is irrelevant

Only the kinds and the texts of the tokens of a text decide how it is read.  There is one
place where the layout counts: a minus sign in a document belongs to the digits right
behind it.
-/

namespace TemplatedJson

/-- Whether a distance from the beginning of a token leads to that beginning. -/
def Token.AtBeginning (_ : Token) (distance : Nat) : Prop :=
  distance = 0

theorem Token.atBeginning (token : Token) : token.AtBeginning 0 :=
  rfl

/-- Whether a distance from the beginning of a token is one at which documents report errors:
at the token itself, or in a string that holds an expression. -/
def Token.Reports (token : Token) (distance : Nat) : Prop :=
  distance = 0 ∨ ∃ content, token.kind = .string content .double ∧
    (Template.detect? content).isSome ∧ distance ≤ token.raw.length - 1

/-- Whether the minus signs right before digits are the same ones in two lists of
tokens. -/
def SameSigns (tokens others : List Token) : Prop :=
  ∀ (index : Nat) (minus digits otherMinus otherDigits : Token),
    tokens[index]? = some minus → tokens[index + 1]? = some digits →
      others[index]? = some otherMinus → others[index + 1]? = some otherDigits →
        minus.kind = .symbol .minus → digits.kind = .number →
          (digits.offset = minus.stop ↔ otherDigits.offset = otherMinus.stop)

namespace Parse

variable {layouts : Layouts} {allows : Token → Nat → Prop} {maximum : Nat}

/-! ### Expressions -/

theorem parallel_agrees (layouts : Layouts) (here : ∀ token, allows token 0) (limits : Limits) :
    (parallel layouts allows here).Agrees limits limits := by
  apply Congruence.Agrees.of_fits
  · exact fun _ => Iff.rfl
  · intro Value cursor otherCursor beside
    rw [runAt_tooDeep, runAt_tooDeep]
    exact .error ⟨_, _, _, 0, beside.meets, here _, rfl, rfl⟩

theorem areParallel_expression (here : ∀ token, allows token 0) (limits : Limits) :
    AreParallel layouts allows (Parse.expression limits) (Parse.expression limits) := by
  intro cursor otherCursor beside
  obtain ⟨-, -, -, depth⟩ := id beside
  unfold Parse.expression
  rw [runAt_get_bind, runAt_get_bind, depth]
  have read := Alike.expressionWithin (parallel_agrees layouts here limits)
    (limits.maximum - otherCursor.depth)
  exact (read.bind fun tree => .pure tree.expr) beside

theorem areParallel_completeExpression (here : ∀ token, allows token 0) (limits : Limits) :
    AreParallel layouts allows (completeExpression limits) (completeExpression limits) := by
  have ends : Alike (parallel layouts allows here) expectEnd expectEnd := Alike.expectEnd
  exact (areParallel_expression here limits).bind fun tree => ends.bind fun _ => .pure tree

/-! ### Values without containers -/

theorem reports_here (token : Token) : token.Reports 0 :=
  .inl rfl

theorem areParallel_jsonNumber {token other : Token} (meets : layouts.Meets token other)
    (sign digits : String) :
    AreParallel layouts Token.Reports (jsonNumber sign digits token.offset)
      (jsonNumber sign digits other.offset) := by
  have fails : AreParallel layouts Token.Reports
      (throw ⟨.invalidNumber (sign ++ digits), token.offset⟩ : Parse Node)
      (throw ⟨.invalidNumber (sign ++ digits), other.offset⟩) :=
    .throw reports_here meets _
  unfold jsonNumber
  split
  · split
    · exact fails
    · exact fun _ _ beside => .value beside
  · exact fails

theorem areParallel_unsignedNumber :
    AreParallel layouts Token.Reports unsignedNumber unsignedNumber := by
  intro cursor otherCursor beside
  have raw : cursor.current.raw = otherCursor.current.raw := congrArg Prod.snd beside.meets.shape
  have moves : Alike (parallel layouts Token.Reports reports_here) (discard advance)
      (discard advance) :=
    Alike.discard_advance
  unfold unsignedNumber
  rw [runAt_get_bind, runAt_get_bind]
  dsimp only
  rw [raw]
  exact AreParallel.bind moves (fun _ => areParallel_jsonNumber beside.meets "" _) beside

/-- Behind a minus sign both texts go on with the next token. -/
theorem Beside.exists_digits {cursor other : Cursor} (beside : Beside layouts cursor other)
    (isMinus : cursor.current.kind = .symbol .minus)
    (signs : SameSigns (layouts.tokens ++ [layouts.final]) (layouts.others ++ [layouts.otherFinal])) :
    ∃ digits upcoming otherDigits otherUpcoming, cursor.upcoming.next = (.ok digits, upcoming) ∧
      other.upcoming.next = (.ok otherDigits, otherUpcoming) ∧
        Beside layouts { cursor with current := digits, upcoming := upcoming }
          { other with current := otherDigits, upcoming := otherUpcoming } ∧
            (digits.kind = .number → (digits.offset = cursor.current.stop ↔
              otherDigits.offset = other.current.stop)) := by
  obtain ⟨index, standsAt, otherAt, depth⟩ := beside
  have notLast : index < layouts.tokens.length := by
    apply Nat.lt_of_le_of_ne standsAt.index_le
    rintro rfl
    have last := standsAt.current
    rw [List.getElem?_concat_length] at last
    rw [← Option.some.inj last, layouts.ended] at isMinus
    cases isMinus
  obtain ⟨digits, upcoming, answered, next⟩ := standsAt.exists_next
  obtain ⟨otherDigits, otherUpcoming, otherAnswered, otherNext⟩ := otherAt.exists_next
  rw [Nat.min_eq_left notLast] at next
  rw [← layouts.length_eq, Nat.min_eq_left notLast] at otherNext
  exact ⟨digits, upcoming, otherDigits, otherUpcoming, answered, otherAnswered,
    ⟨index + 1, next, otherNext, depth⟩, signs index _ _ _ _ standsAt.current next.current
      otherAt.current otherNext.current isMinus⟩

/-- The digits behind a minus sign belong to it in both texts or in none of them. -/
theorem areParallel_signedNumber
    (signs : SameSigns (layouts.tokens ++ [layouts.final]) (layouts.others ++ [layouts.otherFinal])) :
    AreParallel layouts Token.Reports signedNumber signedNumber := by
  intro cursor otherCursor beside
  have moves : Alike (parallel layouts Token.Reports reports_here) (discard advance)
      (discard advance) :=
    Alike.discard_advance
  have fails : ∀ expected, Alike (parallel layouts Token.Reports reports_here)
      (unexpected expected : Parse Node) (unexpected expected) :=
    Alike.unexpected
  have shape := beside.meets.shape
  have kind : cursor.current.kind = otherCursor.current.kind := congrArg Prod.fst shape
  have raw : cursor.current.raw = otherCursor.current.raw := congrArg Prod.snd shape
  unfold signedNumber
  rw [runAt_currentKind_bind, runAt_currentKind_bind, ← kind]
  split
  · next isMinus =>
      obtain ⟨digits, upcoming, otherDigits, otherUpcoming, answered, otherAnswered, besideNext,
        adjacent⟩ := beside.exists_digits isMinus signs
      have shapeNext := besideNext.meets.shape
      have kindNext : digits.kind = otherDigits.kind := congrArg Prod.fst shapeNext
      have rawNext : digits.raw = otherDigits.raw := congrArg Prod.snd shapeNext
      unfold negativeNumber
      rw [runAt_bind_of_ok (runAt_advance_of_ok answered),
        runAt_bind_of_ok (runAt_advance_of_ok otherAnswered), runAt_get_bind, runAt_get_bind]
      dsimp only
      have sameTest : (decide (digits.kind = .number) &&
            decide (digits.offset = cursor.current.stop)) =
          (decide (otherDigits.kind = .number) &&
            decide (otherDigits.offset = otherCursor.current.stop)) := by
        rw [← kindNext]
        by_cases isNumber : digits.kind = .number
        · simp only [adjacent isNumber]
        · simp [isNumber]
      rw [sameTest, raw, rawNext]
      split
      · exact AreParallel.bind moves (fun _ => areParallel_jsonNumber beside.meets _ _) besideNext
      · exact fails _ besideNext
  · exact fails _ beside

theorem areParallel_stringValue {token other : Token} {content : String}
    (meets : layouts.Meets token other) (kind : token.kind = .string content .double) :
    AreParallel layouts Token.Reports (stringValue maximum content token)
      (stringValue maximum content other) := by
  intro cursor otherCursor beside
  have raw : token.raw = other.raw := congrArg Prod.snd meets.shape
  obtain ⟨index, standsAt, otherAt, depth⟩ := id beside
  cases found : Template.detect? content with
  | none =>
      rw [runAt_stringValue_of_plain found, runAt_stringValue_of_plain found, raw]
      exact .value beside
  | some embedded =>
      rw [runAt_stringValue_of_embedded found, runAt_stringValue_of_embedded found, depth, ← raw]
      cases parsed : Expr.parseInside maximum otherCursor.depth embedded.source with
      | ok tree =>
          exact .value ⟨index, ⟨standsAt.1, standsAt.2, standsAt.3⟩,
            ⟨otherAt.1, otherAt.2, otherAt.3⟩, rfl⟩
      | error inner =>
          have inside := Template.rawIndex_le token.raw (embedded.start + inner.offset)
          have reports : token.Reports
              (Template.rawIndex token.raw (embedded.start + inner.offset)) :=
            .inr ⟨content, kind, by rw [found]; rfl, inside⟩
          exact .error ⟨inner.cause, token, other, _, meets, reports, rfl, rfl⟩

/-! ### Documents -/

theorem parallel_leaves
    (signs : SameSigns (layouts.tokens ++ [layouts.final]) (layouts.others ++ [layouts.otherFinal]))
    (maximum : Nat) :
    (parallel layouts Token.Reports reports_here).Leaves maximum maximum where
  unsigned := areParallel_unsignedNumber
  signed := areParallel_signedNumber signs
  string := by
    unfold stringNode
    apply Alike.jsonString_bind
    intro content token other kind meets
    exact areParallel_stringValue meets kind
  refuses := (parallel_agrees layouts reports_here ⟨maximum, 0⟩).refuses

theorem parallel_framed
    (signs : SameSigns (layouts.tokens ++ [layouts.final]) (layouts.others ++ [layouts.otherFinal]))
    (maximum : Nat) :
    (parallel layouts Token.Reports reports_here).Framed maximum maximum where
  value := by
    intro cursor otherCursor beside
    obtain ⟨-, -, -, depth⟩ := id beside
    unfold completeValue
    rw [runAt_get_bind, runAt_get_bind, depth]
    have read := Alike.valueWithin (parallel_leaves signs maximum) (maximum - otherCursor.depth)
    exact (read.bind fun node => Alike.expectEnd.bind fun _ => .pure node) beside
  expression := areParallel_expression reports_here ⟨maximum, 0⟩

end Parse

/-! ### Whole texts -/

/-- Whether two outcomes are one tree, or failures for one cause as far behind tokens with
the same index. -/
def SameOutcome (tokens others : List Token) (allows : Token → Nat → Prop) {Tree : Type}
    (outcome other : Outcome Tree) : Prop :=
  (∃ tree, outcome = .ofExcept (.ok tree) ∧ other = .ofExcept (.ok tree)) ∨
    ∃ (cause : ParseError.Cause) (index : Nat) (token otherToken : Token) (distance : Nat),
      tokens[index]? = some token ∧ others[index]? = some otherToken ∧ allows token distance ∧
        outcome = .ofExcept (.error ⟨cause, token.offset + distance⟩) ∧
          other = .ofExcept (.error ⟨cause, otherToken.offset + distance⟩)

section Texts

variable {text other : String} {tokens others : List Token}

/-- The layouts of two texts whose tokens have the same shapes. -/
theorem exists_layouts (lexed : tokenize text = .ok tokens)
    (otherLexed : tokenize other = .ok others)
    (same : tokens.map Token.shape = others.map Token.shape) :
    ∃ layouts : Layouts, tokens = layouts.tokens ++ [layouts.final] ∧
      others = layouts.others ++ [layouts.otherFinal] := by
  obtain ⟨body, final, rfl⟩ := exists_of_tokenize lexed
  obtain ⟨otherBody, otherFinal, rfl⟩ := exists_of_tokenize otherLexed
  exact ⟨⟨body, final, otherBody, otherFinal, congrArg Prod.fst (shape_of_final lexed), same⟩,
    rfl, rfl⟩

/-- Parsers that run in parallel have the same outcomes for the texts. -/
theorem sameOutcome_observe {layouts : Layouts} {allows : Token → Nat → Prop} {Tree : Type}
    {mode : Mode} {parser : Parse Tree} {options : ParseOptions}
    (lexed : tokenize text = .ok (layouts.tokens ++ [layouts.final]))
    (otherLexed : tokenize other = .ok (layouts.others ++ [layouts.otherFinal]))
    (parallel : Parse.AreParallel layouts allows parser parser) :
    SameOutcome (layouts.tokens ++ [layouts.final]) (layouts.others ++ [layouts.otherFinal]) allows
      (.ofExcept (observe mode parser text options).result)
      (.ofExcept (observe mode parser other options).result) := by
  obtain ⟨cursor, located, standsAt, depth⟩ := Cursor.at_of_ofText lexed 0
  obtain ⟨otherCursor, otherLocated, otherAt, otherDepth⟩ := Cursor.at_of_ofText otherLexed 0
  have ends := parallel ⟨0, standsAt, otherAt, depth.trans otherDepth.symm⟩
  unfold observe
  rw [located, otherLocated]
  dsimp only
  generalize Parse.runAt parser cursor = ending at ends
  generalize Parse.runAt parser otherCursor = otherEnding at ends
  cases ends with
  | value _ => exact .inl ⟨_, rfl, rfl⟩
  | error corresponds =>
      obtain ⟨cause, token, otherToken, distance, ⟨index, known, otherKnown⟩, allowed, rfl, rfl⟩ :=
        corresponds
      exact .inr ⟨cause, index, token, otherToken, distance, known, otherKnown, allowed, rfl, rfl⟩

end Texts

/-- Only kinds and texts of tokens decide how a text is read.  Two texts whose tokens agree
in them have the same outcome as expressions, and failures are reported at tokens with the
same index.  They have the same outcome as documents if the same minus signs stand right
before digits, where failures inside of a string are as far behind its beginning.  Blanks
may be put anywhere between the tokens of a text without changing any of them. -/
theorem layout_is_irrelevant :
    (∀ (text other : String) (tokens others : List Token) (options : ParseOptions),
      tokenize text = .ok tokens → tokenize other = .ok others →
        tokens.map Token.shape = others.map Token.shape →
          SameOutcome tokens others Token.AtBeginning
              (parseExpression text options) (parseExpression other options) ∧
            (SameSigns tokens others → SameOutcome tokens others Token.Reports
              (parseDocument text options) (parseDocument other options))) ∧
    ∀ (before after blanks : String) (tokens : List Token),
      tokenize (before ++ after) = .ok tokens → Blanks blanks.toList →
        (∀ token ∈ tokens, token.stop ≤ before.length ∨ before.length ≤ token.offset) →
          ∃ others, tokenize (before ++ blanks ++ after) = .ok others ∧
            others.map Token.shape = tokens.map Token.shape := by
  refine ⟨?_, fun before after blanks tokens lexed blank between =>
    tokenize_insert lexed blank between⟩
  intro text other tokens others options lexed otherLexed same
  obtain ⟨layouts, rfl, rfl⟩ := exists_layouts lexed otherLexed same
  constructor
  · exact sameOutcome_observe lexed otherLexed
      (Parse.areParallel_completeExpression Token.atBeginning ⟨options.maxDepth, 0⟩)
  · intro signs
    exact sameOutcome_observe lexed otherLexed
      (Parse.Alike.document (Parse.parallel_framed signs options.maxDepth))

/-- A blank before a negative number leaves the minus sign at its digits, and it moves the end
of an unfinished array. -/
theorem layout_is_irrelevant_before_minus :
    tokenize "[-1" = .ok [⟨.symbol .leftBracket, "[", 0⟩, ⟨.symbol .minus, "-", 1⟩,
      ⟨.number, "1", 2⟩, ⟨.endOfInput, "", 3⟩] ∧
    ∃ others, tokenize "[ -1" = .ok others ∧
      SameSigns [⟨.symbol .leftBracket, "[", 0⟩, ⟨.symbol .minus, "-", 1⟩,
        ⟨.number, "1", 2⟩, ⟨.endOfInput, "", 3⟩] others ∧
      SameOutcome [⟨.symbol .leftBracket, "[", 0⟩, ⟨.symbol .minus, "-", 1⟩,
        ⟨.number, "1", 2⟩, ⟨.endOfInput, "", 3⟩] others Token.Reports
          (parseDocument "[-1" ⟨64⟩) (parseDocument "[ -1" ⟨64⟩) := by
  have lexed : tokenize ("[" ++ "-1") = .ok [⟨.symbol .leftBracket, "[", 0⟩,
      ⟨.symbol .minus, "-", 1⟩, ⟨.number, "1", 2⟩, ⟨.endOfInput, "", 3⟩] :=
    eq_ok_of_toOption (by decide +kernel)
  have blank : Blanks " ".toList := blanks_space
  obtain ⟨others, otherLexed, shapes⟩ :=
    layout_is_irrelevant.2 "[" "-1" " " _ lexed blank (by decide)
  have moved : tokenize ("[" ++ " " ++ "-1") = .ok [⟨.symbol .leftBracket, "[", 0⟩,
      ⟨.symbol .minus, "-", 2⟩, ⟨.number, "1", 3⟩, ⟨.endOfInput, "", 4⟩] :=
    eq_ok_of_toOption (by decide +kernel)
  obtain rfl := Except.ok.inj (otherLexed.symm.trans moved)
  have signs : SameSigns [⟨.symbol .leftBracket, "[", 0⟩, ⟨.symbol .minus, "-", 1⟩,
      ⟨.number, "1", 2⟩, ⟨.endOfInput, "", 3⟩] [⟨.symbol .leftBracket, "[", 0⟩,
        ⟨.symbol .minus, "-", 2⟩, ⟨.number, "1", 3⟩, ⟨.endOfInput, "", 4⟩] := by
    -- Only the second token is a minus sign, and behind the fourth one there is none.
    rintro (_ | _ | _ | index) minus digits otherMinus otherDigits known next otherKnown otherNext
      isMinus -
    · cases known
      cases isMinus
    · cases known
      cases next
      cases otherKnown
      cases otherNext
      decide
    · cases known
      cases isMinus
    · cases next
  exact ⟨lexed, _, otherLexed, signs,
    (layout_is_irrelevant.1 _ _ _ _ ⟨64⟩ lexed otherLexed shapes.symm).2 signs⟩

end TemplatedJson
