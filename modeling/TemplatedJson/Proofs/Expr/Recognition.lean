import TemplatedJson.Outcome
import TemplatedJson.Proofs.Expr.Completeness
import TemplatedJson.Proofs.Expr.Height
import TemplatedJson.Proofs.Expr.Soundness
import TemplatedJson.Proofs.Reading.Tokens

/-!
# Texts that are expressions

A text is an expression when its tokens up to the end derive one.  The parser
accepts exactly these texts, as long as the tree fits under the limit, and
refuses taller trees because of the limit.  A tree never has more levels than
the text has tokens, so with a limit that large the parser decides the grammar.
-/

namespace TemplatedJson

/-- The tokens of a text derive an expression. -/
def Expr.Spells (text : String) (tree : Expr) : Prop :=
  ∃ tokens final, tokenize text = .ok (tokens ++ [final]) ∧
    Grammar.Derives (.expression tree) tokens

namespace Grammar

open Parse

variable {cursor after : Cursor} {stream : TokenStream} {tokens : List Token} {tree : Expr}

/-- An expression that extends to the end of the text is derived from the tokens
up to there, and it fits under the limit. -/
theorem completeExpression_reads {limits : Limits} (stands : cursor.StandsIn stream)
    (counted : limits.base ≤ cursor.depth)
    (run : runAt (completeExpression limits) cursor = (.ok tree, after)) :
    ∃ tokens, cursor.Passes tokens after ∧ after.current.kind = .endOfInput ∧
      Derives (.expression tree) tokens ∧ limits.base + tree.height ≤ limits.maximum := by
  unfold completeExpression at run
  obtain ⟨found, middle, read, rest⟩ := runAt_bind_eq_ok.mp run
  obtain ⟨_, ended, rfl⟩ := runAt_bind_pure_eq_ok.mp rest
  obtain ⟨atEnd, known⟩ := runAt_expectEnd_eq_ok.mp ended
  unfold Parse.expression at read
  rw [runAt_get_bind] at read
  obtain ⟨measured, inside, rfl⟩ := runAt_bind_pure_eq_ok.mp read
  obtain ⟨tokens, passed, derivation⟩ := expressionWithin_reads limits _ inside
  obtain ⟨_, standsMiddle⟩ := stands.passes passed
  rw [standsMiddle.following?_of_end atEnd] at known
  obtain rfl := Option.some.inj known
  have fits := ensures_expressionWithin (by omega) inside
  unfold Within at fits
  rw [← measured.height_eq] at fits
  exact ⟨tokens, passed, atEnd, derivation, fits⟩

/-- Tokens up to the end that derive an expression lead to it, unless it exceeds
the limit. -/
theorem completeExpression_leadsTo {limits : Limits} (stands : cursor.StandsIn stream)
    (counted : limits.base = cursor.depth)
    (passed : cursor.Passes tokens after) (ended : after.current.kind = .endOfInput)
    (derivation : Derives (.expression tree) tokens) :
    LeadsTo (limits.maximum < limits.base + tree.height) limits.maximum
      (runAt (completeExpression limits) cursor) (.ok tree, after) := by
  have reads : ReadsExpression limits tree tokens := derivation.reads limits
  have leads := reads (limits.maximum - cursor.depth) passed (by rw [ended]; rfl)
  have positive := tree.height_pos
  have justified : Exceeds limits (limits.maximum - cursor.depth) tree.height →
      limits.maximum < limits.base + tree.height := by
    unfold Exceeds
    omega
  have read : LeadsTo (limits.maximum < limits.base + tree.height) limits.maximum
      (runAt (Parse.expression limits) cursor) (.ok tree, after) := by
    unfold Parse.expression
    rw [runAt_get_bind]
    exact (leads.mono justified).bind
  unfold completeExpression
  refine read.bind.trans (.of_eq ?_)
  obtain ⟨_, standsAfter⟩ := stands.passes passed
  have atEnd : runAt expectEnd after = (.ok ⟨⟩, after) :=
    runAt_expectEnd_eq_ok.mpr ⟨ended, standsAfter.following?_of_end ended⟩
  rw [runAt_bind_of_ok atEnd, runAt_pure]

/-- The tokens of a phrase are passed by some cursor, up to an end after them. -/
theorem Derives.exists_passes {phrase : Phrase} (derivation : Derives phrase tokens) :
    ∃ cursor after stream, Cursor.StandsIn cursor stream ∧ Cursor.Passes cursor tokens after ∧
      cursor.depth = 0 ∧ after.current.kind = .endOfInput := by
  let final : Token := ⟨.endOfInput, "", 0⟩
  let stream : TokenStream := {
    pending := tokens.map .ok
    settled := .ok final
    pending_not_end := fun token member => by
      obtain ⟨found, inside, same⟩ := List.mem_map.mp member
      obtain rfl := Except.ok.inj same
      exact (derivation.usable found inside).1
    settled_end := fun token same => by
      obtain rfl := Except.ok.inj same
      rfl }
  have pending : stream.pending = tokens.map .ok := rfl
  have settled : stream.settled = .ok final := rfl
  obtain ⟨first, upcoming, answered⟩ := TokenStream.exists_next_eq_ok pending settled
  have stands : Cursor.StandsIn ⟨first, upcoming, 0, []⟩ stream := answered
  obtain ⟨after, passed, last, ended⟩ := stands.passes_to_end_iff.mpr ⟨rfl, rfl⟩
  exact ⟨_, after, stream, stands, passed, rfl, last ▸ ended⟩

/-- Tokens derive at most one expression, because one run of the parser leads to
all of them. -/
theorem Derives.unique {other : Expr} (derivation : Derives (.expression tree) tokens)
    (otherDerivation : Derives (.expression other) tokens) : tree = other := by
  obtain ⟨cursor, after, stream, stands, passed, surface, ended⟩ := derivation.exists_passes
  have limit : ∀ {found : Expr}, Derives (.expression found) tokens →
      runAt (completeExpression ⟨tokens.length, 0⟩) cursor = (.ok found, after) := by
    intro found foundDerivation
    have height := foundDerivation.height_le_length
    have leads := @completeExpression_leadsTo _ _ _ _ _ ⟨tokens.length, 0⟩ stands surface.symm passed
      ended foundDerivation
    rcases leads with reads | ⟨tooTall, -⟩
    · exact reads
    · simp only [Nat.zero_add] at tooTall
      omega
  have same := (limit derivation).symm.trans (limit otherDerivation)
  simpa using same

end Grammar

namespace Expr

open Parse

variable {maximum depth : Nat} {text : String} {tree : Expr}

theorem parseInside_of_ofText {cursor : Cursor} (located : Cursor.ofText text depth = .ok cursor) :
    parseInside maximum depth text = (runAt (completeExpression ⟨maximum, depth⟩) cursor).1 := by
  unfold parseInside
  rw [located]
  rfl

/-- An expression is read, or refused because it is too tall for the limit. -/
theorem Spells.parseInside (spells : Spells text tree) (maximum depth : Nat) :
    parseInside maximum depth text = .ok tree ∨ maximum < depth + tree.height ∧
      ∃ offset, parseInside maximum depth text = .error ⟨.tooDeeplyNested maximum, offset⟩ := by
  obtain ⟨tokens, final, lexed, derivation⟩ := spells
  obtain ⟨cursor, after, located, passed, rfl, ended⟩ := (tokenize_eq_ok_iff depth).mp lexed
  obtain ⟨stands, sameDepth, -⟩ := Cursor.ofText_eq_ok_iff.mp located
  rw [parseInside_of_ofText located]
  have leads := @Grammar.completeExpression_leadsTo _ _ _ _ _ ⟨maximum, depth⟩ stands sameDepth.symm
    passed ended derivation
  rcases leads with reads | ⟨tooTall, offset, stopped, refused⟩
  · exact .inl (by rw [reads])
  · exact .inr ⟨tooTall, offset, by rw [refused]⟩

/-- Inside containers that count towards the limit, exactly the expressions that
fit under it are read. -/
theorem parseInside_eq_ok_iff :
    Expr.parseInside maximum depth text = .ok tree ↔
      Spells text tree ∧ depth + tree.height ≤ maximum := by
  constructor
  · intro parsed
    cases located : Cursor.ofText text depth with
    | error error =>
        unfold Expr.parseInside at parsed
        rw [located] at parsed
        cases parsed
    | ok cursor =>
        rw [parseInside_of_ofText located] at parsed
        obtain ⟨stands, sameDepth, -⟩ := Cursor.ofText_eq_ok_iff.mp located
        obtain ⟨tokens, passed, ended, derivation, fits⟩ :=
          Grammar.completeExpression_reads stands (Nat.le_of_eq sameDepth.symm) (Prod.ext parsed rfl)
        have lexed := (tokenize_eq_ok_iff depth).mpr ⟨cursor, _, located, passed, rfl, ended⟩
        exact ⟨⟨tokens, _, lexed, derivation⟩, fits⟩
  · rintro ⟨spells, fits⟩
    rcases spells.parseInside maximum depth with reads | ⟨tooTall, -⟩
    · exact reads
    · omega

end Expr

/-! ### The parser of bare expressions -/

theorem Outcome.ofExcept_inj {Tree : Type} {first second : Except ParseError Tree} :
    ofExcept first = ofExcept second ↔ first = second := by
  constructor
  · intro same
    rw [← toExcept_ofExcept first, same, toExcept_ofExcept]
  · rintro rfl
    rfl

/-- A bare expression is one inside of no container. -/
theorem parseExpression_eq_parseInside (text : String) (options : ParseOptions) :
    parseExpression text options = .ofExcept (Expr.parseInside options.maxDepth 0 text) := by
  unfold parseExpression observeExpression observe Expr.parseInside
  cases Cursor.ofText text 0 <;> rfl

section Parsed

variable {text : String} {options : ParseOptions} {tree : Expr}

/-- Exactly the expressions that fit under the limit are read. -/
theorem parseExpression_eq_ok_iff :
    parseExpression text options = .ofExcept (.ok tree) ↔
      Expr.Spells text tree ∧ tree.height ≤ options.maxDepth := by
  rw [parseExpression_eq_parseInside, Outcome.ofExcept_inj, Expr.parseInside_eq_ok_iff,
    Nat.zero_add]

/-- An expression is read, or refused because it is too tall for the limit. -/
theorem Expr.Spells.parse (spells : Expr.Spells text tree) (options : ParseOptions) :
    parseExpression text options = .ofExcept (.ok tree) ∨
      options.maxDepth < tree.height ∧ ∃ offset, parseExpression text options =
        .ofExcept (.error ⟨.tooDeeplyNested options.maxDepth, offset⟩) := by
  rw [parseExpression_eq_parseInside]
  rcases spells.parseInside options.maxDepth 0 with read | ⟨tooTall, offset, refused⟩
  · exact .inl (by rw [read])
  · rw [Nat.zero_add] at tooTall
    exact .inr ⟨tooTall, offset, by rw [refused]⟩

end Parsed

/-- With a limit no smaller than the number of tokens, exactly those texts are
expressions whose tokens the grammar derives, and the result is the derived
tree.  The grammar derives no other tree from the same tokens. -/
theorem parseExpression_eq_ok_iff_derives (text : String) (options : ParseOptions)
    (roomy : ∀ tokens final, tokenize text = .ok (tokens ++ [final]) →
      tokens.length ≤ options.maxDepth) (tree : Expr) :
    (parseExpression text options = .ofExcept (.ok tree) ↔
      ∃ tokens final, tokenize text = .ok (tokens ++ [final]) ∧ final.kind = .endOfInput ∧
        (∀ token ∈ tokens, token.kind = .number → (Literal.number? token.raw).isSome) ∧
        Grammar.Derives (.expression tree) tokens) ∧
    ∀ tokens other, Grammar.Derives (.expression tree) tokens →
      Grammar.Derives (.expression other) tokens → other = tree := by
  refine ⟨?_, fun tokens other derivation otherDerivation => otherDerivation.unique derivation⟩
  rw [parseExpression_eq_ok_iff]
  constructor
  · rintro ⟨⟨tokens, final, lexed, derivation⟩, -⟩
    obtain ⟨_, _, -, -, -, ended⟩ := (tokenize_eq_ok_iff 0).mp lexed
    exact ⟨tokens, final, lexed, ended, fun token member => (derivation.usable token member).2,
      derivation⟩
  · rintro ⟨tokens, final, lexed, -, -, derivation⟩
    have enough := roomy tokens final lexed
    have height := derivation.height_le_length
    exact ⟨⟨tokens, final, lexed, derivation⟩, by omega⟩

/-- Subtraction associates to the left, and five levels are enough for the five
tokens. -/
theorem parseExpression_subtractions :
    (∀ tokens final, tokenize "a - b - 1" = .ok (tokens ++ [final]) → tokens.length ≤ 5) ∧
      parseExpression "a - b - 1" ⟨5⟩ = .ofExcept (.ok
        (.binary .subtract (.binary .subtract (.identifier "a") (.identifier "b"))
          (.literal ⟨.number (.integer 1), "1"⟩))) := by
  have lexed : tokenize "a - b - 1" = .ok ([⟨.identifier "a", "a", 0⟩, ⟨.symbol .minus, "-", 2⟩,
      ⟨.identifier "b", "b", 4⟩, ⟨.symbol .minus, "-", 6⟩, ⟨.number, "1", 8⟩] ++
      [⟨.endOfInput, "", 9⟩]) :=
    eq_ok_of_toOption (by decide +kernel)
  have roomy : ∀ tokens final, tokenize "a - b - 1" = .ok (tokens ++ [final]) →
      tokens.length ≤ 5 := by
    intro tokens final same
    rw [lexed, Except.ok.injEq] at same
    have lengths := congrArg List.length same
    simp only [List.length_append, List.length_cons, List.length_nil] at lengths
    omega
  have difference : Grammar.Derives (.level 5 (.binary .subtract (.identifier "a")
      (.identifier "b"))) [⟨.identifier "a", "a", 0⟩, ⟨.symbol .minus, "-", 2⟩,
      ⟨.identifier "b", "b", 4⟩] := by
    have first : Grammar.Derives (.level 7 (.identifier "a")) [⟨.identifier "a", "a", 0⟩] :=
      .single (.bare (.unchained (.identifier rfl)))
    have second : Grammar.Derives (.level 7 (.identifier "b")) [⟨.identifier "b", "b", 4⟩] :=
      .single (.bare (.unchained (.identifier rfl)))
    exact @Grammar.Derives.binary .subtract _ _ _ _ _ (first.loosen (by decide) (by decide)) rfl
      (second.loosen (by decide) (by decide))
  have number : Grammar.Derives (.level 7 (.literal ⟨.number (.integer 1), "1"⟩))
      [⟨.number, "1", 8⟩] :=
    .single (.bare (.unchained (.literal (by decide +kernel))))
  have whole := @Grammar.Derives.binary .subtract _ _ _ _ ⟨.symbol .minus, "-", 6⟩ difference rfl
    (number.loosen (by decide) (by decide))
  refine ⟨roomy, (parseExpression_eq_ok_iff_derives "a - b - 1" ⟨5⟩ roomy _).1.mpr
    ⟨_, _, lexed, rfl, ?_, .chained (whole.loosen (by decide) (by decide))⟩⟩
  intro token member isNumber
  exact (whole.usable token member).2 isNumber

end TemplatedJson
