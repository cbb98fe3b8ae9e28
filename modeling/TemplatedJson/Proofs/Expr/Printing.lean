import TemplatedJson.Expr.Source
import TemplatedJson.Proofs.Expr.Recognition
import TemplatedJson.Proofs.Lexing.Lexes

/-!
# Printed expressions

The printed text of a derived tree lexes to tokens that derive the same tree.
They need not be the tokens that the tree was read from: a name in brackets is
printed after a dot.  The induction follows the derivation, and at each place
where two pieces meet the second one must end the last token of the first.
-/

namespace TemplatedJson

namespace Scan

variable {kind : Token.Kind} {chars : List Char}

theorem Written.begins_of_keyword (written : Written kind chars)
    (keyword : (∃ value, kind = .boolean value) ∨ kind = .null) : BeginsName chars := by
  cases written with
  | word starts parts => exact ⟨_, _, rfl, starts⟩
  | _ => simp at keyword

/-- A name begins neither with a digit nor with a sign of its own. -/
theorem BeginsName.head_ne {first character : Char} {others : List Char}
    (begins : BeginsName (first :: others)) (other : isNameStart character = false) :
    first ≠ character := by
  obtain ⟨_, _, same, starts⟩ := begins
  obtain ⟨rfl, -⟩ := List.cons.inj same
  rintro rfl
  simp [other] at starts

/-- A dot and a name continue neither a name nor a number. -/
theorem BeginsName.stops_dot {name : List Char} (begins : BeginsName name) (rest : List Char) :
    Stops ('.' :: (name ++ rest)) := by
  obtain ⟨first, others, rfl, starts⟩ := begins
  have notDigit : first.isDigit = false := by
    cases digit : first.isDigit with
    | false => rfl
    | true => simp [(not_begins_of_isDigit digit).2.2] at starts
  refine ⟨by simp; decide, ?_⟩
  simp [fractionWidth, digitsWidth, notDigit]

/-- Whether a text begins with some character other than an equals sign, so that
it does not complete a symbol before it. -/
def Separate (chars : List Char) : Prop :=
  ∃ first others, chars = first :: others ∧ first ≠ '='

theorem Separate.append (separate : Separate chars) (rest : List Char) :
    Separate (chars ++ rest) := by
  obtain ⟨first, others, rfl, notEqual⟩ := separate
  exact ⟨first, others ++ rest, rfl, notEqual⟩

theorem separate_cons {first : Char} (notEqual : first ≠ '=') (others : List Char) :
    Separate (first :: others) :=
  ⟨first, others, rfl, notEqual⟩

/-- Only symbols begin with an equals sign. -/
theorem Written.separate (written : Written kind chars)
    (notSymbol : ∀ symbol, kind ≠ .symbol symbol) : Separate chars := by
  cases written with
  | symbol symbol => exact absurd rfl (notSymbol symbol)
  | @word first others starts _ =>
      have begins : BeginsName (first :: others) := ⟨first, others, rfl, starts⟩
      exact ⟨first, others, rfl, begins.head_ne (by decide)⟩
  | scope => exact ⟨_, _, rfl, by decide⟩
  | number unsigned =>
      obtain ⟨whole, fraction, exponent, rfl, ⟨nonempty, digits⟩, -, -⟩ := unsigned
      match whole, nonempty with
      | first :: others, _ =>
          refine ⟨first, _, rfl, ?_⟩
          rintro rfl
          exact absurd (digits '=' (by simp)) (by decide)
  | @string quote => exact ⟨_, _, rfl, by cases quote <;> decide⟩

end Scan

namespace Grammar

variable {phrase : Phrase} {tokens : List Token}

theorem eq_of_propertyName? {token : Token} {name : String}
    (found : propertyName? token = some name) (lexical : token.Lexical) :
    token.raw = name ∧ Scan.BeginsName name.toList := by
  unfold Token.Lexical at lexical
  unfold propertyName? at found
  split at found
  · next known kind =>
      obtain rfl := Option.some.inj found
      rw [kind] at lexical
      obtain ⟨same, begins⟩ := lexical.spelled
      exact ⟨String.toList_inj.mp same, begins⟩
  · next value kind =>
      obtain rfl := Option.some.inj found
      exact ⟨rfl, lexical.begins_of_keyword (.inl ⟨value, kind⟩)⟩
  · next kind =>
      obtain rfl := Option.some.inj found
      exact ⟨rfl, lexical.begins_of_keyword (.inr kind)⟩
  · simp at found

def Phrase.text : Phrase → List Char
  | expression tree | level _ tree | operand tree | chain tree | primary tree =>
      tree.source.toList
  | selector picked => (Expr.selectorSource picked).toList
  | arguments trees => (String.intercalate ", " (Expr.sources trees)).toList

/-! ### Where printed pieces meet -/

/-- What is printed for a selector ends the name or the number before it. -/
theorem Derives.stops_selector {picked : Selector Expr}
    (derivation : Derives (.selector picked) tokens) (lexical : ∀ token ∈ tokens, token.Lexical)
    (rest : List Char) : Scan.Stops ((Phrase.selector picked).text ++ rest) := by
  cases derivation with
  | property dots found =>
      obtain ⟨-, begins⟩ := eq_of_propertyName? found (lexical _ (by simp))
      simpa [Phrase.text, Expr.selectorSource] using begins.stops_dot rest
  | bracketName opens named closes =>
      have written := lexical _ (List.mem_cons_of_mem _ List.mem_cons_self)
      unfold Token.Lexical at written
      rw [named] at written
      simpa [Phrase.text, Expr.selectorSource] using written.spelled.2.stops_dot rest
  | bracketKey =>
      simpa [Phrase.text, Expr.selectorSource] using Scan.stops_cons (by decide) (by decide) _

/-- The literal of a token is printed as the text of the token. -/
theorem raw_of_literal? {token : Token} {leaf : Literal} (found : literal? token = some leaf) :
    leaf.raw = token.raw ∧ ∀ symbol, token.kind ≠ .symbol symbol := by
  unfold literal? at found
  split at found
  · next kind =>
      obtain ⟨number, -, rfl⟩ := Option.map_eq_some_iff.mp found
      exact ⟨rfl, by simp [kind]⟩
  all_goals
    first
    | (obtain rfl := Option.some.inj found; exact ⟨rfl, by simp_all⟩)
    | simp at found

/-- No printed tree begins with an equals sign. -/
theorem Derives.separate (derivation : Derives phrase tokens)
    (lexical : ∀ token ∈ tokens, token.Lexical) (isTree : phrase.tree?.isSome) :
    Scan.Separate phrase.text := by
  induction derivation with
  | chained _ ih | tighter _ _ ih | single _ ih | bare _ ih | unchained _ ih =>
      exact ih lexical isTree
  | conditional _ _ _ _ _ ih | binary _ _ _ ih | call _ _ _ _ ih | select _ _ ih =>
      have first := ih (fun token member => lexical token (List.mem_append_left _ member)) rfl
      simpa [Phrase.text, Expr.source] using first.append _
  | @prefixed operator =>
      cases operator <;>
        simpa [Phrase.text, Expr.source, PrefixOperator.text, PrefixOperator.symbol, Symbol.text]
          using Scan.separate_cons (by decide) _
  | literal found =>
      obtain ⟨raw, notSymbol⟩ := raw_of_literal? found
      have written := lexical _ List.mem_cons_self
      simpa [Phrase.text, Expr.source, raw] using written.separate notSymbol
  | @identifier token name named =>
      have written := lexical _ List.mem_cons_self
      unfold Token.Lexical at written
      rw [named] at written
      have separate := written.separate (by simp)
      have same : token.raw.toList = name.toList := written.spelled.1
      rwa [same] at separate
  | @scope token name picked tokens found =>
      by_cases isDefault : name = Expr.defaultScope <;>
        simpa [Phrase.text, Expr.source, isDefault] using Scan.separate_cons (by decide) _
  | parenthesized =>
      simpa [Phrase.text, Expr.source] using Scan.separate_cons (by decide) _
  | property | bracketName | bracketKey | noArgument | lastArgument | argument =>
      simp [Phrase.tree?] at isTree

/-! ### Lexing printed pieces -/

/-- The printed text of a phrase lexes to tokens that derive the phrase. -/
def Reprints (phrase : Phrase) : Prop :=
  Lexes phrase.text Scan.Stops (Derives phrase)

theorem reprints_of_lexes {text : List Char} {ends : List Char → Prop} {holds : List Token → Prop}
    (same : phrase.text = text) (lexes : Lexes text ends holds)
    (follows : ∀ rest, Scan.Stops rest → ends rest)
    (derives : ∀ tokens, holds tokens → Derives phrase tokens) : Reprints phrase := by
  unfold Reprints
  rw [same]
  exact Lexes.mono lexes follows derives

theorem stops_space (rest : List Char) : Scan.Stops ([' '] ++ rest) :=
  (Scan.stops_blank (by decide) rest).1

/-- A phrase, a symbol between spaces and another phrase. -/
theorem Reprints.joined {left right : Phrase} (reprintsLeft : Reprints left) (symbol : Symbol)
    (reprintsRight : Reprints right) :
    Lexes (left.text ++ ([' '] ++ symbol.text.toList) ++ ([' '] ++ right.text)) Scan.Stops
      fun tokens => ∃ before sign after, tokens = before ++ sign :: after ∧
        Derives left before ∧ sign.kind = .symbol symbol ∧ Derives right after := by
  have signed := Lexes.append reprintsLeft blanks_space (Lexes.symbol symbol)
    fun rest _ => stops_space _
  refine Lexes.mono (Lexes.append signed blanks_space reprintsRight ?_) (fun _ stops => stops) ?_
  · intro rest _
    exact Scan.endsBefore_blank _ (by decide) _
  · rintro tokens ⟨_, after, rfl, ⟨before, _, rfl, derivesLeft, sign, rfl, kind⟩, derivesRight⟩
    exact ⟨before, sign, after, by simp, derivesLeft, kind, derivesRight⟩

/-- A phrase between a symbol before it and a symbol after it. -/
theorem Reprints.enclosed {inner : Phrase} (reprints : Reprints inner) {opening closing : Symbol}
    (opens : ∀ rest, Scan.EndsBefore (.symbol opening) rest)
    (closes : ∀ rest, Scan.Stops (closing.text.toList ++ rest))
    (closed : ∀ rest, Scan.EndsBefore (.symbol closing) rest) :
    Lexes (opening.text.toList ++ (inner.text ++ closing.text.toList)) Scan.Stops
      fun tokens => ∃ first inside last, tokens = first :: (inside ++ [last]) ∧
        first.kind = .symbol opening ∧ Derives inner inside ∧ last.kind = .symbol closing := by
  have opened := Lexes.append (Lexes.symbol opening) blanks_nil reprints fun _ _ => opens _
  have whole := Lexes.append opened blanks_nil (Lexes.symbol closing) fun rest _ => closes rest
  simp only [List.nil_append, List.append_assoc] at whole
  refine Lexes.mono whole (fun rest _ => closed rest) ?_
  rintro tokens ⟨_, _, rfl, ⟨_, inside, rfl, ⟨first, rfl, firstKind⟩, derives⟩, last, rfl, lastKind⟩
  exact ⟨first, inside, last, by simp, firstKind, derives, lastKind⟩

theorem reprints_binary {operator : BinaryOperator} {left right : Expr}
    (reprintsLeft : Reprints (.level operator.precedence left))
    (reprintsRight : Reprints (.level (operator.precedence + 1) right)) :
    Reprints (.level operator.precedence (.binary operator left right)) := by
  have joined := reprintsLeft.joined operator.symbol reprintsRight
  have text : (Phrase.level operator.precedence (.binary operator left right)).text =
      left.source.toList ++ ([' '] ++ operator.symbol.text.toList) ++
        ([' '] ++ right.source.toList) := by
    simp [Phrase.text, Expr.source, BinaryOperator.text]
  refine reprints_of_lexes text joined (fun _ stops => stops) ?_
  rintro tokens ⟨before, sign, after, rfl, derivesLeft, kind, derivesRight⟩
  exact .binary derivesLeft kind derivesRight

theorem reprints_conditional {condition consequent alternate : Expr}
    (reprintsCondition : Reprints (.level 1 condition))
    (reprintsConsequent : Reprints (.expression consequent))
    (reprintsAlternate : Reprints (.expression alternate)) :
    Reprints (.expression (.conditional condition consequent alternate)) := by
  have asked := reprintsCondition.joined .question reprintsConsequent
  have divided := Lexes.append asked blanks_space (Lexes.symbol .colon) fun rest _ => stops_space _
  have whole := Lexes.append divided blanks_space reprintsAlternate fun _ _ => trivial
  have text : (Phrase.expression (.conditional condition consequent alternate)).text =
      condition.source.toList ++ ([' '] ++ Symbol.question.text.toList) ++
        ([' '] ++ consequent.source.toList) ++ ([' '] ++ Symbol.colon.text.toList) ++
          ([' '] ++ alternate.source.toList) := by
    simp [Phrase.text, Expr.source, Symbol.text]
  refine reprints_of_lexes text whole (fun _ stops => stops) ?_
  rintro tokens ⟨_, no, rfl, ⟨_, _, rfl, ⟨whether, question, yes, rfl, derivesCondition, asks,
    derivesConsequent⟩, colon, rfl, divides⟩, derivesAlternate⟩
  have derives := Derives.conditional derivesCondition asks derivesConsequent divides
    derivesAlternate
  simpa using derives

theorem reprints_prefixed {operator : PrefixOperator} {tree : Expr}
    (reprints : Reprints (.operand tree)) (separate : Scan.Separate tree.source.toList) :
    Reprints (.operand (.prefixed operator tree)) := by
  have whole := Lexes.append (Lexes.symbol operator.symbol) blanks_nil reprints ?_
  · have text : (Phrase.operand (.prefixed operator tree)).text =
        operator.symbol.text.toList ++ ([] ++ tree.source.toList) := by
      simp [Phrase.text, Expr.source, PrefixOperator.text]
    refine reprints_of_lexes text whole (fun _ stops => stops) ?_
    rintro tokens ⟨_, after, rfl, ⟨sign, rfl, kind⟩, derives⟩
    exact .prefixed kind derives
  · intro rest _
    obtain ⟨first, others, source, notEqual⟩ := separate
    cases operator
    · simpa [Scan.EndsBefore, PrefixOperator.symbol, Phrase.text, source] using notEqual
    · trivial

theorem reprints_parenthesized {inner : Expr} (reprints : Reprints (.expression inner)) :
    Reprints (.primary (.parenthesized inner)) := by
  have enclosed := @Reprints.enclosed _ reprints .leftParenthesis .rightParenthesis
    (fun _ => trivial) (Scan.stops_cons (by decide) (by decide)) (fun _ => trivial)
  have text : (Phrase.primary (.parenthesized inner)).text =
      Symbol.leftParenthesis.text.toList ++
        (inner.source.toList ++ Symbol.rightParenthesis.text.toList) := by
    simp [Phrase.text, Expr.source, Symbol.text]
  refine reprints_of_lexes text enclosed (fun _ stops => stops) ?_
  rintro tokens ⟨opening, inside, closing, rfl, opens, derives, closes⟩
  exact .parenthesized opens derives closes

/-! ### Leaves and selectors -/

theorem endsBefore_of_literal? {token : Token} {leaf : Literal}
    (found : literal? token = some leaf) {rest : List Char} (stops : Scan.Stops rest) :
    Scan.EndsBefore token.kind rest := by
  unfold literal? at found
  split at found <;> simp_all [Scan.EndsBefore]

theorem endsBefore_of_propertyName? {token : Token} {name : String}
    (found : propertyName? token = some name) {rest : List Char} (stops : Scan.Stops rest) :
    Scan.EndsBefore token.kind rest := by
  unfold propertyName? at found
  split at found <;> simp_all [Scan.EndsBefore]

theorem reprints_literal {token : Token} {leaf : Literal} (found : literal? token = some leaf)
    (lexical : token.Lexical) : Reprints (.primary (.literal leaf)) := by
  have text : (Phrase.primary (.literal leaf)).text = token.raw.toList := by
    simp [Phrase.text, Expr.source, (raw_of_literal? found).1]
  refine reprints_of_lexes text (Lexes.written lexical) (fun _ => endsBefore_of_literal? found) ?_
  rintro tokens ⟨offset, rfl⟩
  apply Derives.literal
  rw [String.ofList_toList]
  exact found

theorem reprints_identifier {token : Token} {name : String} (named : token.kind = .identifier name)
    (lexical : token.Lexical) : Reprints (.primary (.identifier name)) := by
  unfold Token.Lexical at lexical
  rw [named] at lexical
  have text : (Phrase.primary (.identifier name)).text = token.raw.toList := by
    simp [Phrase.text, Expr.source, lexical.spelled.1]
  refine reprints_of_lexes text (Lexes.written lexical) (fun _ stops => stops) ?_
  rintro tokens ⟨offset, rfl⟩
  exact .identifier rfl

theorem reprints_property {token : Token} {name : String}
    (found : propertyName? token = some name) (lexical : token.Lexical) :
    Reprints (.selector (.name name)) := by
  obtain ⟨rfl, -⟩ := eq_of_propertyName? found lexical
  have whole := Lexes.append (Lexes.symbol .dot) blanks_nil (Lexes.written lexical)
    fun _ _ => trivial
  have text : (Phrase.selector (.name token.raw)).text =
      Symbol.dot.text.toList ++ ([] ++ token.raw.toList) := by
    simp [Phrase.text, Expr.selectorSource, Symbol.text]
  refine reprints_of_lexes text whole (fun _ => endsBefore_of_propertyName? found) ?_
  rintro tokens ⟨_, _, rfl, ⟨dot, rfl, dots⟩, offset, rfl⟩
  apply Derives.property dots
  rw [String.ofList_toList]
  exact found

theorem reprints_bracketKey {key : Expr} (reprints : Reprints (.expression key))
    (computed : ∀ name, key ≠ .identifier name) : Reprints (.selector (.key key)) := by
  have enclosed := @Reprints.enclosed _ reprints .leftBracket .rightBracket
    (fun _ => trivial) (Scan.stops_cons (by decide) (by decide)) (fun _ => trivial)
  have text : (Phrase.selector (.key key)).text =
      Symbol.leftBracket.text.toList ++
        (key.source.toList ++ Symbol.rightBracket.text.toList) := by
    simp [Phrase.text, Expr.selectorSource, Symbol.text]
  refine reprints_of_lexes text enclosed (fun _ stops => stops) ?_
  rintro tokens ⟨opening, inside, closing, rfl, opens, derives, closes⟩
  exact .bracketKey opens derives computed closes

theorem reprints_scope {token : Token} {name : String} {picked : Selector Expr}
    (found : scopeName? token = some name) (lexical : token.Lexical)
    (reprints : Reprints (.selector picked))
    (stopsScope : ∀ rest, Scan.Stops ((Phrase.selector picked).text ++ rest)) :
    Reprints (.primary (.scope name picked)) := by
  unfold Token.Lexical at lexical
  unfold scopeName? at found
  split at found
  · next known kind =>
      obtain rfl := Option.some.inj found
      rw [kind] at lexical
      obtain ⟨raw, begins⟩ := lexical.spelled
      rw [raw] at lexical
      have whole := Lexes.append (Lexes.written lexical) blanks_nil reprints
        fun rest _ => stopsScope rest
      have notDefault : known ≠ Expr.defaultScope := by
        rintro rfl
        exact begins.head_ne (by decide) rfl
      have text : (Phrase.primary (.scope known picked)).text =
          '$' :: known.toList ++ ([] ++ (Phrase.selector picked).text) := by
        simp [Phrase.text, Expr.source, notDefault]
      refine reprints_of_lexes text whole (fun _ stops => stops) ?_
      rintro tokens ⟨_, after, rfl, ⟨offset, rfl⟩, derives⟩
      exact .scope (by simp [scopeName?]) derives
  · next kind =>
      obtain rfl := Option.some.inj found
      have whole := Lexes.append (Lexes.symbol .dollar) blanks_nil reprints
        fun rest _ => Scan.not_isNameStart_of_stops (stopsScope rest)
      have text : (Phrase.primary (.scope Expr.defaultScope picked)).text =
          Symbol.dollar.text.toList ++ ([] ++ (Phrase.selector picked).text) := by
        simp [Phrase.text, Expr.source, Symbol.text]
      refine reprints_of_lexes text whole (fun _ stops => stops) ?_
      rintro tokens ⟨_, after, rfl, ⟨dollar, rfl, kind⟩, derives⟩
      exact .scope (by simp [scopeName?, kind]) derives
  · simp at found

/-! ### Chains and arguments -/

theorem reprints_select {base : Expr} {picked : Selector Expr}
    (reprintsBase : Reprints (.chain base)) (reprints : Reprints (.selector picked))
    (stopsBase : ∀ rest, Scan.Stops ((Phrase.selector picked).text ++ rest)) :
    Reprints (.chain (.select base picked)) := by
  have whole := Lexes.append reprintsBase blanks_nil reprints fun rest _ => stopsBase rest
  have text : (Phrase.chain (.select base picked)).text =
      base.source.toList ++ ([] ++ (Phrase.selector picked).text) := by
    simp [Phrase.text, Expr.source]
  refine reprints_of_lexes text whole (fun _ stops => stops) ?_
  rintro tokens ⟨before, after, rfl, derivesBase, derives⟩
  exact .select derivesBase derives

/-- The parentheses of a call and the arguments between them. -/
theorem lexes_parentheses {trees : List Expr}
    (reprints : trees ≠ [] → Reprints (.arguments trees)) :
    Lexes (Symbol.leftParenthesis.text.toList ++
        ((Phrase.arguments trees).text ++ Symbol.rightParenthesis.text.toList)) Scan.Stops
      fun tokens => ∃ first inside last, tokens = first :: (inside ++ [last]) ∧
        first.kind = .symbol .leftParenthesis ∧ Derives (.arguments trees) inside ∧
        last.kind = .symbol .rightParenthesis := by
  cases trees with
  | nil =>
      have empty := Lexes.append (Lexes.symbol .leftParenthesis) blanks_nil
        (Lexes.symbol .rightParenthesis) fun _ _ => trivial
      refine Lexes.mono empty (fun _ _ => trivial) ?_
      rintro tokens ⟨_, _, rfl, ⟨opening, rfl, opens⟩, closing, rfl, closes⟩
      exact ⟨opening, [], closing, rfl, opens, .noArgument, closes⟩
  | cons first rest =>
      exact (reprints (by simp)).enclosed (fun _ => trivial)
        (Scan.stops_cons (by decide) (by decide)) (fun _ => trivial)

theorem reprints_call {callee : Expr} {trees : List Expr}
    (reprintsCallee : Reprints (.chain callee))
    (reprints : trees ≠ [] → Reprints (.arguments trees)) : Reprints (.chain (.call callee trees)) := by
  have whole := Lexes.append reprintsCallee blanks_nil (lexes_parentheses reprints)
    fun rest _ => Scan.stops_cons (by decide) (by decide) _
  have text : (Phrase.chain (.call callee trees)).text = callee.source.toList ++
      ([] ++ (Symbol.leftParenthesis.text.toList ++
        ((Phrase.arguments trees).text ++ Symbol.rightParenthesis.text.toList))) := by
    simp [Phrase.text, Expr.source, Symbol.text]
  refine reprints_of_lexes text whole (fun _ stops => stops) ?_
  rintro tokens ⟨before, _, rfl, derivesCallee, opening, inside, closing, rfl, opens, derives,
    closes⟩
  exact .call derivesCallee opens derives closes

theorem reprints_lastArgument {tree : Expr} (reprints : Reprints (.expression tree)) :
    Reprints (.arguments [tree]) := by
  have text : (Phrase.arguments [tree]).text = tree.source.toList := by
    simp [Phrase.text, Expr.sources]
  exact reprints_of_lexes text reprints (fun _ stops => stops) fun _ => .lastArgument

theorem reprints_argument {first second : Expr} {rest : List Expr}
    (reprintsFirst : Reprints (.expression first))
    (reprints : Reprints (.arguments (second :: rest))) :
    Reprints (.arguments (first :: second :: rest)) := by
  have parted := Lexes.append reprintsFirst blanks_nil (Lexes.symbol .comma)
    fun rest _ => Scan.stops_cons (by decide) (by decide) _
  have whole := Lexes.append parted blanks_space reprints fun _ _ => trivial
  have text : (Phrase.arguments (first :: second :: rest)).text =
      first.source.toList ++ ([] ++ Symbol.comma.text.toList) ++
        ([' '] ++ (Phrase.arguments (second :: rest)).text) := by
    simp [Phrase.text, Expr.sources, Symbol.text]
  refine reprints_of_lexes text whole (fun _ stops => stops) ?_
  rintro tokens ⟨_, after, rfl, ⟨before, _, rfl, derivesFirst, comma, rfl, kind⟩, derives⟩
  simpa using Derives.argument derivesFirst kind derives

/-! ### All phrases -/

/-- Whatever derives from the tokens of a text is reprinted. -/
theorem Derives.reprints (derivation : Derives phrase tokens)
    (lexical : ∀ token ∈ tokens, token.Lexical) (some : phrase ≠ .arguments []) :
    Reprints phrase := by
  induction derivation with
  | chained _ ih =>
      exact Lexes.mono (ih lexical (by simp)) (fun _ stops => stops) fun _ => .chained
  | tighter below _ ih =>
      exact Lexes.mono (ih lexical (by simp)) (fun _ stops => stops) fun _ => .tighter below
  | single _ ih =>
      exact Lexes.mono (ih lexical (by simp)) (fun _ stops => stops) fun _ => .single
  | bare _ ih =>
      exact Lexes.mono (ih lexical (by simp)) (fun _ stops => stops) fun _ => .bare
  | unchained _ ih =>
      exact Lexes.mono (ih lexical (by simp)) (fun _ stops => stops) fun _ => .unchained
  | conditional _ _ _ _ _ condition consequent alternate =>
      exact reprints_conditional (condition (by grind) (by simp))
        (consequent (by grind) (by simp)) (alternate (by grind) (by simp))
  | binary _ _ _ left right =>
      exact reprints_binary (left (by grind) (by simp)) (right (by grind) (by simp))
  | prefixed _ derivation ih =>
      have inner := fun token member => lexical token (List.mem_cons_of_mem _ member)
      exact reprints_prefixed (ih inner (by simp)) (derivation.separate inner rfl)
  | call _ _ _ _ callee arguments =>
      exact reprints_call (callee (by grind) (by simp))
        fun nonempty => arguments (by grind) (by simpa using nonempty)
  | select _ selector base picked =>
      exact reprints_select (base (by grind) (by simp)) (picked (by grind) (by simp))
        (selector.stops_selector (by grind))
  | literal found => exact reprints_literal found (lexical _ List.mem_cons_self)
  | identifier named => exact reprints_identifier named (lexical _ List.mem_cons_self)
  | scope found selector ih =>
      have inner := fun token member => lexical token (List.mem_cons_of_mem _ member)
      exact reprints_scope found (lexical _ List.mem_cons_self) (ih inner (by simp))
        (selector.stops_selector inner)
  | parenthesized _ _ _ ih => exact reprints_parenthesized (ih (by grind) (by simp))
  | property _ found => exact reprints_property found (lexical _ (by simp))
  | @bracketName _ token _ name _ named _ =>
      have found : propertyName? token = .some name := by simp [propertyName?, named]
      exact reprints_property found (lexical _ (by simp))
  | bracketKey _ _ computed _ ih => exact reprints_bracketKey (ih (by grind) (by simp)) computed
  | noArgument => exact absurd rfl some
  | lastArgument _ ih => exact reprints_lastArgument (ih lexical (by simp))
  | argument _ _ _ first rest =>
      exact reprints_argument (first (by grind) (by simp)) (rest (by grind) (by simp))

/-- The printed text of a derived expression is an expression again, and the same
one. -/
theorem Derives.spells_source {tree : Expr} (derivation : Derives (.expression tree) tokens)
    (lexical : ∀ token ∈ tokens, token.Lexical) : Expr.Spells tree.source tree := by
  have reprints : Lexes tree.source.toList _ _ := derivation.reprints lexical (by simp)
  obtain ⟨reprinted, final, lexed, derives⟩ := reprints.exists_tokenize Scan.stops_nil
  exact ⟨reprinted, final, lexed, derives⟩

end Grammar

/-- The printed text of an expression that was read is an expression again, and
the same one. -/
theorem Expr.Spells.source {text : String} {tree : Expr} (spells : Spells text tree) :
    Spells tree.source tree := by
  obtain ⟨tokens, final, lexed, derivation⟩ := spells
  obtain ⟨last, yields, -⟩ := exists_tokenize_iff.mp ⟨final, lexed⟩
  exact derivation.spells_source yields.lexical

end TemplatedJson
