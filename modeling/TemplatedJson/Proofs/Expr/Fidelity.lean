import TemplatedJson.Proofs.Expr.Printing
import TemplatedJson.Proofs.Lexing.Layout

/-!
# Printing keeps the tokens

The printed text of an expression has the tokens that the expression was read from, in the
same order.  The only change is to names in brackets, which are printed after a dot.  A tree
determines the texts of the tokens that it is read from, up to this change, and texts
determine the kinds of tokens.  That no name in brackets is printed shows in the number of
brackets: the printed text has no more of them than the tree.
-/

namespace TemplatedJson

/-- Puts names between brackets after a dot and keeps everything else. -/
def dotNames : List (Token.Kind × String) → List (Token.Kind × String)
  | (.symbol .leftBracket, _) :: (.identifier name, raw) :: (.symbol .rightBracket, _) :: rest =>
      (.symbol .dot, ".") :: (.identifier name, raw) :: dotNames rest
  | first :: rest => first :: dotNames rest
  | [] => []

namespace Expr

mutual

/-- The texts of the tokens of an expression, with fixed names after dots. -/
def raws : Expr → List String
  | literal leaf => [leaf.raw]
  | identifier name => [name]
  | scope name selector =>
      (if name = defaultScope then "$" else "$" ++ name) :: selectorRaws selector
  | select base selector => base.raws ++ selectorRaws selector
  | call callee arguments => callee.raws ++ "(" :: (argumentRaws arguments ++ [")"])
  | prefixed operator operand => operator.text :: operand.raws
  | binary operator left right => left.raws ++ operator.text :: right.raws
  | conditional condition consequent alternate =>
      condition.raws ++ "?" :: (consequent.raws ++ ":" :: alternate.raws)
  | parenthesized inner => "(" :: (inner.raws ++ [")"])

def selectorRaws : Selector Expr → List String
  | .name name => [".", name]
  | .key key => "[" :: (key.raws ++ ["]"])

def argumentRaws : List Expr → List String
  | [] => []
  | [last] => last.raws
  | first :: second :: rest => first.raws ++ "," :: argumentRaws (second :: rest)

end

/-! ### Characters of printed text -/

/-- How often a character occurs in several texts. -/
def occurrences (character : Char) (texts : List String) : Nat :=
  (texts.flatMap String.toList).count character

section Occurrences

variable {character : Char}

@[simp] theorem occurrences_nil : occurrences character [] = 0 := rfl

@[simp] theorem occurrences_cons (text : String) (texts : List String) :
    occurrences character (text :: texts) =
      text.toList.count character + occurrences character texts := by
  simp [occurrences]

@[simp] theorem occurrences_append (texts others : List String) :
    occurrences character (texts ++ others) =
      occurrences character texts + occurrences character others := by
  simp [occurrences]

theorem count_append (text other : String) :
    (text ++ other).toList.count character =
      text.toList.count character + other.toList.count character := by
  simp

/-- A blank behind or around a text adds no other character to it. -/
theorem count_blank (notBlank : character ≠ ' ') :
    " ".toList.count character = 0 ∧ ", ".toList.count character = ",".toList.count character ∧
      " ? ".toList.count character = "?".toList.count character ∧
      " : ".toList.count character = ":".toList.count character := by
  simp [List.count_cons, notBlank.symm]

mutual

/-- Apart from blanks, printing adds no character to the texts of the tokens. -/
theorem count_source (notBlank : character ≠ ' ') : (tree : Expr) →
    tree.source.toList.count character = occurrences character tree.raws
  | literal leaf => by simp [source, raws]
  | identifier name => by simp [source, raws]
  | scope name selector => by
      have selected := count_selectorSource notBlank selector
      by_cases lone : name = defaultScope <;>
        simp only [source, raws, lone, if_true, if_false, count_append, occurrences_cons, selected]
  | select base selector => by
      have whole := count_source notBlank base
      have selected := count_selectorSource notBlank selector
      simp only [source, raws, count_append, occurrences_append, whole, selected]
  | call callee arguments => by
      have called := count_source notBlank callee
      have passed := count_sources notBlank arguments
      simp only [source, raws, count_append, occurrences_append, occurrences_cons,
        occurrences_nil, called, passed]
      omega
  | prefixed operator operand => by
      have inner := count_source notBlank operand
      simp only [source, raws, count_append, occurrences_cons, inner]
  | binary operator left right => by
      have before := count_source notBlank left
      have after := count_source notBlank right
      simp only [source, raws, count_append, occurrences_append, occurrences_cons, before, after,
        (count_blank notBlank).1]
      omega
  | conditional condition consequent alternate => by
      have whether := count_source notBlank condition
      have yes := count_source notBlank consequent
      have no := count_source notBlank alternate
      obtain ⟨-, -, question, colon⟩ := count_blank notBlank
      simp only [source, raws, count_append, occurrences_append, occurrences_cons, whether, yes,
        no, question, colon]
      omega
  | parenthesized inner => by
      have inside := count_source notBlank inner
      simp only [source, raws, count_append, occurrences_append, occurrences_cons,
        occurrences_nil, inside]
      omega

theorem count_selectorSource (notBlank : character ≠ ' ') : (selector : Selector Expr) →
    (selectorSource selector).toList.count character =
      occurrences character (selectorRaws selector)
  | .name name => by
      simp only [selectorSource, selectorRaws, count_append, occurrences_cons, occurrences_nil]
      omega
  | .key key => by
      have inside := count_source notBlank key
      simp only [selectorSource, selectorRaws, count_append, occurrences_append,
        occurrences_cons, occurrences_nil, inside]
      omega

theorem count_sources (notBlank : character ≠ ' ') : (trees : List Expr) →
    (String.intercalate ", " (sources trees)).toList.count character =
      occurrences character (argumentRaws trees)
  | [] => rfl
  | [last] => count_source notBlank last
  | first :: second :: rest => by
      have one := count_source notBlank first
      have others := count_sources notBlank (second :: rest)
      have comma := (count_blank notBlank).2.1
      have split : String.intercalate ", " (sources (first :: second :: rest)) =
          first.source ++ ", " ++ String.intercalate ", " (sources (second :: rest)) := by
        simp [sources]
      simp only [split, argumentRaws, count_append, occurrences_append, occurrences_cons, one,
        others, comma]
      omega

end

end Occurrences

end Expr

namespace Grammar

variable {phrase : Phrase} {tokens : List Token}

def Phrase.raws : Phrase → List String
  | expression tree | level _ tree | operand tree | chain tree | primary tree => tree.raws
  | selector picked => Expr.selectorRaws picked
  | arguments trees => Expr.argumentRaws trees

/-! ### The texts of tokens -/

/-- Whether tokens have the given texts when names in brackets are put after dots, whatever
stands behind the tokens. -/
def Writes (tokens : List Token) (raws : List String) : Prop :=
  ∀ rest, (dotNames (tokens.map Token.shape ++ rest)).map Prod.snd =
    raws ++ (dotNames rest).map Prod.snd

theorem writes_nil : Writes [] [] := fun _ => rfl

theorem Writes.append {others : List Token} {raws more : List String}
    (writes : Writes tokens raws) (writesOthers : Writes others more) :
    Writes (tokens ++ others) (raws ++ more) := by
  intro rest
  rw [List.map_append, List.append_assoc, writes, writesOthers, List.append_assoc]

/-- A token that is no bracket stays where it is. -/
theorem dotNames_cons {first : Token.Kind × String} (other : first.1 ≠ .symbol .leftBracket)
    (rest : List (Token.Kind × String)) : dotNames (first :: rest) = first :: dotNames rest := by
  rw [dotNames]
  rintro raw name rawName rawClosing others rfl
  exact absurd rfl other

theorem writes_single {token : Token} (other : token.kind ≠ .symbol .leftBracket) :
    Writes [token] [token.raw] := by
  intro rest
  simp only [List.map_cons, List.map_nil, List.cons_append, List.nil_append]
  rw [dotNames_cons (by exact other)]
  rfl

theorem raw_of_symbol {token : Token} {symbol : Symbol} (kind : token.kind = .symbol symbol)
    (lexical : token.Lexical) : token.raw = symbol.text := by
  have spelled := lexical.spelled
  rw [kind] at spelled
  exact String.toList_inj.mp spelled

theorem writes_symbol {token : Token} {symbol : Symbol} (kind : token.kind = .symbol symbol)
    (lexical : token.Lexical) (other : symbol ≠ .leftBracket) : Writes [token] [symbol.text] := by
  rw [← raw_of_symbol kind lexical]
  exact writes_single (by rw [kind]; simpa using other)

/-- Brackets around anything but a lone name stay. -/
theorem writes_brackets {opening closing : Token} {inside : List Token} {raws : List String}
    (opens : opening.kind = .symbol .leftBracket) (closes : closing.kind = .symbol .rightBracket)
    (opensLexical : opening.Lexical) (closesLexical : closing.Lexical)
    (writes : Writes inside raws) (some : inside ≠ []) (notAlone : NameNotAlone inside)
    (notName : ∀ token name, inside = [token] → token.kind ≠ .identifier name) :
    Writes (opening :: (inside ++ [closing])) ("[" :: (raws ++ ["]"])) := by
  intro rest
  have closed := writes_symbol closes closesLexical (by decide)
  have kept : dotNames (opening.shape :: ((inside ++ [closing]).map Token.shape ++ rest)) =
      opening.shape :: dotNames ((inside ++ [closing]).map Token.shape ++ rest) := by
    rw [dotNames]
    rintro raw name rawName rawClosing others - same
    match inside, some with
    | [single], _ =>
        have shape : single.shape = (.identifier name, rawName) := by
          simpa using (List.cons.inj same).1
        exact notName single name rfl (congrArg Prod.fst shape)
    | first :: second :: more, _ =>
        simp only [List.cons_append, List.map_cons, List.cons.injEq] at same
        exact notAlone rfl (congrArg Prod.fst same.1) (congrArg Prod.fst same.2.1)
  rw [List.map_cons, List.cons_append, kept, List.map_cons, (writes.append closed) rest]
  have raw : opening.shape.2 = "[" := raw_of_symbol opens opensLexical
  rw [raw]
  rfl

theorem writes_bracketName {opening token closing : Token} {name : String}
    (opens : opening.kind = .symbol .leftBracket) (named : token.kind = .identifier name)
    (closes : closing.kind = .symbol .rightBracket) (lexical : token.Lexical) :
    Writes [opening, token, closing] [".", name] := by
  intro rest
  have spelled := lexical.spelled
  rw [named] at spelled
  have raw : token.raw = name := String.toList_inj.mp spelled.1
  simp [Token.shape, opens, named, closes, raw, dotNames]

theorem writes_scope {token : Token} {name : String} (found : scopeName? token = some name)
    (lexical : token.Lexical) :
    Writes [token] [if name = Expr.defaultScope then "$" else "$" ++ name] := by
  unfold scopeName? at found
  split at found
  · next scope kind =>
      obtain rfl := Option.some.inj found
      have spelled := lexical.spelled
      rw [kind] at spelled
      obtain ⟨raw, first, others, begins, starts⟩ := spelled
      have named : scope ≠ Expr.defaultScope := by
        rintro rfl
        obtain ⟨rfl, -⟩ : '.' = first ∧ [] = others := by simpa [Expr.defaultScope] using begins
        exact absurd starts (by decide)
      have text : token.raw = "$" ++ scope := by
        rw [← String.toList_inj, raw, String.toList_append]
        rfl
      rw [if_neg named, ← text]
      exact writes_single (by simp [kind])
  · next kind =>
      obtain rfl := Option.some.inj found
      exact writes_symbol kind lexical (by decide)
  · simp at found

theorem kind_of_propertyName? {token : Token} {name : String}
    (found : propertyName? token = some name) : token.kind ≠ .symbol .leftBracket := by
  intro kind
  simp [propertyName?, kind] at found

/-- The texts of the tokens of a phrase are those of its trees. -/
theorem Derives.writes (derivation : Derives phrase tokens)
    (lexical : ∀ token ∈ tokens, token.Lexical) : Writes tokens phrase.raws := by
  induction derivation with
  | chained _ ih | tighter _ _ ih | single _ ih | bare _ ih | unchained _ ih
  | lastArgument _ ih => exact ih lexical
  | conditional _ asks _ divides _ condition consequent alternate =>
      have question := writes_symbol asks (lexical _ (by simp)) (by decide)
      have colon := writes_symbol divides (lexical _ (by simp)) (by decide)
      exact (condition (by grind)).append (question.append
        ((consequent (by grind)).append (colon.append (alternate (by grind)))))
  | @binary operator _ _ _ _ _ _ kind _ left right =>
      have sign := writes_symbol kind (lexical _ (by simp)) (by cases operator <;> decide)
      exact (left (by grind)).append (sign.append (right (by grind)))
  | @prefixed operator _ _ _ kind _ ih =>
      have sign := writes_symbol kind (lexical _ (by simp)) (by cases operator <;> decide)
      exact sign.append (ih (by grind))
  | call _ opens _ closes callee arguments =>
      have opening := writes_symbol opens (lexical _ (by simp)) (by decide)
      have closing := writes_symbol closes (lexical _ (by simp)) (by decide)
      exact (callee (by grind)).append (opening.append ((arguments (by grind)).append closing))
  | select _ _ base picked => exact (base (by grind)).append (picked (by grind))
  | @literal token leaf found =>
      obtain ⟨raw, notSymbol⟩ := raw_of_literal? found
      have kept := writes_single (notSymbol .leftBracket)
      rwa [← raw] at kept
  | @identifier token name named =>
      have spelled := (lexical token List.mem_cons_self).spelled
      rw [named] at spelled
      have kept : Writes [token] [token.raw] := writes_single (by simp [named])
      rwa [String.toList_inj.mp spelled.1] at kept
  | scope found _ ih =>
      exact (writes_scope found (lexical _ List.mem_cons_self)).append (ih (by grind))
  | parenthesized opens _ closes ih =>
      have opening := writes_symbol opens (lexical _ (by simp)) (by decide)
      have closing := writes_symbol closes (lexical _ (by simp)) (by decide)
      exact opening.append ((ih (by grind)).append closing)
  | @property dot token name dots found =>
      have sign := writes_symbol dots (lexical _ (by simp)) (by decide)
      have kept := writes_single (kind_of_propertyName? found)
      rw [(eq_of_propertyName? found (lexical _ (by simp))).1] at kept
      exact sign.append kept
  | bracketName opens named closes =>
      exact writes_bracketName opens named closes (lexical _ (by simp))
  | bracketKey opens derivation computed closes ih =>
      refine writes_brackets opens closes (lexical _ (by simp)) (lexical _ (by simp))
        (ih (by grind)) (derivation.ne_nil rfl) (derivation.nameNotAlone rfl) ?_
      intro token name lone named
      exact computed name (Option.some.inj (derivation.tree?_of_name rfl lone named))
  | noArgument => exact writes_nil
  | argument _ kind _ first rest =>
      have comma := writes_symbol kind (lexical _ (by simp)) (by decide)
      exact (first (by grind)).append (comma.append (rest (by grind)))

end Grammar

/-! ### Names in brackets -/

section DotNames

variable {shapes : List (Token.Kind × String)}

theorem forall_mem_dotNames {Holds : Token.Kind × String → Prop} (dot : Holds (.symbol .dot, "."))
    (all : ∀ shape ∈ shapes, Holds shape) : ∀ shape ∈ dotNames shapes, Holds shape := by
  induction shapes using dotNames.induct with
  | case1 raw name rawName rawClosing rest ih =>
      simp only [List.forall_mem_cons] at all
      obtain ⟨-, named, -, others⟩ := all
      simp only [dotNames, List.forall_mem_cons]
      exact ⟨dot, named, ih others⟩
  | case2 first rest noName ih =>
      rw [List.forall_mem_cons] at all
      rw [dotNames.eq_2 _ _ noName, List.forall_mem_cons]
      exact ⟨all.1, ih all.2⟩
  | case3 => simp [dotNames]

/-- Where a name in brackets is put after a dot, a bracket is lost. -/
theorem dotNames_eq_self_or
    (brackets : ∀ raw, (Token.Kind.symbol .leftBracket, raw) ∈ shapes → raw = "[") :
    dotNames shapes = shapes ∨
      Expr.occurrences '[' ((dotNames shapes).map Prod.snd) <
        Expr.occurrences '[' (shapes.map Prod.snd) := by
  induction shapes using dotNames.induct with
  | case1 raw name rawName rawClosing rest ih =>
      right
      obtain rfl := brackets raw List.mem_cons_self
      have others := ih fun raw member => brackets raw (by simp [member])
      have fewer : Expr.occurrences '[' ((dotNames rest).map Prod.snd) ≤
          Expr.occurrences '[' (rest.map Prod.snd) := by
        rcases others with same | less
        · exact Nat.le_of_eq (by rw [same])
        · exact Nat.le_of_lt less
      have dot : ".".toList.count '[' = 0 := by decide
      have bracket : "[".toList.count '[' = 1 := by decide
      simp only [dotNames, List.map_cons, Expr.occurrences_cons, dot, bracket]
      omega
  | case2 first rest noName ih =>
      rw [dotNames.eq_2 _ _ noName]
      rcases ih fun raw member => brackets raw (List.mem_cons_of_mem _ member) with same | less
      · exact .inl (by rw [same])
      · right
        simp only [List.map_cons, Expr.occurrences_cons]
        omega
  | case3 => exact .inl rfl

/-- Whether the text of a token, or of the mark at the end, is one of its kind. -/
def Settled (shape : Token.Kind × String) : Prop :=
  Scan.Written shape.1 shape.2.toList ∨ shape = (.endOfInput, "")

theorem Settled.eq {shape other : Token.Kind × String} (settled : Settled shape)
    (otherSettled : Settled other) (same : shape.2 = other.2) : shape = other := by
  rcases settled with written | rfl <;> rcases otherSettled with otherWritten | rfl
  · rw [same] at written
    exact Prod.ext (written.unique otherWritten) same
  · have positive := written.length_pos
    simp [same] at positive
  · have positive := otherWritten.length_pos
    simp [← same] at positive
  · rfl

/-- The texts of tokens determine their kinds. -/
theorem eq_of_settled {others : List (Token.Kind × String)}
    (settled : ∀ shape ∈ shapes, Settled shape)
    (othersSettled : ∀ shape ∈ others, Settled shape)
    (same : shapes.map Prod.snd = others.map Prod.snd) : shapes = others := by
  induction shapes generalizing others with
  | nil => exact (List.map_eq_nil_iff.mp same.symm).symm
  | cons first rest ih =>
      obtain ⟨other, more, rfl, sameFirst, sameRest⟩ := List.map_eq_cons_iff.mp same.symm
      rw [List.forall_mem_cons] at settled othersSettled
      rw [settled.1.eq othersSettled.1 sameFirst.symm, ih settled.2 othersSettled.2 sameRest.symm]

end DotNames

/-! ### The printed text -/

variable {text : String} {tree : Expr} {tokens printed : List Token} {final : Token}

theorem map_snd_shape (tokens : List Token) :
    (tokens.map Token.shape).map Prod.snd = tokens.map Token.raw := by
  rw [List.map_map]
  rfl

theorem Token.Tile.count {start : Nat} {chars : List Char} {character : Char}
    (tile : Token.Tile start chars tokens) (notBlank : Unicode.isJsonBlank character = false) :
    chars.count character = Expr.occurrences character (tokens.map Token.raw) := by
  induction tile with
  | nil start => rfl
  | @cons start blanks rest token tokens blank offset later ih =>
      have none : blanks.count character = 0 := by
        rw [List.count_eq_zero]
        intro member
        simp [blank character member] at notBlank
      simp [none, ih]

/-- No name stands alone in brackets in a printed text. -/
theorem Grammar.Derives.dotNames_printed (derivation : Grammar.Derives (.expression tree) printed)
    (lexed : tokenize tree.source = .ok (printed ++ [final])) :
    dotNames (printed.map Token.shape) = printed.map Token.shape ∧
      printed.map Token.raw = tree.raws := by
  obtain ⟨last, yields, -⟩ := exists_tokenize_iff.mp ⟨final, lexed⟩
  have written := derivation.writes yields.lexical []
  simp only [List.append_nil, dotNames, List.map_nil, Grammar.Phrase.raws] at written
  have counted : tree.source.toList.count '[' = Expr.occurrences '[' tree.raws :=
    Expr.count_source (by decide) tree
  obtain ⟨_, _, -, -, -, -, tile⟩ := exists_tile_of_tokenize lexed
  rw [tile.count (by decide), List.map_append, Expr.occurrences_append] at counted
  have brackets : ∀ raw, (Token.Kind.symbol .leftBracket, raw) ∈ printed.map Token.shape →
      raw = "[" := by
    intro raw member
    obtain ⟨token, inside, same⟩ := List.mem_map.mp member
    obtain ⟨kind, rfl⟩ := Prod.mk.inj same
    exact Grammar.raw_of_symbol kind (yields.lexical token inside)
  -- Names in brackets would leave fewer brackets than there are in the printed text.
  rcases dotNames_eq_self_or brackets with same | fewer
  · exact ⟨same, by rw [← map_snd_shape, ← same, written]⟩
  · rw [written, map_snd_shape] at fewer
    omega

/-- Printing keeps the tokens of an expression, their kinds and their exact texts, in the same
order.  Only a name in brackets is put after a dot. -/
theorem printing_keeps_tokens {options : ParseOptions}
    (parsed : parseExpression text options = .ofExcept (.ok tree)) :
    ∃ tokens printed, tokenize text = .ok tokens ∧ tokenize tree.source = .ok printed ∧
      printed.map Token.shape = dotNames (tokens.map Token.shape) := by
  obtain ⟨⟨tokens, final, lexed, derivation⟩, -⟩ := parseExpression_eq_ok_iff.mp parsed
  obtain ⟨printed, last, relexed, reprinted⟩ :=
    Expr.Spells.source ⟨tokens, final, lexed, derivation⟩
  refine ⟨_, _, lexed, relexed, ?_⟩
  obtain ⟨_, yields, -⟩ := exists_tokenize_iff.mp ⟨final, lexed⟩
  obtain ⟨_, yieldsPrinted, -⟩ := exists_tokenize_iff.mp ⟨last, relexed⟩
  have settled : ∀ {body : List Token} {token : Token}, (∀ token ∈ body, token.Lexical) →
      token.shape = (.endOfInput, "") →
        ∀ shape ∈ (body ++ [token]).map Token.shape, Settled shape := by
    intro body token lexical ended shape member
    obtain ⟨found, inside, rfl⟩ := List.mem_map.mp member
    rcases List.mem_append.mp inside with inBody | atEnd
    · exact .inl (lexical found inBody)
    · obtain rfl := List.mem_singleton.mp atEnd
      exact .inr ended
  refine eq_of_settled (settled yieldsPrinted.lexical (shape_of_final relexed))
    (forall_mem_dotNames (.inl (.symbol .dot)) (settled yields.lexical (shape_of_final lexed))) ?_
  obtain ⟨-, raws⟩ := reprinted.dotNames_printed relexed
  have written := derivation.writes yields.lexical [final.shape]
  rw [shape_of_final lexed] at written
  have empty : last.raw = "" := congrArg Prod.snd (shape_of_final relexed)
  calc ((printed ++ [last]).map Token.shape).map Prod.snd
      = tree.raws ++ [""] := by rw [map_snd_shape, List.map_append, raws, List.map_singleton, empty]
    _ = (dotNames (tokens.map Token.shape ++ [(Token.Kind.endOfInput, "")])).map Prod.snd :=
        written.symm
    _ = (dotNames ((tokens ++ [final]).map Token.shape)).map Prod.snd := by
        rw [List.map_append, List.map_singleton, shape_of_final lexed]

/-- Parentheses, signs, commas and quotes stay, and the name in brackets is put after a dot. -/
theorem printing_keeps_tokens_of_call :
    ∃ printed, tokenize "f(-a.b, (\x27c\x27))" = .ok printed ∧
      printed.map Token.raw = ["f", "(", "-", "a", ".", "b", ",", "(", "\x27c\x27", ")", ")", ""] := by
  have parsed : parseExpression "f( -a[b],(\x27c\x27) )" ⟨9⟩ = .ofExcept (.ok
      (.call (.identifier "f") [.prefixed .negate (.select (.identifier "a") (.name "b")),
        .parenthesized (.literal ⟨.string "c", "\x27c\x27"⟩)])) := by
    decide +kernel
  obtain ⟨tokens, printed, lexed, relexed, same⟩ := printing_keeps_tokens parsed
  have known : tokenize "f( -a[b],(\x27c\x27) )" = .ok [⟨.identifier "f", "f", 0⟩,
      ⟨.symbol .leftParenthesis, "(", 1⟩, ⟨.symbol .minus, "-", 3⟩, ⟨.identifier "a", "a", 4⟩,
      ⟨.symbol .leftBracket, "[", 5⟩, ⟨.identifier "b", "b", 6⟩, ⟨.symbol .rightBracket, "]", 7⟩,
      ⟨.symbol .comma, ",", 8⟩, ⟨.symbol .leftParenthesis, "(", 9⟩,
      ⟨.string "c" .single, "\x27c\x27", 10⟩, ⟨.symbol .rightParenthesis, ")", 13⟩,
      ⟨.symbol .rightParenthesis, ")", 15⟩, ⟨.endOfInput, "", 16⟩] :=
    eq_ok_of_toOption (by decide +kernel)
  obtain rfl := Except.ok.inj (lexed.symm.trans known)
  have text : Expr.source (.call (.identifier "f")
      [.prefixed .negate (.select (.identifier "a") (.name "b")),
        .parenthesized (.literal ⟨.string "c", "\x27c\x27"⟩)]) = "f(-a.b, (\x27c\x27))" := by
    decide +kernel
  rw [text] at relexed
  refine ⟨printed, relexed, ?_⟩
  rw [← map_snd_shape, same]
  rfl

end TemplatedJson
