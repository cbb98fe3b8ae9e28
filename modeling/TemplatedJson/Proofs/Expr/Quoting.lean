import TemplatedJson.Proofs.Expr.Recognition
import TemplatedJson.Proofs.Expr.Shape
import TemplatedJson.Proofs.Lexing.Quoting

/-!
# Strings in another style of quotes

What is written for a text between quotes of any style is read as that text.  So a string of
an expression can be written in another style.  The other tokens stay as they are, and the
tree changes nowhere but in the text of a literal.
-/

namespace TemplatedJson

variable {text otherText : String} {tokens others : List Token} {tree : Expr}
  {replace : Literal → Literal} {options : ParseOptions}

/-- Texts whose tokens have the same roles spell the same trees, up to literals that are
replaced by the same one. -/
theorem Expr.Spells.respell (spells : Expr.Spells text tree) (lexed : tokenize text = .ok tokens)
    (relexed : tokenize otherText = .ok others)
    (same : others.map (Token.role replace) = tokens.map (Token.role replace)) :
    ∃ changed, Expr.Spells otherText changed ∧
      changed.mapLiterals replace = tree.mapLiterals replace := by
  obtain ⟨body, final, lexedAgain, derivation⟩ := spells
  obtain rfl := Except.ok.inj (lexed.symm.trans lexedAgain)
  obtain ⟨otherBody, otherFinal, rfl⟩ := exists_of_tokenize relexed
  rw [List.map_append, List.map_append] at same
  obtain ⟨changed, otherDerivation, alike⟩ := derivation.respell (List.append_inj_left' same rfl)
  exact ⟨changed, ⟨otherBody, otherFinal, relexed, otherDerivation⟩, alike⟩

theorem Expr.Spells.unique {other : Expr} (spells : Expr.Spells text tree)
    (otherSpells : Expr.Spells text other) : other = tree := by
  obtain ⟨body, final, lexed, derivation⟩ := spells
  obtain ⟨otherBody, otherFinal, relexed, otherDerivation⟩ := otherSpells
  obtain rfl := (List.append_inj' (Except.ok.inj (lexed.symm.trans relexed)) rfl).1
  exact otherDerivation.unique derivation

/-- Where one text is read, another one whose tokens have the same roles is read too, and the
trees differ in literals only that are replaced by the same one. -/
theorem parseExpression_respelled (lexed : tokenize text = .ok tokens)
    (relexed : tokenize otherText = .ok others)
    (parsed : parseExpression text options = .ofExcept (.ok tree))
    (same : others.map (Token.role replace) = tokens.map (Token.role replace)) :
    ∃ changed, parseExpression otherText options = .ofExcept (.ok changed) ∧
      changed.mapLiterals replace = tree.mapLiterals replace := by
  obtain ⟨spells, fits⟩ := parseExpression_eq_ok_iff.mp parsed
  obtain ⟨changed, otherSpells, alike⟩ := spells.respell lexed relexed same
  refine ⟨changed, parseExpression_eq_ok_iff.mpr ⟨otherSpells, ?_⟩, alike⟩
  rw [← Expr.height_mapLiterals replace changed, alike, Expr.height_mapLiterals]
  exact fits

/-- Quoting is inverted by the lexer.  What printing writes for a text is read as a single
string with that content, and so is what is written between quotes of any style.  A string
with this content that stands in any text may be written in any style instead: the tokens
before it stay as they are, and those behind it keep their kinds and texts.  If the text is
an expression, it stays one, with the same tree up to the text of this literal: nothing that
does not tell the two literals apart tells the trees apart. -/
theorem quoting_is_inverted (content : String) :
    tokenize (Quoted.quote content) =
        .ok [⟨.string content .double, Quoted.quote content, 0⟩,
          ⟨.endOfInput, "", (Quoted.quote content).length⟩] ∧
      (∀ quote : Quote, tokenize (quote.enclose content) =
        .ok [⟨.string content quote, quote.enclose content, 0⟩,
          ⟨.endOfInput, "", (quote.enclose content).length⟩]) ∧
      ∀ text tokens token quote, tokenize text = .ok tokens → token ∈ tokens →
        token.kind = .string content quote →
          ∃ before after front back, text = before ++ token.raw ++ after ∧
            before.length = token.offset ∧ tokens = front ++ token :: back ∧
            ∀ other : Quote,
              (∃ others, tokenize (before ++ other.enclose content ++ after) =
                  .ok (front ++
                    ⟨.string content other, other.enclose content, token.offset⟩ :: others) ∧
                others.map Token.shape = back.map Token.shape) ∧
              ∀ options tree, parseExpression text options = .ofExcept (.ok tree) →
                ∃ changed, parseExpression (before ++ other.enclose content ++ after) options =
                    .ofExcept (.ok changed) ∧
                  ∀ replace : Literal → Literal,
                    replace ⟨.string content, other.enclose content⟩ =
                        replace ⟨.string content, token.raw⟩ →
                      changed.mapLiterals replace = tree.mapLiterals replace := by
  refine ⟨tokenize_of_written (Quoted.written_quote content),
    fun quote => tokenize_of_written (quote.written_enclose content), ?_⟩
  intro text tokens token quote lexed member isString
  obtain ⟨before, after, front, back, whole, place, split, exchanged⟩ :=
    tokenize_exchange lexed member (by simp [isString])
  refine ⟨before, after, front, back, whole, place, split, fun other => ?_⟩
  obtain ⟨others, relexed, shapes⟩ := exchanged _ _ _ (other.written_enclose content)
  refine ⟨⟨others, relexed, shapes⟩, fun options tree parsed => ?_⟩
  have sameRoles : ∀ replace : Literal → Literal,
      replace ⟨.string content, other.enclose content⟩ = replace ⟨.string content, token.raw⟩ →
        (front ++ ⟨.string content other, other.enclose content, token.offset⟩ :: others).map
          (Token.role replace) = tokens.map (Token.role replace) := by
    intro replace alike
    have role : Token.role replace ⟨.string content other, other.enclose content, token.offset⟩ =
        token.role replace := by
      simp only [Token.role, isString, alike]
    rw [split, List.map_append, List.map_append, List.map_cons, List.map_cons, role,
      Grammar.map_role_congr shapes]
  obtain ⟨changed, reparsed, -⟩ :=
    parseExpression_respelled lexed relexed parsed (sameRoles (fun leaf => ⟨leaf.value, ""⟩) rfl)
  refine ⟨changed, reparsed, fun replace alike => ?_⟩
  obtain ⟨again, reparsedAgain, same⟩ :=
    parseExpression_respelled lexed relexed parsed (sameRoles replace alike)
  have sameTree : again = changed :=
    (parseExpression_eq_ok_iff.mp reparsed).1.unique (parseExpression_eq_ok_iff.mp reparsedAgain).1
  rwa [sameTree] at same

/-- The quote in a key is escaped between single quotes, and it may stand between quotes of any
style. -/
theorem quoting_is_inverted_in_key :
    tokenize "$['it\\'s']" = .ok [⟨.symbol .dollar, "$", 0⟩, ⟨.symbol .leftBracket, "[", 1⟩,
      ⟨.string "it's" .single, "'it\\'s'", 2⟩, ⟨.symbol .rightBracket, "]", 9⟩,
      ⟨.endOfInput, "", 10⟩] ∧
    ∃ before after, "$['it\\'s']" = before ++ "'it\\'s'" ++ after ∧
      ∀ other : Quote, ∃ changed,
        parseExpression (before ++ other.enclose "it's" ++ after) ⟨2⟩ = .ofExcept (.ok changed) ∧
          changed.mapLiterals (fun leaf => ⟨leaf.value, ""⟩) =
            .scope "." (.key (.literal ⟨.string "it's", ""⟩)) := by
  have lexed : tokenize "$['it\\'s']" = .ok [⟨.symbol .dollar, "$", 0⟩,
      ⟨.symbol .leftBracket, "[", 1⟩, ⟨.string "it's" .single, "'it\\'s'", 2⟩,
      ⟨.symbol .rightBracket, "]", 9⟩, ⟨.endOfInput, "", 10⟩] :=
    eq_ok_of_toOption (by decide +kernel)
  have parsed : parseExpression "$['it\\'s']" ⟨2⟩ =
      .ofExcept (.ok (.scope "." (.key (.literal ⟨.string "it's", "'it\\'s'"⟩)))) := by
    decide +kernel
  obtain ⟨before, after, _, _, whole, -, -, requoted⟩ :=
    (quoting_is_inverted "it's").2.2 _ _ ⟨.string "it's" .single, "'it\\'s'", 2⟩ .single lexed
      (by simp) rfl
  refine ⟨lexed, before, after, whole, fun other => ?_⟩
  obtain ⟨changed, reparsed, alike⟩ := (requoted other).2 _ _ parsed
  exact ⟨changed, reparsed, alike _ rfl⟩

end TemplatedJson
