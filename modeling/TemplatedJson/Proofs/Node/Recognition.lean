import TemplatedJson.Proofs.Node.Completeness
import TemplatedJson.Proofs.Node.Soundness
import TemplatedJson.Proofs.Reading.Ensures
import TemplatedJson.Proofs.Template.Detection

/-!
# Texts that are JSON objects or arrays

The parser accepts a whole text as a value when the grammar does, as long as the
value fits under the limit.  Texts that begin with an opening bracket are
objects or arrays, and a value never nests deeper than its text has characters.
-/

namespace TemplatedJson.JsonText

open Parse

variable {maximum depth levels position : Nat} {cursor after : Cursor} {lexer : Lexer}
  {text chars rest : List Char} {node : Node}

/-! ### The first token -/

def Opens (kind : Token.Kind) : Prop :=
  kind = .symbol .leftBrace ∨ kind = .symbol .leftBracket

theorem ensures_containerWithin {container : Parse Node → Parse Node}
    (inside : ∀ reader, Ensures (container reader) Node.IsContainer) :
    Ensures (containerWithin maximum levels container) Node.IsContainer := by
  cases levels with
  | zero => exact .deeper (.tooDeep maximum)
  | succ levels => exact .deeper (inside _)

/-- What begins with an opening bracket is an object or an array. -/
theorem isContainer_of_opens (opens : Opens cursor.current.kind)
    (run : runAt (valueWithin maximum levels) cursor = (.ok node, after)) : node.IsContainer := by
  have objects : ∀ reader, Ensures (object reader) Node.IsContainer :=
    fun reader => .bind fun _ => .bind fun _ => .pure trivial
  have arrays : ∀ reader, Ensures (array reader) Node.IsContainer :=
    fun reader => .bind fun _ => .bind fun _ => .pure trivial
  rw [valueWithin_eq] at run
  rcases opens with kind | kind
  · simp only [value, runAt_get_bind, kind] at run
    exact ensures_containerWithin objects run
  · simp only [value, runAt_get_bind, kind] at run
    exact ensures_containerWithin arrays run

/-- An object or an array begins with an opening bracket. -/
theorem IsText.opens (isText : IsText text node) (stands : cursor.StandsAt ⟨text, position⟩) :
    Opens cursor.current.kind := by
  obtain ⟨isContainer, spells⟩ := isText
  cases spells with
  | element blankBefore spells blankAfter =>
      cases spells with
      | emptyObject | object =>
          exact .inl (congrArg Token.kind (@Cursor.StandsAt.current_written _ _ ['{'] _ _ _ stands
            blankBefore (.symbol .leftBrace) trivial))
      | emptyArray | array =>
          exact .inr (congrArg Token.kind (@Cursor.StandsAt.current_written _ _ ['['] _ _ _ stands
            blankBefore (.symbol .leftBracket) trivial))
      | _ => exact isContainer.elim

/-! ### Values up to the end of a text -/

/-- A value that extends from an opening bracket to the end of the text is an
object or an array of the grammar, and it fits under the limit. -/
theorem completeValue_spells (stands : cursor.StandsAt lexer) (surface : cursor.depth = 0)
    (opens : Opens cursor.current.kind)
    (run : runAt (completeValue maximum) cursor = (.ok node, after)) :
    node.nesting ≤ maximum ∧ IsText lexer.rest node := by
  unfold completeValue at run
  rw [runAt_get_bind] at run
  obtain ⟨found, middle, read, rest⟩ := runAt_bind_eq_ok.mp run
  obtain ⟨_, ended, rfl⟩ := runAt_bind_pure_eq_ok.mp rest
  obtain ⟨atEnd, -⟩ := runAt_expectEnd_eq_ok.mp ended
  rw [surface] at read
  obtain ⟨body, last, split, standsLast, -, fits⟩ :=
    valueWithin_consumes (Nat.zero_add maximum) stands surface read
  obtain ⟨_, readEnd⟩ := standsLast.next
  obtain ⟨low, spells⟩ := fits last.rest (Lexer.blanks_of_next_end readEnd atEnd)
  rw [split]
  exact ⟨low, isContainer_of_opens opens read, spells⟩

/-- A text of the grammar leads to its value, unless the value exceeds the
limit. -/
theorem Spells.completeValue (spells : Spells (.element node) text)
    (stands : cursor.StandsAt ⟨text, position⟩) (surface : cursor.depth = 0) :
    ∃ after, LeadsTo (maximum < node.nesting) maximum (runAt (completeValue maximum) cursor)
      (.ok node, after) := by
  have reads : Reads maximum 0 maximum (.element node) text := spells.reads (Nat.zero_add maximum)
  have faces : cursor.Faces (text ++ []) := ⟨[], position, blanks_nil, by simpa using stands⟩
  obtain ⟨after, ⟨blanks, last, blankLast, standsLast⟩, -, -, leads⟩ :=
    reads faces (closes_of_blanks blanks_nil) surface
  have ended : after.current.kind = .endOfInput := by
    obtain ⟨_, readEnd⟩ := standsLast.next
    rw [Lexer.next_of_blanks (by simpa using blankLast)] at readEnd
    simp only [Prod.mk.injEq, Except.ok.injEq] at readEnd
    rw [← readEnd.1]
  refine ⟨after, ?_⟩
  unfold Parse.completeValue
  rw [runAt_get_bind, surface]
  refine leads.bind.trans (.of_eq ?_)
  have atEnd : runAt expectEnd after = (.ok ⟨⟩, after) :=
    runAt_expectEnd_eq_ok.mpr ⟨ended, standsLast.following?_of_end ended⟩
  rw [runAt_bind_of_ok atEnd, runAt_pure]

/-! ### How deep a text nests -/

def Phrase.nesting : Phrase → Nat
  | .value node | .element node => node.nesting
  | .member property => property.value.nesting
  | .elements nodes => Node.nestingOfElements nodes
  | .members properties => Node.nestingOfMembers properties

theorem Character.length_pos {value : Char} (spells : Character chars value) :
    0 < chars.length := by
  cases spells <;> simp

/-- No string has more characters than its spelling. -/
theorem Content.length_le {values : List Char} (content : Content chars values) :
    values.length ≤ chars.length := by
  induction content with
  | nil => simp
  | cons first _ ih =>
      have positive := first.length_pos
      simp only [List.length_append, List.length_cons]
      omega

theorem IsString.length_le {content : String} (isString : IsString chars content) :
    content.length ≤ chars.length := by
  obtain ⟨inside, rfl, spells⟩ := isString
  have fewer := spells.length_le
  simp only [List.length_cons, List.length_append, String.length_toList] at fewer ⊢
  omega

end TemplatedJson.JsonText

namespace TemplatedJson

/-- What a template holds is no longer than the content of its string. -/
theorem Template.length_source_le {content : String} {embedded : Template.Embedded}
    (found : Template.detect? content = some embedded) :
    embedded.source.length ≤ content.length := by
  obtain ⟨before, rest, split, -, -⟩ := Template.exists_of_detect? found
  have lengths := congrArg List.length split
  simp only [List.length_append, String.length_toList] at lengths
  omega

/-- A tree never has more levels than its text has characters. -/
theorem Expr.Spells.height_le {text : String} {tree : Expr} (spells : Expr.Spells text tree) :
    tree.height ≤ text.length := by
  obtain ⟨tokens, final, lexed, derivation⟩ := spells
  obtain ⟨last, yields, -⟩ := exists_tokenize_iff.mp ⟨final, lexed⟩
  have height := derivation.height_le_length
  have count := yields.length_le
  have length : (Lexer.ofText text).rest.length = text.length := String.length_toList
  omega

namespace JsonText

variable {chars : List Char}

/-- A phrase never nests deeper than its text has characters. -/
theorem Spells.nesting_le {phrase : Phrase} (spells : Spells phrase chars) :
    phrase.nesting ≤ chars.length := by
  induction spells with
  | true | false | null | number | string => exact Nat.zero_le _
  | template isString found accepted =>
      have height := (parseExpression_eq_ok_iff.mp accepted).1.height_le
      have source := Template.length_source_le found
      have content := isString.length_le
      simp only [Phrase.nesting, Node.nesting]
      omega
  | emptyObject | emptyArray =>
      simp [Phrase.nesting, Node.nesting, Node.nestingOfMembers, Node.nestingOfElements]
  | object _ ih | array _ ih =>
      simp only [Phrase.nesting, Node.nesting, List.length_cons, List.length_append] at ih ⊢
      omega
  | element _ _ _ ih | member _ _ _ _ ih =>
      simp only [Phrase.nesting, List.length_cons, List.length_append] at ih ⊢
      omega
  | lastElement _ ih | lastMember _ ih =>
      simpa [Phrase.nesting, Node.nestingOfElements, Node.nestingOfMembers] using ih
  | nextElement _ _ ih ihMore | nextMember _ _ ih ihMore =>
      simp only [Phrase.nesting, Node.nestingOfElements, Node.nestingOfMembers, List.length_cons,
        List.length_append] at ih ihMore ⊢
      omega

end JsonText

end TemplatedJson
