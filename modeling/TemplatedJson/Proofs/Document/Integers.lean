import TemplatedJson.Proofs.Document.Recognition
import TemplatedJson.Proofs.Layout.Readable
import TemplatedJson.Proofs.Node.Literals
import TemplatedJson.Proofs.Number.Integers

/-!
# Integers of documents

Each number of a tree is an integer exactly if an integer in range is written where the
number was read.  In an expression this place is a token, which never has a sign.  In a
JSON value it is a stretch of the text between characters that belong to no number, so
that the minus sign is included.
-/

namespace TemplatedJson

open Layout (isWordPart Bounded)
open Number (Denotes InRange)

variable {text chars before after blanks : List Char} {leaf : Literal}

/-! ### Where numbers are written -/

/-- Whether a literal that is a number is written in some place, and is an integer
exactly if its text denotes one in range. -/
def Literal.ReadAt (place : String → Prop) (literal : Literal) : Prop :=
  ∀ number, literal.value = .number number →
    place literal.raw ∧
      ∀ value, number = .integer value ↔ Denotes literal.raw.toList value ∧ InRange value

theorem Literal.Exact.readAt {place : String → Prop} (exact : leaf.Exact)
    (written : ∀ number, leaf.value = .number number → place leaf.raw) : leaf.ReadAt place := by
  intro number same
  refine ⟨written number same, fun value => ?_⟩
  rw [← Number.ofText?_eq_integer_iff, exact number same, Option.some.injEq]

/-- Whether the numbers of an expression are read from the tokens of a text. -/
def Expr.ReadsNumbers (text : String) (tree : Expr) : Prop :=
  ∃ tokens, tokenize text = .ok tokens ∧ ∀ leaf ∈ tree.literals,
    leaf.ReadAt fun raw => ∃ token ∈ tokens, token.kind = .number ∧ token.raw = raw

theorem Grammar.number_of_literal? {token : Token} {number : Number}
    (found : literal? token = some leaf) (same : leaf.value = .number number) :
    token.kind = .number ∧ token.raw = leaf.raw := by
  unfold literal? at found
  split at found
  · next kind =>
      obtain ⟨_, -, rfl⟩ := Option.map_eq_some_iff.mp found
      exact ⟨kind, rfl⟩
  all_goals
    cases found
    try cases same

theorem Expr.Spells.readsNumbers {text : String} {tree : Expr} (spells : tree.Spells text) :
    tree.ReadsNumbers text := by
  obtain ⟨tokens, final, lexed, derivation⟩ := spells
  refine ⟨_, lexed, fun leaf member => (derivation.exact leaf member).readAt ?_⟩
  intro number same
  obtain ⟨token, among, found⟩ := derivation.comeFrom leaf member
  exact ⟨token, List.mem_append_left _ among, Grammar.number_of_literal? found same⟩

/-- Whether a text ends with what is part of no number. -/
def Detached (before : List Char) : Prop :=
  ∀ last ∈ before.getLast?, isWordPart last = false

/-- Whether a number stands in a text, with no part of a number before or behind it. -/
def StandsAlone (text : List Char) (raw : String) : Prop :=
  ∃ before after, text = before ++ (raw.toList ++ after) ∧ Detached before ∧ Bounded after

/-- Whether an expression is read from what a string in a text holds. -/
def HeldBy (text : List Char) (tree : Expr) : Prop :=
  ∃ before raw after content embedded, text = before ++ (raw ++ after) ∧
    JsonText.IsString raw content ∧ Template.detect? content = some embedded ∧
      tree.ReadsNumbers embedded.source

/-- Whether the numbers of a value are read from a text, and from its strings. -/
def Node.ReadsNumbers (text : List Char) (node : Node) : Prop :=
  node.EachLeaf (Literal.ReadAt (StandsAlone text)) (HeldBy text)

/-! ### JSON texts -/

theorem not_isWordPart_of_blank (blank : Blanks blanks) :
    ∀ one ∈ blanks, isWordPart one = false := by
  intro one member
  have isBlank := blank one member
  simp only [Unicode.isJsonBlank, Bool.or_eq_true, decide_eq_true_eq] at isBlank
  rcases isBlank with ((rfl | rfl) | rfl) | rfl <;> decide

theorem Detached.append_blanks (detached : Detached before) (blank : Blanks blanks) :
    Detached (before ++ blanks) := by
  intro last found
  rw [List.getLast?_append] at found
  cases ending : blanks.getLast? with
  | none => exact detached last (by simpa [ending] using found)
  | some blank' =>
      simp only [ending, Option.some_or, Option.mem_def, Option.some.injEq] at found
      exact not_isWordPart_of_blank blank last (found ▸ List.mem_of_getLast? ending)

theorem detached_append_singleton {one : Char} (notPart : isWordPart one = false)
    (before : List Char) : Detached (before ++ [one]) := by
  simpa [Detached] using notPart

theorem bounded_append_blanks (bounded : Bounded after) (blank : Blanks blanks) :
    Bounded (blanks ++ after) := by
  cases blanks with
  | nil => exact bounded
  | cons first others =>
      simpa [Bounded] using not_isWordPart_of_blank blank first List.mem_cons_self

theorem bounded_cons {one : Char} (notPart : isWordPart one = false) (after : List Char) :
    Bounded (one :: after) := by
  simpa [Bounded] using notPart

theorem JsonText.Spells.readsNumbers {phrase : Phrase} (spells : Spells phrase chars)
    (detached : Detached before) (bounded : Bounded after)
    (place : text = before ++ (chars ++ after)) :
    ∀ node ∈ phrase.nodes, node.ReadsNumbers text := by
  have braces : isWordPart '{' = Bool.false ∧ isWordPart '}' = Bool.false := by decide
  have brackets : isWordPart '[' = Bool.false ∧ isWordPart ']' = Bool.false := by decide
  have marks : isWordPart ',' = Bool.false ∧ isWordPart ':' = Bool.false := by decide
  induction spells generalizing before after with
  | true | false | null | string =>
      simp only [Phrase.nodes, List.mem_singleton, forall_eq]
      exact .literal fun _ same => by cases same
  | number isNumber known =>
      simp only [Phrase.nodes, List.mem_singleton, forall_eq]
      have exact := (Spells.number isNumber known).exact _ List.mem_cons_self
      cases exact with
      | literal exact =>
          refine .literal (exact.readAt fun _ _ => ⟨before, after, ?_, detached, bounded⟩)
          rwa [String.toList_ofList]
  | template isString found parsed =>
      simp only [Phrase.nodes, List.mem_singleton, forall_eq]
      exact .template ⟨before, _, after, _, _, place, isString, found,
        (parseExpression_eq_ok_iff.mp parsed).1.readsNumbers⟩
  | emptyObject =>
      simp only [Phrase.nodes, List.mem_singleton, forall_eq]
      exact .object (List.forall_mem_nil _)
  | emptyArray =>
      simp only [Phrase.nodes, List.mem_singleton, forall_eq]
      exact .array (List.forall_mem_nil _)
  | object _ ih =>
      simp only [Phrase.nodes, List.mem_singleton, forall_eq]
      have inside := ih (detached_append_singleton braces.1 before) (bounded_cons braces.2 after)
        (by simpa using place)
      exact .object (List.forall_mem_map.mp inside)
  | array _ ih =>
      simp only [Phrase.nodes, List.mem_singleton, forall_eq]
      have inside := ih (detached_append_singleton brackets.1 before)
        (bounded_cons brackets.2 after) (by simpa using place)
      exact .array inside
  | element blankBefore _ blankAfter ih =>
      exact ih (detached.append_blanks blankBefore) (bounded_append_blanks bounded blankAfter)
        (by simpa using place)
  | @member _ _ gap name more _ _ _ _ _ ih =>
      exact ih (detached_append_singleton marks.2 (before ++ (gap ++ (name ++ more)))) bounded
        (by simpa using place)
  | lastElement _ ih | lastMember _ ih => exact ih detached bounded place
  | @nextElement _ _ first more _ _ ih ihMore | @nextMember _ _ first more _ _ ih ihMore =>
      have head := ih detached (bounded_cons marks.1 (more ++ after)) (by simpa using place)
      have tail := ihMore (detached_append_singleton marks.1 (before ++ first)) bounded
        (by simpa using place)
      exact List.forall_mem_cons.mpr ⟨head _ List.mem_cons_self, tail⟩

/-- Whether the numbers of a document are read from a text. -/
def Document.ReadsNumbers (text : String) : Document → Prop
  | json value => value.ReadsNumbers text.toList
  | expression single => single.ReadsNumbers text

theorem Document.Spells.readsNumbers {document : Document} {text : String}
    (spells : document.Spells text) : document.ReadsNumbers text := by
  cases document with
  | json node =>
      obtain ⟨-, element⟩ := spells
      have begins : Detached [] := by simp [Detached]
      have ends : Bounded [] := by simp [Bounded]
      exact JsonText.Spells.readsNumbers element begins ends (by simp) node List.mem_cons_self
  | expression tree => exact Expr.Spells.readsNumbers spells

/-! ### Numbers -/

/-- What is read from a text that denotes no integer in range is a float, if it is
anything. -/
theorem Literal.float_of_number? {raw : String} (noInteger : ∀ value, ¬ (Denotes raw.toList value ∧
    InRange value)) (found : Literal.number? raw = some leaf) :
    ∃ float, leaf = ⟨.number (.float float), raw⟩ := by
  obtain ⟨number, known, rfl⟩ := Option.map_eq_some_iff.mp found
  cases number with
  | integer value => exact absurd (Number.ofText?_eq_integer_iff.mp known) (noInteger value)
  | float float => exact ⟨float, rfl⟩

/-- Texts of an optional sign and digits are read as the integers that they denote, as
long as a signed or an unsigned word of 64 bits holds them.  All other texts are read as
floats if they are read at all, and so are all texts with a point or an exponent.  This
is what arithmetic of words gives that checks every digit for overflow.

So the integers of a tree are those that are written where its numbers were read, and no
integer in range is read as another number. -/
theorem integers_are_exact :
    (∀ (raw : String) (value : Int), Denotes raw.toList value →
      (InRange value → Literal.number? raw = some ⟨.number (.integer value), raw⟩) ∧
      (¬ InRange value → ∀ literal, Literal.number? raw = some literal →
        ∃ float, literal = ⟨.number (.float float), raw⟩)) ∧
    (∀ raw : String, '.' ∈ raw.toList ∨ 'e' ∈ raw.toList ∨ 'E' ∈ raw.toList →
      ∀ literal, Literal.number? raw = some literal →
        ∃ float, literal = ⟨.number (.float float), raw⟩) ∧
    (∀ raw : String, Number.ofText? raw =
      match Number.unsigned? raw.toList with
      | some value => some (.integer value)
      | none =>
          match Number.signed? raw.toList with
          | some value => some (.integer value)
          | none => Number.float? raw.toList) ∧
    (∀ (text : String) (options : ParseOptions) (tree : Expr),
      parseExpression text options = .ofExcept (.ok tree) → tree.ReadsNumbers text) ∧
    ∀ (text : String) (options : ParseOptions) (document : Document),
      parseDocument text options = .ofExcept (.ok document) → document.ReadsNumbers text := by
  refine ⟨?_, ?_, Number.ofText?_eq_words, ?_, ?_⟩
  · intro raw value denotes
    constructor
    · intro inRange
      have known := Number.ofText?_eq_integer_iff.mpr ⟨denotes, inRange⟩
      rw [Literal.number?, known, Option.map_some]
    · intro outOfRange literal found
      refine Literal.float_of_number? ?_ found
      rintro other ⟨denotesOther, inRange⟩
      exact outOfRange (denotes.unique denotesOther ▸ inRange)
  · intro raw marked literal found
    refine Literal.float_of_number? ?_ found
    rintro value ⟨denotes, -⟩
    rcases marked with point | exponent | exponent
    · exact absurd (denotes.parts _ point) (by decide)
    · exact absurd (denotes.parts _ exponent) (by decide)
    · exact absurd (denotes.parts _ exponent) (by decide)
  · exact fun text options tree parsed => (parseExpression_eq_ok_iff.mp parsed).1.readsNumbers
  · exact fun text options document parsed => (parseDocument_eq_ok_iff.mp parsed).1.readsNumbers

/-- The greatest unsigned word with zeros before it, the number behind it, the least
signed word in a document, and an exponent. -/
theorem integers_at_the_limits :
    Literal.number? "+0018446744073709551615" =
        some ⟨.number (.integer 18446744073709551615), "+0018446744073709551615"⟩ ∧
      (∃ float, Literal.number? "18446744073709551616" =
        some ⟨.number (.float float), "18446744073709551616"⟩) ∧
      (∃ float, Literal.number? "1e3" = some ⟨.number (.float float), "1e3"⟩) ∧
      parseDocument "[-9223372036854775808]" ⟨1⟩ = .ofExcept (.ok (.json (.array
        [.literal ⟨.number (.integer (-9223372036854775808)), "-9223372036854775808"⟩]))) ∧
      Node.ReadsNumbers "[-9223372036854775808]".toList (.array
        [.literal ⟨.number (.integer (-9223372036854775808)), "-9223372036854775808"⟩]) := by
  obtain ⟨integers, marked, -, -, documents⟩ := integers_are_exact
  have greatest : Denotes "+0018446744073709551615".toList 18446744073709551615 :=
    Number.integer?_eq_some_iff.mp (by decide +kernel)
  have behind : Denotes "18446744073709551616".toList 18446744073709551616 :=
    Number.integer?_eq_some_iff.mp (by decide +kernel)
  have readBehind : (Literal.number? "18446744073709551616").isSome := by decide +kernel
  have readExponent : (Literal.number? "1e3").isSome := by decide +kernel
  obtain ⟨float, foundFloat⟩ := Option.isSome_iff_exists.mp readBehind
  obtain ⟨power, foundPower⟩ := Option.isSome_iff_exists.mp readExponent
  have parsed : parseDocument "[-9223372036854775808]" ⟨1⟩ = .ofExcept (.ok (.json (.array
      [.literal ⟨.number (.integer (-9223372036854775808)), "-9223372036854775808"⟩]))) := by
    decide +kernel
  refine ⟨?_, ?_, ?_, parsed, documents _ _ _ parsed⟩
  · exact (integers _ _ greatest).1 (Number.isExact_iff.mp (by decide))
  · have outOfRange : ¬ InRange 18446744073709551616 := by
      rw [← Number.isExact_iff]
      decide
    obtain ⟨value, rfl⟩ := (integers _ _ behind).2 outOfRange _ foundFloat
    exact ⟨value, foundFloat⟩
  · obtain ⟨value, rfl⟩ := marked _ (.inr (.inl (by decide))) _ foundPower
    exact ⟨value, foundPower⟩

end TemplatedJson
