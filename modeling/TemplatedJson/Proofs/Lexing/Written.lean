import TemplatedJson.Proofs.Lexing.Number
import TemplatedJson.Proofs.Lexing.Spelling

/-!
# The texts of tokens

For every kind of token a relation says which texts are written for it.  The
lexer finds nothing but such texts at the start of its input.  It also finds
all of a given one, unless what follows would continue the token.
-/

namespace TemplatedJson.Scan

variable {kind : Token.Kind} {chars rest input : List Char}

/-- Whether a text is written for a token of the given kind. -/
inductive Written : Token.Kind → List Char → Prop where
  | symbol (symbol : Symbol) : Written (.symbol symbol) symbol.text.toList
  | word {first : Char} {others : List Char} :
      isNameStart first → (∀ part ∈ others, isNamePart part) →
        Written (.ofWord (String.ofList (first :: others))) (first :: others)
  | scope {first : Char} {others : List Char} :
      isNameStart first → (∀ part ∈ others, isNamePart part) →
        Written (.scope (String.ofList (first :: others))) ('$' :: first :: others)
  | number {chars : List Char} : Unsigned chars → Written .number chars
  | string {quote : Quote} {chars values : List Char} :
      quote.SpellsAll chars values →
        Written (.string (String.ofList values) quote)
          (quote.character :: (chars ++ [quote.character]))

/-- Whether a text begins with a character that begins names. -/
def BeginsName (chars : List Char) : Prop :=
  ∃ first others, chars = first :: others ∧ isNameStart first

/-- What the text of a token tells about its kind, and its kind about the
text. -/
def Spelled : Token.Kind → List Char → Prop
  | .symbol symbol, chars => chars = symbol.text.toList
  | .boolean true, chars => chars = "true".toList
  | .boolean false, chars => chars = "false".toList
  | .null, chars => chars = "null".toList ∨ chars = "nil".toList
  | .identifier name, chars => chars = name.toList ∧ BeginsName name.toList
  | .scope name, chars => chars = '$' :: name.toList ∧ BeginsName name.toList
  | .number, chars => Unsigned chars
  | .string content quote, chars =>
      ∃ inside, chars = quote.character :: (inside ++ [quote.character]) ∧
        quote.SpellsAll inside content.toList
  | .endOfInput, _ => False

theorem spelled_ofWord (word : String) (begins : BeginsName word.toList) :
    Spelled (Token.Kind.ofWord word) word.toList := by
  unfold Token.Kind.ofWord
  split
  · next same => simp [Spelled, same]
  split
  · next same => simp [Spelled, same]
  split
  · next same =>
      simp only [Bool.or_eq_true, decide_eq_true_eq] at same
      rcases same with rfl | rfl <;> simp [Spelled]
  · exact ⟨rfl, begins⟩

theorem Written.spelled (written : Written kind chars) : Spelled kind chars := by
  cases written with
  | symbol symbol => rfl
  | @word first others starts parts =>
      have spelled := spelled_ofWord (String.ofList (first :: others))
      rw [String.toList_ofList] at spelled
      exact spelled ⟨first, others, rfl, starts⟩
  | scope starts parts =>
      refine ⟨by rw [String.toList_ofList], ?_⟩
      rw [String.toList_ofList]
      exact ⟨_, _, rfl, starts⟩
  | number unsigned => exact unsigned
  | string spells => exact ⟨_, rfl, by rwa [String.toList_ofList]⟩

/-- Whether a token of the given kind ends before the given text. -/
def EndsBefore : Token.Kind → List Char → Prop
  | .string _ _, _ => True
  | .symbol .dollar, rest => ∀ next ∈ rest.head?, isNameStart next = false
  | .symbol .exclamation, rest | .symbol .less, rest | .symbol .greater, rest =>
      rest.head? ≠ some '='
  | .symbol _, _ => True
  | _, rest => Stops rest

theorem Written.length_pos (written : Written kind chars) : 0 < chars.length := by
  cases written with
  | symbol symbol => exact String.length_toList ▸ symbol.text_length_pos
  | word | scope | string => simp
  | number unsigned =>
      obtain ⟨whole, _, _, rfl, ⟨nonempty, -⟩, -, -⟩ := unsigned
      have positive := List.length_pos_iff.mpr nonempty
      simp only [List.length_append]
      omega

theorem Written.ne_endOfInput (written : Written kind chars) : kind ≠ .endOfInput := by
  cases written with
  | word => exact Token.Kind.ofWord_ne_endOfInput _
  | _ => simp

/-! ### Symbols -/

theorem scan?_text {symbol : Symbol} (ends : EndsBefore (.symbol symbol) rest) :
    Symbol.scan? (symbol.text.toList ++ rest) = some symbol := by
  cases symbol
  case exclamation | less | greater =>
    cases rest with
    | nil => rfl
    | cons next others =>
        have notEqual : next ≠ '=' := by simpa [EndsBefore] using ends
        simp [Symbol.text, Symbol.scan?, notEqual]
  all_goals rfl

theorem exists_of_scan? {symbol : Symbol} (found : Symbol.scan? input = some symbol) :
    ∃ rest, input = symbol.text.toList ++ rest := by
  unfold Symbol.scan? at found
  split at found
  case h_26 => simp at found
  all_goals
    simp only [Option.some.injEq] at found
    subst found
    exact ⟨_, rfl⟩

/-! ### What begins a token -/

theorem ofCharacter?_character (quote : Quote) :
    Quote.ofCharacter? quote.character = some quote := by
  cases quote <;> rfl

theorem eq_character_of_ofCharacter? {first : Char} {quote : Quote}
    (opens : Quote.ofCharacter? first = some quote) : first = quote.character := by
  unfold Quote.ofCharacter? at opens
  split at opens
  · simp_all
  · split at opens
    · simp_all
    · split at opens <;> simp_all

theorem not_begins_of_isNameStart {first : Char} (starts : isNameStart first) :
    Quote.ofCharacter? first = none ∧ first ≠ '$' := by
  constructor
  · cases opens : Quote.ofCharacter? first with
    | none => rfl
    | some quote =>
        obtain rfl := eq_character_of_ofCharacter? opens
        cases quote <;> revert starts <;> decide
  · rintro rfl
    revert starts
    decide

theorem not_begins_of_isDigit {first : Char} (digit : first.isDigit) :
    Quote.ofCharacter? first = none ∧ first ≠ '$' ∧ isNameStart first = false := by
  have checked : ∀ code < 0x3A, 0x30 ≤ code → Quote.ofCharacter? (Char.ofNat code) = none ∧
      Char.ofNat code ≠ '$' ∧ isNameStart (Char.ofNat code) = false := by
    decide
  have bounds := Char.isDigit_iff_toNat.mp digit
  have found := checked first.toNat (Nat.lt_succ_of_le bounds.2) bounds.1
  rwa [Char.ofNat_toNat] at found

/-- Only the dollar sign among the symbols shares its first character with other
tokens. -/
theorem text_begins {symbol : Symbol} (notDollar : symbol ≠ .dollar) :
    ∃ first others, symbol.text.toList = first :: others ∧ Quote.ofCharacter? first = none ∧
      first ≠ '$' ∧ isNameStart first = false ∧ first.isDigit = false := by
  cases symbol
  case dollar => exact absurd rfl notDollar
  all_goals exact ⟨_, _, rfl, by decide, by decide, by decide, by decide⟩

/-! ### Scanning written tokens -/

theorem name_append {first : Char} {others : List Char} (starts : isNameStart first)
    (parts : ∀ part ∈ others, isNamePart part) (stops : Stops rest) :
    name (first :: (others ++ rest)) = first :: others := by
  have all : ∀ part ∈ first :: others, isNamePart part :=
    List.forall_mem_cons.mpr ⟨isNamePart_of_isNameStart starts, parts⟩
  exact takeWhile_append_of_stop all stops.1

theorem token_symbol {symbol : Symbol} (ends : EndsBefore (.symbol symbol) rest) :
    token (symbol.text.toList ++ rest) = .ok (.symbol symbol, symbol.text.toList.length) := by
  have found := scan?_text ends
  by_cases isDollar : symbol = .dollar
  · subst isDollar
    cases rest with
    | nil => rfl
    | cons next others =>
        have notName : isNameStart next = false := ends next rfl
        simp [Symbol.text, token, Quote.ofCharacter?, Quote.character, dollar, notName]
  · obtain ⟨first, others, text, notQuote, notDollar, notName, notDigit⟩ := text_begins isDollar
    have width : symbol.text.length = (first :: others).length := by
      rw [← text, String.length_toList]
    rw [text] at found ⊢
    simp only [List.cons_append] at found ⊢
    simp [token, notQuote, notDollar, notName, notDigit, found, width]

theorem endsBefore_ofWord_iff {word : String} :
    EndsBefore (Token.Kind.ofWord word) rest ↔ Stops rest := by
  unfold Token.Kind.ofWord
  split
  · rfl
  · split
    · rfl
    · split <;> rfl

theorem string_append {quote : Quote} {values : List Char} (spells : quote.SpellsAll chars values) :
    string quote (chars ++ quote.character :: rest) =
      .ok (.string (String.ofList values) quote, chars.length + 2) := by
  obtain ⟨content, read, same, width⟩ := spells.content rest
  simp [string, read, same, width]

/-- A written token is scanned, whatever follows its end. -/
theorem Written.token (written : Written kind chars) (ends : EndsBefore kind rest) :
    token (chars ++ rest) = .ok (kind, chars.length) := by
  cases written with
  | symbol symbol => exact token_symbol ends
  | @word first others starts parts =>
      obtain ⟨notQuote, notDollar⟩ := not_begins_of_isNameStart starts
      have read := name_append starts parts (endsBefore_ofWord_iff.mp ends)
      simp [Scan.token, notQuote, notDollar, starts, read]
  | @scope first others starts parts =>
      have read := name_append starts parts ends
      simp [Scan.token, Quote.ofCharacter?, Quote.character, dollar, starts, read]
  | number unsigned =>
      have width := numberWidth_append unsigned ends
      obtain ⟨whole, fraction, exponent, rfl, ⟨nonempty, digits⟩, -, -⟩ := unsigned
      match whole, nonempty with
      | first :: others, _ =>
          have digit := digits first (by simp)
          obtain ⟨notQuote, notDollar, notName⟩ := not_begins_of_isDigit digit
          simp only [List.cons_append] at width ⊢
          simp only [Scan.token, notQuote, notDollar, notName, digit, width]
          simp
  | @string quote chars values spells =>
      have read := @string_append _ rest _ _ spells
      simp [Scan.token, ofCharacter?_character, read]

/-- A width that a scanner answers covers the spelling of a kind of token. -/
def Covers (input : List Char) (kind : Token.Kind) (width : Nat) : Prop :=
  ∃ chars rest, input = chars ++ rest ∧ width = chars.length ∧ Written kind chars

theorem exists_of_name {first : Char} (others : List Char) (starts : isNameStart first) :
    ∃ parts rest, others = parts ++ rest ∧ name (first :: others) = first :: parts ∧
      ∀ part ∈ parts, isNamePart part := by
  refine ⟨others.takeWhile isNamePart, others.dropWhile isNamePart,
    List.takeWhile_append_dropWhile.symm, ?_, List.all_eq_true.mp List.all_takeWhile⟩
  simp [name, isNamePart_of_isNameStart starts]

theorem covers_of_string {quote : Quote} {inside : List Char} {width : Nat}
    (scanned : string quote inside = .ok (kind, width)) :
    Covers (quote.character :: inside) kind width := by
  unfold string at scanned
  dsimp only at scanned
  split at scanned
  · next closed =>
      obtain ⟨chars, rest, rfl, spelledWidth, spells⟩ :=
        Quote.exists_of_content (Prod.ext rfl closed)
      simp only [Except.ok.injEq, Prod.mk.injEq] at scanned
      obtain ⟨rfl, rfl⟩ := scanned
      exact ⟨_, rest, by simp, by simp [spelledWidth], .string spells⟩
  all_goals simp at scanned

theorem covers_of_dollar {others : List Char} {width : Nat}
    (scanned : dollar others = (kind, width)) : Covers ('$' :: others) kind width := by
  unfold dollar at scanned
  split at scanned
  · next start more =>
      split at scanned
      · next starts =>
          obtain ⟨parts, rest, rfl, read, all⟩ := exists_of_name more starts
          simp only [read, Prod.mk.injEq] at scanned
          obtain ⟨rfl, rfl⟩ := scanned
          exact ⟨_, rest, by simp, by simp, .scope starts all⟩
      · obtain ⟨rfl, rfl⟩ := Prod.mk.inj scanned
        exact ⟨['$'], _, rfl, rfl, .symbol .dollar⟩
  · obtain ⟨rfl, rfl⟩ := Prod.mk.inj scanned
    exact ⟨['$'], [], rfl, rfl, .symbol .dollar⟩

/-- What is scanned at the start of a text is written there. -/
theorem covers_of_token {width : Nat} (scanned : Scan.token input = .ok (kind, width))
    (notEnd : kind ≠ .endOfInput) : Covers input kind width := by
  cases input with
  | nil =>
      simp only [Scan.token, Except.ok.injEq, Prod.mk.injEq] at scanned
      exact absurd scanned.1.symm notEnd
  | cons first others =>
      -- The cases come in the order in which the scanner tries them.
      unfold Scan.token at scanned
      dsimp only at scanned
      split at scanned
      · next quote opens =>
          rw [eq_character_of_ofCharacter? opens]
          exact covers_of_string scanned
      split at scanned
      · next isDollar =>
          rw [isDollar]
          exact covers_of_dollar (Except.ok.inj scanned)
      split at scanned
      · next starts =>
          obtain ⟨parts, rest, rfl, read, all⟩ := exists_of_name others starts
          simp only [read, Except.ok.injEq, Prod.mk.injEq] at scanned
          obtain ⟨rfl, rfl⟩ := scanned
          exact ⟨_, rest, by simp, rfl, .word starts all⟩
      split at scanned
      · next digit =>
          obtain ⟨chars, rest, text, length, unsigned⟩ := unsigned_of_numberWidth digit others
          simp only [Except.ok.injEq, Prod.mk.injEq] at scanned
          obtain ⟨rfl, rfl⟩ := scanned
          exact ⟨chars, rest, text, length.symm, .number unsigned⟩
      split at scanned
      · next symbol found =>
          obtain ⟨rest, text⟩ := exists_of_scan? found
          simp only [Except.ok.injEq, Prod.mk.injEq] at scanned
          obtain ⟨rfl, rfl⟩ := scanned
          exact ⟨_, rest, text, String.length_toList.symm, .symbol symbol⟩
      · simp at scanned

end TemplatedJson.Scan
