import TemplatedJson.Token.Quoted

/-!
# How characters are spelled between quotes

A relation says which texts spell which characters inside a string.  The lexer
reads one spelling after the other and never looks past the one it reads, so it
finds the same content whatever follows the closing quote.  What printing
escapes spells the printed character again.
-/

namespace TemplatedJson

/-! ### Hexadecimal digits -/

/-- Four hexadecimal digits and the code unit that they denote. -/
def CodeUnit (digits : List Char) (unit : Nat) : Prop :=
  ∃ values, digits.map hexDigit? = values.map some ∧ values.length = 4 ∧ unit = hexValue values

theorem hexDigits_append {digits : List Char} {values : List Nat}
    (denote : digits.map hexDigit? = values.map some) (rest : List Char) :
    hexDigits values.length (digits ++ rest) = values := by
  induction values generalizing digits with
  | nil => rfl
  | cons value values ih =>
      obtain ⟨digit, digits, rfl, known, others⟩ := List.map_eq_cons_iff.mp denote
      simp [hexDigits, known, ih others]

theorem exists_of_length_hexDigits {count : Nat} {input : List Char}
    (enough : count ≤ (hexDigits count input).length) :
    ∃ digits rest, input = digits ++ rest ∧
      digits.map hexDigit? = (hexDigits count input).map some := by
  induction count generalizing input with
  | zero => exact ⟨[], input, rfl, rfl⟩
  | succ count ih =>
      match input with
      | [] => simp [hexDigits] at enough
      | character :: input =>
          cases known : hexDigit? character with
          | none => simp [hexDigits, known] at enough
          | some value =>
              simp only [hexDigits, known, List.length_cons, Nat.add_le_add_iff_right] at enough
              obtain ⟨digits, rest, rfl, denote⟩ := ih enough
              exact ⟨character :: digits, rest, rfl, by simp [hexDigits, known, denote]⟩

theorem length_hexDigits_le (count : Nat) (input : List Char) :
    (hexDigits count input).length ≤ count := by
  induction count generalizing input with
  | zero => simp [hexDigits]
  | succ count ih =>
      match input with
      | [] => simp [hexDigits]
      | character :: input =>
          cases known : hexDigit? character with
          | none => simp [hexDigits, known]
          | some value => simpa [hexDigits, known] using ih input

theorem hexDigit?_lt {digit : Char} {value : Nat} (known : hexDigit? digit = some value) :
    value < 16 := by
  have le_iff : ∀ {first second : Char}, first ≤ second ↔ first.toNat ≤ second.toNat :=
    fun {_ _} => UInt32.le_iff_toNat_le
  simp only [hexDigit?, Bool.and_eq_true, decide_eq_true_eq, le_iff] at known
  split at known
  · next inRange =>
      have high : digit.toNat ≤ 0x39 := inRange.2
      simp only [Option.some.injEq] at known
      omega
  · split at known
    · next inRange =>
        have high : digit.toNat ≤ 0x66 := inRange.2
        simp only [Option.some.injEq] at known
        omega
    · split at known
      · next inRange =>
          have high : digit.toNat ≤ 0x46 := inRange.2
          simp only [Option.some.injEq] at known
          omega
      · simp at known

theorem CodeUnit.exists_four {digits : List Char} {unit : Nat} (denotes : CodeUnit digits unit) :
    ∃ first second third fourth, digits = [first, second, third, fourth] := by
  obtain ⟨values, denote, length, -⟩ := denotes
  have lengths := congrArg List.length denote
  simp only [List.length_map, length] at lengths
  match digits, lengths with
  | [first, second, third, fourth], _ => exact ⟨first, second, third, fourth, rfl⟩

theorem CodeUnit.lt {digits : List Char} {unit : Nat} (denotes : CodeUnit digits unit) :
    unit < 0x10000 := by
  obtain ⟨first, second, third, fourth, rfl⟩ := denotes.exists_four
  obtain ⟨values, denote, length, rfl⟩ := denotes
  match values, length with
  | [one, two, three, four], _ =>
      simp only [List.map_cons, List.map_nil, List.cons.injEq, and_true] at denote
      obtain ⟨oneKnown, twoKnown, threeKnown, fourKnown⟩ := denote
      have oneBound := hexDigit?_lt oneKnown
      have twoBound := hexDigit?_lt twoKnown
      have threeBound := hexDigit?_lt threeKnown
      have fourBound := hexDigit?_lt fourKnown
      simp only [hexValue, List.foldl_cons, List.foldl_nil]
      omega

theorem CodeUnit.hexDigits {digits : List Char} {unit : Nat} (denotes : CodeUnit digits unit)
    (rest : List Char) :
    (hexDigits 4 (digits ++ rest)).length = 4 ∧ hexValue (hexDigits 4 (digits ++ rest)) = unit := by
  obtain ⟨values, denote, length, rfl⟩ := denotes
  have read := hexDigits_append denote rest
  rw [length] at read
  rw [read]
  exact ⟨length, rfl⟩

theorem codeUnit_of_hexDigits {input : List Char} (enough : ¬ (hexDigits 4 input).length < 4) :
    ∃ digits rest, input = digits ++ rest ∧ digits.length = 4 ∧
      CodeUnit digits (hexValue (hexDigits 4 input)) := by
  have most := length_hexDigits_le 4 input
  obtain ⟨digits, rest, split, denote⟩ := exists_of_length_hexDigits (Nat.not_lt.mp enough)
  have lengths := congrArg List.length denote
  simp only [List.length_map] at lengths
  exact ⟨digits, rest, split, by omega, _, denote, by omega, rfl⟩

theorem toNat_ofNat_of_isValidChar {code : Nat} (valid : code.isValidChar) :
    (Char.ofNat code).toNat = code := by
  unfold Char.ofNat
  rw [dif_pos valid]
  rfl

/-! ### Numeric escapes -/

/-- The code point that a surrogate pair encodes. -/
def pairedCode (high low : Nat) : Nat :=
  0x10000 + (high - 0xD800) * 0x400 + (low - 0xDC00)

/-- Whether two code units form a surrogate pair that encodes a character. -/
def Pairs (high low : Nat) (value : Char) : Prop :=
  isHighSurrogate high ∧ isLowSurrogate low ∧ value.toNat = pairedCode high low

theorem pairedCharacter_eq_iff {high low : Nat} {value : Char} (isHigh : isHighSurrogate high)
    (isLow : isLowSurrogate low) : pairedCharacter high low = value ↔ Pairs high low value := by
  have same : pairedCharacter high low = Char.ofNat (pairedCode high low) := rfl
  have code : (Char.ofNat (pairedCode high low)).toNat = pairedCode high low := by
    apply toNat_ofNat_of_isValidChar
    simp only [isHighSurrogate, isLowSurrogate, Bool.and_eq_true, decide_eq_true_eq] at isHigh isLow
    unfold Nat.isValidChar pairedCode
    omega
  unfold Pairs
  rw [same]
  constructor
  · rintro rfl
    exact ⟨isHigh, isLow, code⟩
  · rintro ⟨-, -, known⟩
    rw [← known, Char.ofNat_toNat]

/-- No character has the code of a surrogate. -/
theorem not_surrogate (value : Char) :
    isHighSurrogate value.toNat = false ∧ isLowSurrogate value.toNat = false := by
  have valid : value.toNat.isValidChar := value.valid
  unfold Nat.isValidChar at valid
  simp only [isHighSurrogate, isLowSurrogate, Bool.and_eq_false_iff, decide_eq_false_iff_not]
  omega

theorem unicodeEscape_of_codeUnit {digits : List Char} {value : Char}
    (denotes : CodeUnit digits value.toNat) (rest : List Char) :
    unicodeEscape (digits ++ rest) = .ok (value, 4) := by
  obtain ⟨length, unit⟩ := denotes.hexDigits rest
  obtain ⟨notHigh, notLow⟩ := not_surrogate value
  unfold unicodeEscape
  simp only [length, unit, notHigh, notLow]
  simp

theorem unicodeEscape_of_pairs {first second : List Char} {high low : Nat} {value : Char}
    (firstDenotes : CodeUnit first high) (secondDenotes : CodeUnit second low)
    (pairs : Pairs high low value) (rest : List Char) :
    unicodeEscape (first ++ '\\' :: 'u' :: (second ++ rest)) = .ok (value, 10) := by
  obtain ⟨firstLength, firstUnit⟩ := firstDenotes.hexDigits ('\\' :: 'u' :: (second ++ rest))
  obtain ⟨secondLength, secondUnit⟩ := secondDenotes.hexDigits rest
  obtain ⟨isHigh, isLow, -⟩ := id pairs
  have notLow : isLowSurrogate high = false := by
    simp only [isHighSurrogate, isLowSurrogate, Bool.and_eq_true, decide_eq_true_eq,
      Bool.and_eq_false_iff, decide_eq_false_iff_not] at isHigh ⊢
    omega
  have dropped : (first ++ '\\' :: 'u' :: (second ++ rest)).drop 4 =
      '\\' :: 'u' :: (second ++ rest) := by
    obtain ⟨_, _, _, _, rfl⟩ := firstDenotes.exists_four
    rfl
  have character := (pairedCharacter_eq_iff isHigh isLow).mpr pairs
  unfold unicodeEscape
  simp only [firstLength, firstUnit, notLow, isHigh, dropped, secondLength, secondUnit, isLow,
    character]
  simp

/-- A numeric escape is one code unit that is no surrogate, or a surrogate
pair. -/
theorem exists_of_unicodeEscape {input : List Char} {value : Char} {width : Nat}
    (read : unicodeEscape input = .ok (value, width)) :
    (∃ digits rest, input = digits ++ rest ∧ width = 4 ∧ CodeUnit digits value.toNat) ∨
      ∃ first second rest high low, input = first ++ '\\' :: 'u' :: (second ++ rest) ∧
        width = 10 ∧ CodeUnit first high ∧ CodeUnit second low ∧ Pairs high low value := by
  unfold unicodeEscape at read
  dsimp only at read
  split at read
  · simp at read
  next enough =>
  split at read
  · simp at read
  next notLow =>
  obtain ⟨digits, rest, split, length, denotes⟩ := codeUnit_of_hexDigits enough
  split at read
  · next notHigh =>
      left
      simp only [Except.ok.injEq, Prod.mk.injEq] at read
      obtain ⟨rfl, rfl⟩ := read
      have bound := denotes.lt
      have code : (Char.ofNat (hexValue (hexDigits 4 input))).toNat =
          hexValue (hexDigits 4 input) := by
        apply toNat_ofNat_of_isValidChar
        simp only [isHighSurrogate, isLowSurrogate, Bool.not_eq_true, Bool.and_eq_false_iff,
          decide_eq_false_iff_not, Bool.not_eq_true'] at notHigh notLow
        unfold Nat.isValidChar
        omega
      exact ⟨digits, rest, split, rfl, by rwa [code]⟩
  · next isHigh =>
      right
      split at read
      · next others dropped =>
          split at read
          · simp at read
          next secondEnough =>
          split at read
          · next isLow =>
              obtain ⟨second, others, rfl, secondLength, secondDenotes⟩ :=
                codeUnit_of_hexDigits secondEnough
              simp only [Except.ok.injEq, Prod.mk.injEq] at read
              obtain ⟨rfl, rfl⟩ := read
              have isHigh : isHighSurrogate (hexValue (hexDigits 4 input)) = true := by
                simpa using isHigh
              have rest_eq : rest = '\\' :: 'u' :: (second ++ others) := by
                rw [← dropped, split, List.drop_left' length]
              exact ⟨digits, second, others, _, _, by rw [← rest_eq]; exact split, rfl, denotes,
                secondDenotes, (pairedCharacter_eq_iff isHigh isLow).mp rfl⟩
          · simp at read
      · simp at read

/-! ### One character -/

/-- Which texts spell a character between quotes of a style. -/
inductive Quote.Spells (quote : Quote) : List Char → Char → Prop where
  | plain {value : Char} :
      value ≠ quote.character → value ≠ '\\' → (quote = .double → ' ' ≤ value) →
        Spells quote [value] value
  | short {mark value : Char} :
      mark ≠ 'u' → quote.shortEscape? mark = some value → Spells quote ['\\', mark] value
  | unit {digits : List Char} {value : Char} :
      CodeUnit digits value.toNat → Spells quote ('\\' :: 'u' :: digits) value
  | pair {first second : List Char} {high low : Nat} {value : Char} :
      CodeUnit first high → CodeUnit second low → Pairs high low value →
        Spells quote ('\\' :: 'u' :: (first ++ '\\' :: 'u' :: second)) value

namespace Quote

variable {quote : Quote}

theorem Spells.spelling {chars : List Char} {value : Char} (spells : quote.Spells chars value)
    (rest : List Char) : quote.spelling (chars ++ rest) = .character value chars.length := by
  cases spells with
  | plain notQuote notBackslash printable =>
      have notControl : ¬ (quote = .double ∧ value < ' ') := by
        rintro ⟨double, control⟩
        exact Char.not_lt.mpr (printable double) control
      simp only [List.cons_append, List.nil_append]
      unfold Quote.spelling
      split
      · simp_all
      · simp_all
      · simp_all
      · simp_all
      · simp_all
  | short notUnicode known =>
      simp only [List.cons_append, List.nil_append]
      unfold Quote.spelling
      simp_all
  | unit denotes =>
      obtain ⟨_, _, _, _, rfl⟩ := denotes.exists_four
      have read := unicodeEscape_of_codeUnit denotes rest
      simp only [List.cons_append, List.nil_append] at read ⊢
      simp [Quote.spelling, read]
  | pair firstDenotes secondDenotes pairs =>
      have read := unicodeEscape_of_pairs firstDenotes secondDenotes pairs rest
      obtain ⟨_, _, _, _, rfl⟩ := firstDenotes.exists_four
      obtain ⟨_, _, _, _, rfl⟩ := secondDenotes.exists_four
      simp only [List.cons_append, List.nil_append] at read ⊢
      simp [Quote.spelling, read]

theorem exists_of_spelling {input : List Char} {value : Char} {width : Nat}
    (read : quote.spelling input = .character value width) :
    ∃ chars rest, input = chars ++ rest ∧ width = chars.length ∧ quote.Spells chars value := by
  unfold Quote.spelling at read
  split at read
  · simp at read
  · simp at read
  · next rest =>
      split at read
      · next found count escaped =>
          simp only [Spelling.character.injEq] at read
          obtain ⟨rfl, rfl⟩ := read
          rcases exists_of_unicodeEscape escaped with
            ⟨digits, others, rfl, rfl, denotes⟩ |
            ⟨first, second, others, high, low, rfl, rfl, firstDenotes, secondDenotes, pairs⟩
          · refine ⟨_, others, rfl, ?_, .unit denotes⟩
            obtain ⟨_, _, _, _, rfl⟩ := denotes.exists_four
            rfl
          · refine ⟨_, others, ?_, ?_, .pair firstDenotes secondDenotes pairs⟩
            · simp
            · obtain ⟨_, _, _, _, rfl⟩ := firstDenotes.exists_four
              obtain ⟨_, _, _, _, rfl⟩ := secondDenotes.exists_four
              rfl
      · simp at read
  · next mark rest notUnicode =>
      split at read
      · next found known =>
          simp only [Spelling.character.injEq] at read
          obtain ⟨rfl, rfl⟩ := read
          exact ⟨['\\', mark], rest, rfl, rfl, .short notUnicode known⟩
      · simp at read
  · next first rest notAlone _ notEscape =>
      split at read
      · simp at read
      next notQuote =>
      split at read
      · simp at read
      next notControl =>
      simp only [Spelling.character.injEq] at read
      obtain ⟨rfl, rfl⟩ := read
      refine ⟨[first], rest, rfl, rfl, .plain notQuote ?_ ?_⟩
      · intro backslash
        cases rest with
        | nil => exact notAlone backslash rfl
        | cons mark others => exact notEscape mark others backslash rfl
      · intro double
        simpa [double] using notControl

/-! ### All characters of a string -/

/-- Which texts spell the whole content of a string. -/
inductive SpellsAll (quote : Quote) : List Char → List Char → Prop where
  | nil : SpellsAll quote [] []
  | cons {first rest : List Char} {value : Char} {values : List Char} :
      quote.Spells first value → SpellsAll quote rest values →
        SpellsAll quote (first ++ rest) (value :: values)

/-- No character is spelled with none. -/
theorem SpellsAll.length_le {chars values : List Char} (spells : quote.SpellsAll chars values) :
    values.length ≤ chars.length := by
  induction spells with
  | nil => exact Nat.le_refl 0
  | @cons first others value values spelling _ ih =>
      have positive : 0 < first.length := by cases spelling <;> simp
      rw [List.length_append, List.length_cons]
      omega

theorem spelling_closing (quote : Quote) (rest : List Char) :
    quote.spelling (quote.character :: rest) = .ending .closed := by
  cases quote <;> cases rest <;> rfl

theorem exists_of_spelling_closed {input : List Char}
    (read : quote.spelling input = .ending .closed) : ∃ rest, input = quote.character :: rest := by
  unfold Quote.spelling at read
  split at read
  · simp at read
  · simp at read
  · split at read <;> simp at read
  · split at read <;> simp at read
  · next first rest _ _ _ =>
      split at read
      · next closes => exact ⟨rest, by rw [closes]⟩
      · split at read <;> simp at read

theorem SpellsAll.content {chars values : List Char} (spells : quote.SpellsAll chars values)
    (rest : List Char) :
    ∃ content, quote.content (chars ++ quote.character :: rest) = (content, .closed) ∧
      content.map Prod.fst = values ∧ contentWidth content = chars.length := by
  induction spells with
  | nil => exact ⟨[], content_of_ending (quote.spelling_closing rest), rfl, rfl⟩
  | @cons first chars value values spells _ ih =>
      obtain ⟨content, read, same, width⟩ := ih
      have step := spells.spelling (chars ++ quote.character :: rest)
      refine ⟨(value, first.length) :: content, ?_, by simp [same], by simp [contentWidth, width]⟩
      rw [List.append_assoc, content_of_character step, List.drop_left, read]

theorem exists_of_content {input : List Char} {content : List (Char × Nat)}
    (read : quote.content input = (content, .closed)) :
    ∃ chars rest, input = chars ++ quote.character :: rest ∧
      contentWidth content = chars.length ∧ quote.SpellsAll chars (content.map Prod.fst) := by
  induction content generalizing input with
  | nil =>
      cases step : quote.spelling input with
      | character value width => simp [content_of_character step] at read
      | ending ending =>
          simp only [content_of_ending step, Prod.mk.injEq, true_and] at read
          subst read
          obtain ⟨rest, rfl⟩ := exists_of_spelling_closed step
          exact ⟨[], rest, rfl, rfl, .nil⟩
  | cons first content ih =>
      cases step : quote.spelling input with
      | ending ending => simp [content_of_ending step] at read
      | character value width =>
          simp only [content_of_character step, Prod.mk.injEq, List.cons.injEq] at read
          obtain ⟨⟨rfl, inside⟩, closed⟩ := read
          obtain ⟨chars, others, rfl, rfl, spells⟩ := exists_of_spelling step
          rw [List.drop_left] at inside closed
          obtain ⟨more, rest, rfl, width, spellsMore⟩ := ih (Prod.ext inside closed)
          refine ⟨chars ++ more, rest, by simp, ?_, .cons spells spellsMore⟩
          simp [contentWidth, width]

end Quote

/-! ### Escaped characters -/

theorem hexDigit?_hexDigitAt (number place : Nat) :
    hexDigit? (Unicode.hexDigitAt number place) = some (number / Nat.pow 16 place % 16) := by
  have digit : ∀ value < 16, hexDigit? (Nat.digitChar value) = some value := by decide
  exact digit _ (Nat.mod_lt _ (by decide))

theorem codeUnit_hexDigitAt {number : Nat} (small : number < 0x10000) :
    CodeUnit [Unicode.hexDigitAt number 3, Unicode.hexDigitAt number 2,
      Unicode.hexDigitAt number 1, Unicode.hexDigitAt number 0] number := by
  refine ⟨[number / 4096 % 16, number / 256 % 16, number / 16 % 16, number / 1 % 16],
    by simp [hexDigit?_hexDigitAt], rfl, ?_⟩
  simp only [hexValue, List.foldl_cons, List.foldl_nil]
  omega

/-- An escaped character spells itself. -/
theorem spells_escapeCharacter (value : Char) :
    Quote.double.Spells (Quoted.escapeCharacter value) value := by
  unfold Quoted.escapeCharacter
  split
  · next same =>
      subst same
      exact .short (by decide) rfl
  split
  · next same =>
      subst same
      exact .short (by decide) rfl
  split
  · next same =>
      subst same
      exact .short (by decide) rfl
  split
  · next same =>
      subst same
      exact .short (by decide) rfl
  split
  · next same =>
      subst same
      exact .short (by decide) rfl
  next notQuote notBackslash _ _ _ =>
  split
  · next control =>
      have small : value.toNat < 0x10000 := by
        simp only [Unicode.isControl, Bool.or_eq_true, Bool.and_eq_true,
          decide_eq_true_eq] at control
        omega
      exact .unit (codeUnit_hexDigitAt small)
  · next notControl =>
      refine .plain notQuote notBackslash fun _ => ?_
      simp only [Unicode.isControl, Bool.or_eq_true, decide_eq_true_eq, not_or] at notControl
      exact UInt32.le_iff_toNat_le.mpr (Nat.not_lt.mp notControl.1)

/-- Where every character is spelled by what is written for it, all characters are. -/
theorem Quote.SpellsAll.flatMap {quote : Quote} {spell : Char → List Char}
    (spells : ∀ value, quote.Spells (spell value) value) (values : List Char) :
    quote.SpellsAll (values.flatMap spell) values := by
  induction values with
  | nil => exact .nil
  | cons value values ih => exact .cons (spells value) ih

/-- What a text is escaped to spells the text. -/
theorem spellsAll_escape (values : List Char) :
    Quote.double.SpellsAll (values.flatMap Quoted.escapeCharacter) values :=
  .flatMap spells_escapeCharacter values

end TemplatedJson
