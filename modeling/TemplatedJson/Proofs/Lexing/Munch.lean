import TemplatedJson.Proofs.Lexing.Lexes

/-!
# The longest token

Several prefixes of a text may be written for tokens, and the lexer takes the longest
of them.  Where one prefix is written for a token, some token is found.  So a blank or a
quote that is put behind a token, or anywhere later, leaves the token as it is: except in
strings, which know their own end, no text of a token goes on behind such a character.
-/

namespace TemplatedJson.Scan

variable {kind found other : Token.Kind} {chars rest longer input : List Char} {width : Nat}

/-! ### Numbers -/

theorem le_length_takeWhile {holds : Char → Bool} (all : ∀ one ∈ chars, holds one)
    (rest : List Char) : chars.length ≤ ((chars ++ rest).takeWhile holds).length := by
  rw [List.takeWhile_append_of_pos all, List.length_append]
  exact Nat.le_add_right _ _

theorem le_digitsWidth (digits : ∀ digit ∈ chars, digit.isDigit) (rest : List Char) :
    chars.length ≤ digitsWidth (chars ++ rest) :=
  le_length_takeWhile digits rest

theorem le_fractionWidth (fraction : FractionPart chars) (rest : List Char) :
    chars.length ≤ fractionWidth (chars ++ rest) := by
  rcases fraction with rfl | ⟨digits, rfl, nonempty, all⟩
  · exact Nat.zero_le _
  · have width := le_digitsWidth all rest
    have positive := List.length_pos_iff.mpr nonempty
    simp only [List.cons_append, fractionWidth, List.length_cons]
    rw [if_neg (by omega)]
    omega

theorem le_exponentWidth (exponent : ExponentPart chars) (rest : List Char) :
    chars.length ≤ exponentWidth (chars ++ rest) := by
  rcases exponent with rfl | ⟨mark, sign, digits, rfl, isMark, isSign, run⟩
  · exact Nat.zero_le _
  · have signed : signWidth (sign ++ (digits ++ rest)) = sign.length :=
      signWidth_append isSign run
    have width := le_digitsWidth run.2 rest
    have positive := List.length_pos_iff.mpr run.1
    have some : digitsWidth (digits ++ rest) ≠ 0 := by omega
    have dropped : (sign ++ (digits ++ rest)).drop sign.length = digits ++ rest := List.drop_left
    simp only [List.cons_append, List.append_assoc, exponentWidth, signed, dropped]
    rcases isMark with rfl | rfl <;> simp [some] <;> omega

/-- The number that is found at the start of a text is at least as long as any. -/
theorem le_numberWidth (unsigned : Unsigned chars) (rest : List Char) :
    chars.length ≤ numberWidth (chars ++ rest) := by
  obtain ⟨whole, fraction, exponent, rfl, run, isFraction, isExponent⟩ := unsigned
  have regroup : whole ++ (fraction ++ exponent) ++ rest =
      whole ++ (fraction ++ (exponent ++ rest)) := by simp
  rw [regroup]
  simp only [numberWidth, List.length_append]
  by_cases noExponent : exponent = []
  · subst noExponent
    rw [List.nil_append]
    by_cases noFraction : fraction = []
    · subst noFraction
      have width := le_digitsWidth run.2 rest
      simp only [List.nil_append, List.length_nil]
      omega
    · have stop : ∀ next ∈ (fraction ++ rest).head?, next.isDigit = false := by
        rcases isFraction with rfl | ⟨digits, rfl, -⟩
        · exact absurd rfl noFraction
        · simp
      have wholeWidth := digitsWidth_append run.2 stop
      have width := le_fractionWidth isFraction rest
      rw [wholeWidth, List.drop_left]
      simp only [List.length_nil]
      omega
  · obtain ⟨stop, notPoint⟩ : (∀ next ∈ (exponent ++ rest).head?, next.isDigit = false) ∧
        fractionWidth (exponent ++ rest) = 0 := by
      rcases isExponent with rfl | ⟨mark, sign, digits, rfl, rfl | rfl, -, -⟩
      · exact absurd rfl noExponent
      · exact ⟨by simp, rfl⟩
      · exact ⟨by simp, rfl⟩
    have fractionStop : ∀ next ∈ (fraction ++ (exponent ++ rest)).head?, next.isDigit = false := by
      rcases isFraction with rfl | ⟨digits, rfl, -⟩
      · exact stop
      · simp
    have wholeWidth := digitsWidth_append run.2 fractionStop
    have fractionWidth := fractionWidth_append isFraction stop notPoint
    have width := le_exponentWidth isExponent rest
    have dropped : (whole ++ (fraction ++ (exponent ++ rest))).drop
        (whole.length + fraction.length) = exponent ++ rest := by
      rw [← List.append_assoc, ← List.length_append, List.drop_left]
    rw [wholeWidth, List.drop_left, fractionWidth, dropped]
    omega

/-! ### All tokens -/

/-- Where a symbol is written, one is found that is at least as long. -/
theorem exists_scan?_of_text (symbol : Symbol) (rest : List Char) :
    ∃ longest : Symbol, Symbol.scan? (symbol.text.toList ++ rest) = some longest ∧
      symbol.text.length ≤ longest.text.length := by
  by_cases ends : EndsBefore (.symbol symbol) rest
  · exact ⟨symbol, scan?_text ends, Nat.le_refl _⟩
  · -- Only these symbols go on, by an equals sign, or become a named scope.
    cases symbol
    case dollar => exact ⟨.dollar, rfl, Nat.le_refl _⟩
    case exclamation | less | greater =>
      obtain ⟨others, rfl⟩ : ∃ others, rest = '=' :: others := by
        simpa [EndsBefore, List.head?_eq_some_iff] using ends
      exact ⟨_, rfl, by decide⟩
    all_goals exact absurd trivial ends

/-- Where a token is written, one is found that is at least as long. -/
theorem Written.exists_token (written : Written kind chars) (rest : List Char) :
    ∃ found width, Scan.token (chars ++ rest) = .ok (found, width) ∧ chars.length ≤ width := by
  cases written with
  | symbol symbol =>
      by_cases isDollar : symbol = .dollar
      · subst isDollar
        exact ⟨_, _, rfl, (dollar_width_pos rest).1⟩
      · obtain ⟨first, others, text, notQuote, notDollar, notName, notDigit⟩ :=
          text_begins isDollar
        obtain ⟨longest, scanned, longer⟩ := exists_scan?_of_text symbol rest
        refine ⟨.symbol longest, longest.text.length, ?_, String.length_toList ▸ longer⟩
        rw [text] at scanned ⊢
        simp only [List.cons_append] at scanned ⊢
        simp [Scan.token, notQuote, notDollar, notName, notDigit, scanned]
  | @word first others starts parts =>
      obtain ⟨notQuote, notDollar⟩ := not_begins_of_isNameStart starts
      have all : ∀ part ∈ first :: others, isNamePart part :=
        List.forall_mem_cons.mpr ⟨isNamePart_of_isNameStart starts, parts⟩
      have scanned : Scan.token (first :: others ++ rest) =
          .ok (.ofWord (String.ofList (name (first :: others ++ rest))),
            (name (first :: others ++ rest)).length) := by
        simp [Scan.token, notQuote, notDollar, starts]
      exact ⟨_, _, scanned, le_length_takeWhile all rest⟩
  | @scope first others starts parts =>
      have all : ∀ part ∈ first :: others, isNamePart part :=
        List.forall_mem_cons.mpr ⟨isNamePart_of_isNameStart starts, parts⟩
      have scanned : Scan.token ('$' :: (first :: others ++ rest)) =
          .ok (.scope (String.ofList (name (first :: others ++ rest))),
            (name (first :: others ++ rest)).length + 1) := by
        simp [Scan.token, Quote.ofCharacter?, Quote.character, dollar, starts]
      exact ⟨_, _, scanned, Nat.succ_le_succ (le_length_takeWhile all rest)⟩
  | number unsigned =>
      have width := le_numberWidth unsigned rest
      obtain ⟨whole, fraction, exponent, rfl, ⟨nonempty, digits⟩, -, -⟩ := unsigned
      obtain ⟨first, others, rfl⟩ := List.exists_cons_of_ne_nil nonempty
      have digit := digits first (by simp)
      obtain ⟨notQuote, notDollar, notName⟩ := not_begins_of_isDigit digit
      refine ⟨.number, _, ?_, width⟩
      simp [Scan.token, notQuote, notDollar, notName, digit]
  | @string quote chars values spells =>
      have scanned : Scan.token (quote.character :: (chars ++ [quote.character]) ++ rest) = _ :=
        (Written.string spells).token trivial
      exact ⟨_, _, scanned, Nat.le_refl _⟩

/-- A text is written for one kind of token at most. -/
theorem Written.unique (written : Written kind chars) (otherWritten : Written other chars) :
    kind = other := by
  have scanned := written.token (endsBefore_of_stops kind stops_nil (by simp))
  rw [otherWritten.token (endsBefore_of_stops other stops_nil (by simp))] at scanned
  exact (Prod.mk.inj (Except.ok.inj scanned)).1.symm

/-- The token that is found at the start of a text is the longest one that is written
there. -/
theorem token_eq_ok_iff (notEnd : kind ≠ .endOfInput) :
    Scan.token input = .ok (kind, width) ↔ Covers input kind width ∧
      ∀ other longer, Written other longer → longer <+: input → longer.length ≤ width := by
  constructor
  · intro scanned
    refine ⟨covers_of_token scanned notEnd, ?_⟩
    rintro other longer written ⟨rest, rfl⟩
    obtain ⟨found, most, scannedAgain, enough⟩ := written.exists_token rest
    rw [scanned] at scannedAgain
    obtain ⟨-, rfl⟩ := Prod.mk.inj (Except.ok.inj scannedAgain)
    exact enough
  · rintro ⟨⟨chars, rest, rfl, rfl, written⟩, longest⟩
    obtain ⟨found, most, scanned, enough⟩ := written.exists_token rest
    have foundNotEnd : found ≠ .endOfInput := by
      have positive := written.length_pos
      cases chars with
      | nil => simp at positive
      | cons first others => exact (token_cons scanned).2
    obtain ⟨chosen, others, split, rfl, chosenWritten⟩ := covers_of_token scanned foundNotEnd
    have same := longest found chosen chosenWritten (split ▸ List.prefix_append _ _)
    obtain ⟨rfl, -⟩ := List.append_inj split (Nat.le_antisymm enough same)
    rw [scanned, chosenWritten.unique written]

/-! ### Characters that no token goes on behind -/

/-- Whether a character stands in no token other than strings. -/
structure Foreign (character : Char) : Prop where
  not_part : isNamePart character = false
  not_symbol : ∀ symbol : Symbol, character ∉ symbol.text.toList

theorem foreign_of_isJsonBlank {blank : Char} (isBlank : Unicode.isJsonBlank blank) :
    Foreign blank := by
  simp only [Unicode.isJsonBlank, Bool.or_eq_true, decide_eq_true_eq] at isBlank
  rcases isBlank with ((rfl | rfl) | rfl) | rfl <;>
    exact ⟨by decide, fun symbol => by cases symbol <;> decide⟩

theorem foreign_character (quote : Quote) : Foreign quote.character := by
  cases quote <;> exact ⟨by decide, fun symbol => by cases symbol <;> decide⟩

namespace Foreign

variable {foreign : Char}

theorem not_mem_of_parts (isForeign : Foreign foreign) (parts : ∀ part ∈ chars, isNamePart part) :
    foreign ∉ chars := by
  intro member
  have part := parts foreign member
  rw [isForeign.not_part] at part
  cases part

theorem not_mem_of_unsigned (isForeign : Foreign foreign) (unsigned : Unsigned chars) :
    foreign ∉ chars := by
  have notDigit : ∀ {digits : List Char}, Digits digits → foreign ∉ digits :=
    fun run => isForeign.not_mem_of_parts fun digit member =>
      isNamePart_of_isDigit (run.2 digit member)
  have notPoint : foreign ≠ '.' := fun same => isForeign.not_symbol .dot (by simp [same, Symbol.text])
  have notPlus : foreign ≠ '+' := fun same => isForeign.not_symbol .plus (by simp [same, Symbol.text])
  have notMinus : foreign ≠ '-' := fun same =>
    isForeign.not_symbol .minus (by simp [same, Symbol.text])
  obtain ⟨whole, fraction, exponent, rfl, run, isFraction, isExponent⟩ := unsigned
  simp only [List.mem_append, not_or]
  refine ⟨notDigit run, ?_, ?_⟩
  · rcases isFraction with rfl | ⟨digits, rfl, decimals⟩
    · simp
    · simp [notPoint, notDigit decimals]
  · rcases isExponent with rfl | ⟨mark, sign, digits, rfl, isMark, isSign, power⟩
    · simp
    · have markIsPart : isNamePart mark := by
        rcases isMark with rfl | rfl <;> decide +kernel
      have notMark : foreign ∉ [mark] :=
        isForeign.not_mem_of_parts (List.forall_mem_singleton.mpr markIsPart)
      have notSign : foreign ∉ sign := by
        rcases isSign with rfl | rfl | rfl <;> simp [notPlus, notMinus]
      simp only [List.mem_cons, List.mem_append, not_or]
      exact ⟨by simpa using notMark, notSign, notDigit power⟩

/-- No text of a token holds such a character, strings apart. -/
theorem not_mem_of_written (isForeign : Foreign foreign) (written : Written kind chars)
    (notString : ∀ content quote, kind ≠ .string content quote) : foreign ∉ chars := by
  cases written with
  | symbol symbol => exact isForeign.not_symbol symbol
  | word starts parts =>
      exact isForeign.not_mem_of_parts
        (List.forall_mem_cons.mpr ⟨isNamePart_of_isNameStart starts, parts⟩)
  | scope starts parts =>
      have notDollar : foreign ≠ '$' := fun same =>
        isForeign.not_symbol .dollar (by simp [same, Symbol.text])
      have notName := isForeign.not_mem_of_parts
        (List.forall_mem_cons.mpr ⟨isNamePart_of_isNameStart starts, parts⟩)
      exact List.not_mem_cons_of_ne_of_not_mem notDollar notName
  | number unsigned => exact isForeign.not_mem_of_unsigned unsigned
  | string spells => exact absurd rfl (notString _ _)

end Foreign

theorem exists_of_token_quote {quote : Quote}
    (scanned : Scan.token (quote.character :: rest) = .ok (kind, width)) :
    ∃ content, kind = .string content quote := by
  simp only [Scan.token, ofCharacter?_character] at scanned
  unfold string at scanned
  dsimp only at scanned
  split at scanned
  · exact ⟨_, (Prod.mk.inj (Except.ok.inj scanned)).1.symm⟩
  all_goals cases scanned

/-- Such a character anywhere behind a token leaves the token as it is. -/
theorem token_insert_foreign {foreign : Char} (isForeign : Foreign foreign)
    (scanned : Scan.token (chars ++ rest) = .ok (kind, width)) (notEnd : kind ≠ .endOfInput)
    (inside : width ≤ chars.length) (others : List Char) :
    Scan.token (chars ++ foreign :: others) = .ok (kind, width) := by
  obtain ⟨⟨raw, after, split, rfl, written⟩, longest⟩ := (token_eq_ok_iff notEnd).mp scanned
  obtain ⟨more, rfl⟩ : raw <+: chars :=
    List.prefix_of_prefix_length_le (split.symm ▸ List.prefix_append raw after)
      (List.prefix_append chars rest) inside
  by_cases isString : ∃ content quote, kind = .string content quote
  · obtain ⟨content, quote, rfl⟩ := isString
    rw [List.append_assoc]
    exact written.token trivial
  refine (token_eq_ok_iff notEnd).mpr ⟨⟨raw, more ++ foreign :: others, by simp, rfl, written⟩, ?_⟩
  intro other longer otherWritten isPrefix
  by_cases short : longer.length ≤ (raw ++ more).length
  · have fits := List.prefix_of_prefix_length_le isPrefix (List.prefix_append _ _) short
    exact longest other longer otherWritten (fits.trans (List.prefix_append _ _))
  -- A longer text holds the character, so it is a string, but no quote stands at the front.
  exfalso
  have enough : (raw ++ more).length ≤ longer.length := by omega
  obtain ⟨tail, rfl⟩ := List.prefix_of_prefix_length_le (List.prefix_append _ _) isPrefix enough
  have foreignInside : foreign ∈ raw ++ more ++ tail := by
    have next := (List.prefix_append_right_inj _).mp isPrefix
    cases tail with
    | nil => simp at short
    | cons first tail => simp [(List.cons_prefix_cons.mp next).1]
  by_cases otherString : ∃ content quote, other = .string content quote
  · obtain ⟨content, quote, rfl⟩ := otherString
    obtain ⟨told, text, -⟩ := otherWritten.spelled
    have positive := written.length_pos
    cases raw with
    | nil => simp at positive
    | cons first raw =>
        obtain ⟨rfl, -⟩ := List.cons.inj text
        obtain ⟨found, same⟩ := exists_of_token_quote scanned
        exact isString ⟨found, quote, same⟩
  · have notString : ∀ content quote, other ≠ .string content quote :=
      fun content quote same => otherString ⟨content, quote, same⟩
    exact isForeign.not_mem_of_written otherWritten notString foreignInside

/-- A blank anywhere behind a token leaves the token as it is. -/
theorem token_insert_blank {blank : Char} (isBlank : Unicode.isJsonBlank blank)
    (scanned : Scan.token (chars ++ rest) = .ok (kind, width)) (notEnd : kind ≠ .endOfInput)
    (inside : width ≤ chars.length) (others : List Char) :
    Scan.token (chars ++ blank :: others) = .ok (kind, width) :=
  token_insert_foreign (foreign_of_isJsonBlank isBlank) scanned notEnd inside others

end TemplatedJson.Scan
