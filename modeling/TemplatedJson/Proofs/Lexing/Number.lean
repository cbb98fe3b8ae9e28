import TemplatedJson.Token.Scan

/-!
# The texts of numbers

A number is a run of digits, a fraction and an exponent, where the last two may
be missing.  The lexer takes the longest such text, and it takes all of a given
one when what follows continues neither a name nor a number.
-/

namespace TemplatedJson

variable {chars rest : List Char}

/-- A run of decimal digits with at least one of them. -/
def Digits (chars : List Char) : Prop :=
  chars ≠ [] ∧ ∀ digit ∈ chars, digit.isDigit

/-- A point with digits after it, or nothing. -/
def FractionPart (chars : List Char) : Prop :=
  chars = [] ∨ ∃ digits, chars = '.' :: digits ∧ Digits digits

/-- A sign, or nothing. -/
def SignPart (chars : List Char) : Prop :=
  chars = [] ∨ chars = ['+'] ∨ chars = ['-']

/-- The letter `e` of either case with a signed run of digits after it, or
nothing. -/
def ExponentPart (chars : List Char) : Prop :=
  chars = [] ∨ ∃ mark sign digits, chars = mark :: (sign ++ digits) ∧
    (mark = 'e' ∨ mark = 'E') ∧ SignPart sign ∧ Digits digits

/-- A number without a sign. -/
def Unsigned (chars : List Char) : Prop :=
  ∃ whole fraction exponent, chars = whole ++ (fraction ++ exponent) ∧ Digits whole ∧
    FractionPart fraction ∧ ExponentPart exponent

theorem takeWhile_append_of_stop {holds : Char → Bool} (all : ∀ one ∈ chars, holds one)
    (stop : ∀ next ∈ rest.head?, holds next = false) : (chars ++ rest).takeWhile holds = chars := by
  have ended : rest.takeWhile holds = [] := by
    cases rest with
    | nil => rfl
    | cons next others => simp [stop next rfl]
  rw [List.takeWhile_append_of_pos all, ended, List.append_nil]

namespace Scan

/-- Whether a text continues neither a name nor a number before it. -/
def Stops (rest : List Char) : Prop :=
  (∀ next ∈ rest.head?, isNamePart next = false) ∧ fractionWidth rest = 0

theorem isNamePart_of_isDigit {digit : Char} (isDigit : digit.isDigit) : isNamePart digit := by
  have bounds := Char.isDigit_iff_toNat.mp isDigit
  have ascii : digit.toNat < 0x80 := Nat.lt_of_le_of_lt bounds.2 (by decide)
  simp [isNamePart, Unicode.isNumeric, ascii, isDigit]

theorem not_isDigit_of_stops (stops : Stops rest) : ∀ next ∈ rest.head?, next.isDigit = false := by
  intro next first
  have notPart := stops.1 next first
  cases digit : next.isDigit with
  | false => rfl
  | true => simp [isNamePart_of_isDigit digit] at notPart

/-! ### Runs of digits -/

theorem digitsWidth_append (digits : ∀ digit ∈ chars, digit.isDigit)
    (stop : ∀ next ∈ rest.head?, next.isDigit = false) :
    digitsWidth (chars ++ rest) = chars.length := by
  unfold digitsWidth
  rw [takeWhile_append_of_stop digits stop]

theorem exists_of_digitsWidth (input : List Char) :
    ∃ chars rest, input = chars ++ rest ∧ chars.length = digitsWidth input ∧
      ∀ digit ∈ chars, digit.isDigit :=
  ⟨input.takeWhile Char.isDigit, input.dropWhile Char.isDigit,
    List.takeWhile_append_dropWhile.symm, rfl, List.all_eq_true.mp List.all_takeWhile⟩

theorem digits_of_digitsWidth {input : List Char} (some : digitsWidth input ≠ 0) :
    ∃ chars rest, input = chars ++ rest ∧ chars.length = digitsWidth input ∧ Digits chars := by
  obtain ⟨chars, rest, split, length, all⟩ := exists_of_digitsWidth input
  refine ⟨chars, rest, split, length, ?_, all⟩
  rintro rfl
  exact some length.symm

/-! ### Fractions and exponents -/

theorem fractionWidth_append (fraction : FractionPart chars)
    (stop : ∀ next ∈ rest.head?, next.isDigit = false) (none : fractionWidth rest = 0) :
    fractionWidth (chars ++ rest) = chars.length := by
  rcases fraction with rfl | ⟨digits, rfl, nonempty, all⟩
  · exact none
  · have width := digitsWidth_append all stop
    have positive := List.length_pos_iff.mpr nonempty
    simp only [List.cons_append, fractionWidth, width, List.length_cons]
    rw [if_neg (by omega)]

theorem fraction_of_fractionWidth (input : List Char) :
    ∃ chars rest, input = chars ++ rest ∧ chars.length = fractionWidth input ∧
      FractionPart chars := by
  unfold fractionWidth
  split
  · next rest =>
      split
      · exact ⟨[], _, rfl, rfl, .inl rfl⟩
      · next some =>
          obtain ⟨digits, others, rfl, length, isRun⟩ := digits_of_digitsWidth some
          exact ⟨'.' :: digits, others, rfl, by simp [length], .inr ⟨digits, rfl, isRun⟩⟩
  · exact ⟨[], _, rfl, rfl, .inl rfl⟩

theorem signWidth_append {sign digits : List Char} (isSign : SignPart sign) (run : Digits digits) :
    signWidth (sign ++ (digits ++ rest)) = sign.length := by
  obtain ⟨nonempty, all⟩ := run
  rcases isSign with rfl | rfl | rfl
  · match digits, nonempty with
    | first :: others, _ =>
        have isDigit := all first (by simp)
        simp only [List.nil_append, List.cons_append]
        unfold signWidth
        split
        · simp_all
        · simp_all
        · rfl
  · rfl
  · rfl

theorem exponentWidth_append (exponent : ExponentPart chars) (stops : Stops rest) :
    exponentWidth (chars ++ rest) = chars.length := by
  rcases exponent with rfl | ⟨mark, sign, digits, rfl, isMark, isSign, run⟩
  · cases rest with
    | nil => rfl
    | cons next others =>
        have notPart := stops.1 next rfl
        have notMark : next ≠ 'e' ∧ next ≠ 'E' := by
          constructor <;> rintro rfl <;> revert notPart <;> decide
        simp [exponentWidth, notMark]
  · have signed : signWidth (sign ++ (digits ++ rest)) = sign.length :=
      signWidth_append isSign run
    have width := digitsWidth_append run.2 (not_isDigit_of_stops stops)
    have positive := List.length_pos_iff.mpr run.1
    have dropped : (sign ++ (digits ++ rest)).drop sign.length = digits ++ rest := List.drop_left
    simp only [List.cons_append, List.append_assoc, exponentWidth, signed, dropped, width]
    have some : digits.length ≠ 0 := by omega
    rcases isMark with rfl | rfl <;> simp [some] <;> omega

theorem exponent_of_exponentWidth (input : List Char) :
    ∃ chars rest, input = chars ++ rest ∧ chars.length = exponentWidth input ∧
      ExponentPart chars := by
  unfold exponentWidth
  split
  · next mark rest =>
      dsimp only
      split
      · next found =>
          simp only [Bool.and_eq_true, Bool.or_eq_true, decide_eq_true_eq, ne_eq] at found
          obtain ⟨digits, others, split, length, run⟩ := digits_of_digitsWidth found.2
          obtain ⟨sign, signed, isSign⟩ : ∃ sign, rest = sign ++ (digits ++ others) ∧
              sign.length = signWidth rest ∧ SignPart sign := by
            rw [← split]
            unfold signWidth
            split
            · exact ⟨['+'], rfl, rfl, .inr (.inl rfl)⟩
            · exact ⟨['-'], rfl, rfl, .inr (.inr rfl)⟩
            · exact ⟨[], rfl, rfl, .inl rfl⟩
          refine ⟨mark :: (sign ++ digits), others, by simp [signed], ?_,
            .inr ⟨mark, sign, digits, rfl, found.1, isSign.2, run⟩⟩
          simp only [List.length_cons, List.length_append, isSign.1, length]
          omega
      · exact ⟨[], _, rfl, rfl, .inl rfl⟩
  · exact ⟨[], _, rfl, rfl, .inl rfl⟩

/-! ### Whole numbers -/

theorem numberWidth_append (unsigned : Unsigned chars) (stops : Stops rest) :
    numberWidth (chars ++ rest) = chars.length := by
  obtain ⟨whole, fraction, exponent, rfl, run, isFraction, isExponent⟩ := unsigned
  have notDigit := not_isDigit_of_stops stops
  have exponentStop : ∀ next ∈ (exponent ++ rest).head?, next.isDigit = false := by
    rcases isExponent with rfl | ⟨mark, sign, digits, rfl, rfl | rfl, -, -⟩
    · exact notDigit
    · simp
    · simp
  have noFraction : fractionWidth (exponent ++ rest) = 0 := by
    rcases isExponent with rfl | ⟨mark, sign, digits, rfl, rfl | rfl, -, -⟩
    · exact stops.2
    · rfl
    · rfl
  have fractionStop : ∀ next ∈ (fraction ++ (exponent ++ rest)).head?, next.isDigit = false := by
    rcases isFraction with rfl | ⟨digits, rfl, -⟩
    · exact exponentStop
    · simp
  have regroup : whole ++ (fraction ++ exponent) ++ rest =
      whole ++ (fraction ++ (exponent ++ rest)) := by simp
  have wholeWidth := digitsWidth_append run.2 fractionStop
  have width := fractionWidth_append isFraction exponentStop noFraction
  have dropped : (whole ++ (fraction ++ (exponent ++ rest))).drop
      (whole.length + fraction.length) = exponent ++ rest := by
    rw [← List.append_assoc, ← List.length_append, List.drop_left]
  rw [regroup]
  simp only [numberWidth, wholeWidth, List.drop_left, width, dropped,
    exponentWidth_append isExponent stops, List.length_append]
  omega

theorem unsigned_of_numberWidth {first : Char} (digit : first.isDigit) (others : List Char) :
    ∃ chars rest, first :: others = chars ++ rest ∧
      chars.length = numberWidth (first :: others) ∧ Unsigned chars := by
  have some : digitsWidth (first :: others) ≠ 0 := Nat.ne_of_gt (digitsWidth_pos digit)
  obtain ⟨whole, afterWhole, wholeSplit, wholeLength, run⟩ := digits_of_digitsWidth some
  obtain ⟨fraction, afterFraction, rfl, fractionLength, isFraction⟩ :=
    fraction_of_fractionWidth afterWhole
  obtain ⟨exponent, rest, rfl, exponentLength, isExponent⟩ :=
    exponent_of_exponentWidth afterFraction
  refine ⟨whole ++ (fraction ++ exponent), rest, by simp [wholeSplit], ?_,
    whole, fraction, exponent, rfl, run, isFraction, isExponent⟩
  have dropped : (whole ++ (fraction ++ (exponent ++ rest))).drop
      (whole.length + fraction.length) = exponent ++ rest := by
    rw [← List.append_assoc, ← List.length_append, List.drop_left]
  simp only [numberWidth, ← wholeLength]
  rw [wholeSplit, List.drop_left, ← fractionLength, dropped, ← exponentLength]
  simp [Nat.add_assoc]

end Scan

end TemplatedJson
