import TemplatedJson.Proofs.Lexing.Lexes
import TemplatedJson.Proofs.Node.Grammar

/-!
# The tokens of JSON

The lexer was made for expressions and knows more than JSON does.  Its tokens in
double quotes are exactly the strings of JSON, and its numbers without a leading
zero are, together with a sign, exactly the numbers of JSON.
-/

namespace TemplatedJson.JsonText

variable {chars : List Char}

/-! ### Strings -/

theorem shortEscape?_double_iff {mark value : Char} :
    (mark ≠ 'u' ∧ Quote.double.shortEscape? mark = some value) ↔ (mark, value) ∈ shortEscapes := by
  constructor
  · rintro ⟨-, found⟩
    unfold Quote.shortEscape? at found
    repeat' split at found
    case isFalse => cases found
    all_goals
      obtain rfl := Option.some.inj found
      subst_vars
      decide
  · intro member
    simp only [shortEscapes, List.mem_cons, Prod.mk.injEq, List.not_mem_nil, or_false] at member
    rcases member with ⟨rfl, rfl⟩ | ⟨rfl, rfl⟩ | ⟨rfl, rfl⟩ | ⟨rfl, rfl⟩ | ⟨rfl, rfl⟩ | ⟨rfl, rfl⟩ |
      ⟨rfl, rfl⟩ | ⟨rfl, rfl⟩ <;> decide

theorem spells_double_iff {value : Char} :
    Quote.double.Spells chars value ↔ Character chars value := by
  constructor
  · intro spells
    cases spells with
    | plain notQuote notBackslash printable =>
        exact .unescaped (printable rfl) notQuote notBackslash
    | short notUnicode known => exact .short (shortEscape?_double_iff.mp ⟨notUnicode, known⟩)
    | unit denotes => exact .unit denotes
    | pair first second pairs => exact .pair first second pairs
  · intro spells
    cases spells with
    | unescaped printable notQuote notBackslash =>
        exact .plain notQuote notBackslash fun _ => printable
    | short member =>
        obtain ⟨notUnicode, known⟩ := shortEscape?_double_iff.mpr member
        exact .short notUnicode known
    | unit denotes => exact .unit denotes
    | pair first second pairs => exact .pair first second pairs

theorem spellsAll_double_iff {values : List Char} :
    Quote.double.SpellsAll chars values ↔ Content chars values := by
  constructor
  · intro spells
    induction spells with
    | nil => exact .nil
    | cons first _ ih => exact .cons (spells_double_iff.mp first) ih
  · intro content
    induction content with
    | nil => exact .nil
    | cons first _ ih => exact .cons (spells_double_iff.mpr first) ih

/-- The tokens in double quotes are the strings of JSON. -/
theorem isString_iff_spelled {content : String} :
    IsString chars content ↔ Scan.Spelled (.string content .double) chars := by
  unfold IsString Scan.Spelled
  simp only [spellsAll_double_iff]
  rfl

theorem IsString.written {content : String} (isString : IsString chars content) :
    Scan.Written (.string content .double) chars := by
  obtain ⟨inside, rfl, spells⟩ := isString
  have written := Scan.Written.string (spellsAll_double_iff.mpr spells)
  rwa [String.ofList_toList] at written

/-! ### Numbers -/

theorem digits_of_isInteger (isInteger : IsInteger chars) : Digits chars := by
  rcases isInteger with rfl | ⟨digits, -⟩
  · exact ⟨by simp, by simp⟩
  · exact digits

theorem hasLeadingZero_eq_false_of_isInteger {rest : List Char} (isInteger : IsInteger chars)
    (stop : ∀ next ∈ rest.head?, next.isDigit = false) :
    Parse.hasLeadingZero (chars ++ rest) = false := by
  rcases isInteger with rfl | ⟨⟨nonempty, -⟩, notZero⟩
  · cases rest with
    | nil => rfl
    | cons next others => exact stop next rfl
  · match chars, nonempty with
    | first :: others, _ =>
        have different : first ≠ '0' := by simpa using notZero
        unfold Parse.hasLeadingZero
        split
        · simp_all
        · rfl

theorem isInteger_of_digits {rest : List Char} (digits : Digits chars)
    (noZero : Parse.hasLeadingZero (chars ++ rest) = false) : IsInteger chars := by
  obtain ⟨nonempty, all⟩ := digits
  match chars, nonempty with
  | [first], _ =>
      by_cases zero : first = '0'
      · exact .inl (by rw [zero])
      · exact .inr ⟨⟨by simp, all⟩, by simpa using zero⟩
  | first :: second :: others, _ =>
      refine .inr ⟨⟨by simp, all⟩, ?_⟩
      intro zero
      obtain rfl := Option.some.inj zero
      have isDigit := all second (by simp)
      simp [Parse.hasLeadingZero, isDigit] at noZero

theorem not_isDigit_after_whole {fraction exponent : List Char} (isFraction : FractionPart fraction)
    (isExponent : ExponentPart exponent) :
    ∀ next ∈ (fraction ++ exponent).head?, next.isDigit = false := by
  rcases isFraction with rfl | ⟨digits, rfl, -⟩
  · rcases isExponent with rfl | ⟨mark, sign, digits, rfl, rfl | rfl, -, -⟩ <;> simp
  · simp

/-- The numbers of JSON are the number tokens without a leading zero, with a
minus sign before them or none. -/
theorem isNumber_iff :
    IsNumber chars ↔ ∃ sign digits, chars = sign ++ digits ∧ (sign = [] ∨ sign = ['-']) ∧
      Unsigned digits ∧ Parse.hasLeadingZero digits = false := by
  constructor
  · rintro ⟨sign, whole, fraction, exponent, rfl, isSign, isInteger, isFraction, isExponent⟩
    refine ⟨sign, _, rfl, isSign, ⟨whole, fraction, exponent, rfl, digits_of_isInteger isInteger,
      isFraction, isExponent⟩, ?_⟩
    exact hasLeadingZero_eq_false_of_isInteger isInteger
      (not_isDigit_after_whole isFraction isExponent)
  · rintro ⟨sign, digits, rfl, isSign, ⟨whole, fraction, exponent, rfl, run, isFraction,
      isExponent⟩, noZero⟩
    exact ⟨sign, whole, fraction, exponent, rfl, isSign, isInteger_of_digits run noZero, isFraction,
      isExponent⟩

end TemplatedJson.JsonText
