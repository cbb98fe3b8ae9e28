import Mathlib.Algebra.Group.Int.Defs
import Mathlib.Algebra.Group.Nat.Defs
import TemplatedJson.Literal
import TemplatedJson.Proofs.Lexing.Number

/-!
# Integers and their digits

A text of a sign and decimal digits denotes an integer, however many zeros it begins
with.  If the integer fits a signed or an unsigned 64-bit word, it is the number that is
read.  Otherwise the digits overflow both words, and at most a float is read.
-/

namespace TemplatedJson.Number

/-! ### What digits denote -/

/-- The sum of the values of all digits, each at its decimal place. -/
def placeValue : List Char → Nat
  | [] => 0
  | digit :: rest => (digit.toNat - '0'.toNat) * 10 ^ rest.length + placeValue rest

/-- Whether a text is an integer: an optional sign, and digits. -/
def Denotes (chars : List Char) (value : Int) : Prop :=
  ∃ sign digits, chars = sign ++ digits ∧ SignPart sign ∧ Digits digits ∧
    value = if sign = ['-'] then -(placeValue digits : Int) else placeValue digits

/-- Whether a signed or an unsigned 64-bit word holds an integer. -/
def InRange (value : Int) : Prop :=
  -2 ^ 63 ≤ value ∧ value ≤ 2 ^ 64 - 1

variable {chars digits : List Char} {value : Int}

theorem isExact_iff : isExact value = true ↔ InRange value := by
  unfold isExact InRange
  simp only [Bool.and_eq_true, decide_eq_true_eq]
  omega

theorem ofDigitChars_eq_placeValue (digits : List Char) :
    Nat.ofDigitChars 10 digits 0 = placeValue digits := by
  induction digits with
  | nil => rfl
  | cons digit rest ih =>
      rw [Nat.ofDigitChars_cons, Nat.ofDigitChars_eq_ofDigitChars_zero, ih, placeValue]
      simp [Nat.mul_comm]

theorem natural?_eq_some_iff {number : Nat} :
    natural? digits = some number ↔ Digits digits ∧ number = placeValue digits := by
  unfold natural? Digits
  rw [ofDigitChars_eq_placeValue]
  split
  · next run =>
      simp only [Bool.and_eq_true, decide_eq_true_eq, List.all_eq_true] at run
      rw [Option.some.injEq]
      exact ⟨fun same => ⟨run, same.symm⟩, fun found => found.2.symm⟩
  · next noRun =>
      simp only [Bool.and_eq_true, decide_eq_true_eq, List.all_eq_true] at noRun
      simp only [reduceCtorEq, false_iff]
      exact fun found => noRun found.1

theorem integer?_eq (chars : List Char) :
    integer? chars = (natural? (splitSign chars).2).map fun number : Nat =>
      if (splitSign chars).1 then -(number : Int) else number := by
  unfold integer?
  rcases splitSign chars with ⟨negative, magnitude⟩
  dsimp only
  cases natural? magnitude <;> rfl

/-- Digits begin with no sign. -/
theorem splitSign_append {sign : List Char} (isSign : SignPart sign) (run : Digits digits) :
    splitSign (sign ++ digits) = (decide (sign = ['-']), digits) := by
  rcases isSign with rfl | rfl | rfl
  · obtain ⟨first, others, rfl⟩ := List.exists_cons_of_ne_nil run.1
    have isDigit := run.2 first List.mem_cons_self
    simp only [List.nil_append, splitSign]
    split <;> simp_all
  · rfl
  · rfl

theorem exists_sign (chars : List Char) :
    ∃ sign, chars = sign ++ (splitSign chars).2 ∧ SignPart sign ∧
      (splitSign chars).1 = decide (sign = ['-']) := by
  unfold splitSign
  split
  · exact ⟨['-'], rfl, .inr (.inr rfl), rfl⟩
  · exact ⟨['+'], rfl, .inr (.inl rfl), rfl⟩
  · exact ⟨[], rfl, .inl rfl, rfl⟩

/-- The integer that is read from a text is the one that the text denotes. -/
theorem integer?_eq_some_iff : integer? chars = some value ↔ Denotes chars value := by
  constructor
  · intro read
    obtain ⟨sign, split, isSign, negative⟩ := exists_sign chars
    simp only [integer?_eq, Option.map_eq_some_iff, natural?_eq_some_iff] at read
    obtain ⟨number, ⟨run, rfl⟩, rfl⟩ := read
    exact ⟨sign, _, split, isSign, run, by simp [negative]⟩
  · rintro ⟨sign, digits, rfl, isSign, run, rfl⟩
    have read := natural?_eq_some_iff.mpr ⟨run, rfl⟩
    simp [integer?_eq, splitSign_append isSign run, read]

/-- A text denotes at most one integer. -/
theorem Denotes.unique {other : Int} (denotes : Denotes chars value)
    (denotesOther : Denotes chars other) : value = other := by
  have first := integer?_eq_some_iff.mpr denotes
  have second := integer?_eq_some_iff.mpr denotesOther
  exact Option.some.inj (first.symm.trans second)

/-- No letter and no point stands in the text of an integer. -/
theorem Denotes.parts (denotes : Denotes chars value) :
    ∀ part ∈ chars, part = '+' ∨ part = '-' ∨ part.isDigit := by
  obtain ⟨sign, digits, rfl, isSign, run, -⟩ := denotes
  intro part member
  rcases List.mem_append.mp member with inSign | inDigits
  · rcases isSign with rfl | rfl | rfl <;> simp_all
  · exact .inr (.inr (run.2 part inDigits))

/-! ### What is read from a text -/

theorem float?_ne_integer : float? chars ≠ some (.integer value) := by
  unfold float?
  intro read
  obtain ⟨⟨negative, decimal⟩, -, nearest⟩ := Option.bind_eq_some_iff.mp read
  obtain ⟨number, -, same⟩ := Option.map_eq_some_iff.mp nearest
  cases same

/-- An integer is read exactly from the texts that denote it, if it is in range. -/
theorem ofText?_eq_integer_iff {raw : String} :
    ofText? raw = some (.integer value) ↔ Denotes raw.toList value ∧ InRange value := by
  rw [← integer?_eq_some_iff, ← isExact_iff]
  unfold ofText?
  split
  · next other read =>
      split
      · next exact =>
          rw [read]
          simp only [Option.some.injEq, integer.injEq]
          exact ⟨fun same => ⟨same, same ▸ exact⟩, And.left⟩
      · next inexact =>
          rw [read]
          simp only [float?_ne_integer, false_iff, Option.some.injEq]
          rintro ⟨rfl, exact⟩
          exact inexact exact
  · next unread =>
      rw [unread]
      simp [float?_ne_integer]

/-! ### Digits in words -/

/-- Takes up digits from the left.  Both steps of each digit are checked against the
greatest number that the word can hold. -/
def accumulate? (greatest : Nat) : (value : Nat) → List Char → Option Nat
  | value, [] => some value
  | value, digit :: rest =>
      if !digit.isDigit then none
      else
        let shifted := value * 10
        let next := shifted + (digit.toNat - '0'.toNat)
        if greatest < shifted then none
        else if greatest < next then none
        else accumulate? greatest next rest

/-- The number that digits denote in a word. -/
def word? (greatest : Nat) (digits : List Char) : Option Nat :=
  if digits = [] then none else accumulate? greatest 0 digits

/-- An unsigned word of 64 bits, which has no minus sign. -/
def unsigned? (chars : List Char) : Option Nat :=
  let (negative, digits) := splitSign chars
  if negative then none else word? (2 ^ 64 - 1) digits

/-- A signed word of 64 bits, which reaches one further down than up. -/
def signed? (chars : List Char) : Option Int :=
  let (negative, digits) := splitSign chars
  if negative then (word? (2 ^ 63) digits).map fun value : Nat => -(value : Int)
  else (word? (2 ^ 63 - 1) digits).map fun value : Nat => (value : Int)

/-- The checks of all steps amount to one check of the result. -/
theorem accumulate?_eq_some_iff {greatest start number : Nat} (fits : start ≤ greatest) :
    accumulate? greatest start digits = some number ↔
      (∀ digit ∈ digits, digit.isDigit) ∧ number = Nat.ofDigitChars 10 digits start ∧
        number ≤ greatest := by
  induction digits generalizing start with
  | nil =>
      rw [accumulate?, Option.some.injEq]
      have zero : Nat.ofDigitChars 10 [] start = start := rfl
      rw [zero]
      refine ⟨?_, fun found => found.2.1.symm⟩
      rintro rfl
      exact ⟨List.forall_mem_nil _, rfl, fits⟩
  | cons digit rest ih =>
      -- The digits that are still to come only make the number greater.
      have grows : start * 10 + (digit.toNat - '0'.toNat) ≤
          Nat.ofDigitChars 10 (digit :: rest) start := by
        have positive := Nat.pow_pos (n := rest.length) (show 0 < 10 by decide)
        rw [Nat.ofDigitChars_cons, Nat.ofDigitChars_eq_ofDigitChars_zero, Nat.mul_comm start]
        exact Nat.le_trans (Nat.le_mul_of_pos_left _ positive) (Nat.le_add_right _ _)
      rw [accumulate?, List.forall_mem_cons]
      dsimp only
      split
      · next noDigit => simp_all
      split
      · next overflows =>
          simp only [reduceCtorEq, false_iff]
          rintro ⟨-, rfl, small⟩
          omega
      split
      · next overflows =>
          simp only [reduceCtorEq, false_iff]
          rintro ⟨-, rfl, small⟩
          omega
      · next isDigit _ smallEnough =>
          rw [ih (Nat.not_lt.mp smallEnough), Nat.ofDigitChars_cons, Nat.mul_comm start]
          simp_all

theorem word?_eq_some_iff {greatest number : Nat} :
    word? greatest digits = some number ↔
      Digits digits ∧ number = placeValue digits ∧ number ≤ greatest := by
  unfold word? Digits
  split
  · simp_all
  · next nonempty =>
      rw [accumulate?_eq_some_iff (Nat.zero_le _), ofDigitChars_eq_placeValue]
      simp only [nonempty, ne_eq, not_false_eq_true, true_and]

theorem word?_eq (greatest : Nat) (digits : List Char) :
    word? greatest digits = (natural? digits).filter (· ≤ greatest) := by
  ext number
  simp only [word?_eq_some_iff, Option.filter_eq_some_iff, natural?_eq_some_iff, decide_eq_true_eq,
    and_assoc]

/-- What is read from a text is what checked arithmetic of words gives, an unsigned word
first, then a signed one, and a float if the digits overflow both. -/
theorem ofText?_eq_words (raw : String) :
    ofText? raw =
      match unsigned? raw.toList with
      | some value => some (.integer value)
      | none =>
          match signed? raw.toList with
          | some value => some (.integer value)
          | none => float? raw.toList := by
  unfold ofText? unsigned? signed?
  rw [integer?_eq]
  rcases splitSign raw.toList with ⟨negative, digits⟩
  simp only [word?_eq]
  cases natural? digits with
  | none => cases negative <;> rfl
  | some number =>
      cases negative with
      | true =>
          have exact : isExact (-(number : Int)) = decide (number ≤ 2 ^ 63) := by
            rw [Bool.eq_iff_iff, isExact_iff, decide_eq_true_eq]
            unfold InRange
            omega
          by_cases fits : number ≤ 2 ^ 63 <;>
            simp only [Option.map_some, Option.map_none, Option.filter_some, ↓reduceIte, exact,
              fits, decide_true, decide_false, Bool.false_eq_true]
      | false =>
          have exact : isExact (number : Int) = decide (number ≤ 2 ^ 64 - 1) := by
            rw [Bool.eq_iff_iff, isExact_iff, decide_eq_true_eq]
            unfold InRange
            omega
          by_cases fits : number ≤ 2 ^ 64 - 1
          · simp only [Option.map_some, Option.filter_some, ↓reduceIte, exact, fits, decide_true,
              Bool.false_eq_true]
          · have overflows : ¬ number ≤ 2 ^ 63 - 1 := by omega
            simp only [Option.map_some, Option.map_none, Option.filter_some, ↓reduceIte, exact,
              fits, overflows, decide_false, Bool.false_eq_true]

end TemplatedJson.Number
