import TemplatedJson.Proofs.Lexing.Answers
import TemplatedJson.Proofs.Template.Range

/-!
# Finding the spelling of a character

The widths by which a place in a quoted text is found are those of the spellings
that the lexer reads.  So counting over the spelling of some characters leads exactly
to the spelling of the next one.
-/

namespace TemplatedJson

/-! ### Surrogates by their digits -/

/-- Which digits begin surrogates, and which ones may follow there in a high one. -/
theorem hexDigit?_checked : ∀ code < 0x80,
    (hexDigit? (Char.ofNat code) = some 13 ↔ Char.ofNat code ∈ ['d', 'D']) ∧
    ((∃ value ∈ [8, 9, 10, 11], hexDigit? (Char.ofNat code) = some value) ↔
      Char.ofNat code ∈ ['8', '9', 'a', 'b', 'A', 'B']) := by
  decide

theorem toNat_lt_of_hexDigit? {digit : Char} {value : Nat} (known : hexDigit? digit = some value) :
    digit.toNat < 0x80 := by
  have le_iff : ∀ {first second : Char}, first ≤ second ↔ first.toNat ≤ second.toNat :=
    fun {_ _} => UInt32.le_iff_toNat_le
  simp only [hexDigit?, Bool.and_eq_true, decide_eq_true_eq, le_iff] at known
  split at known
  · next inRange => exact Nat.lt_of_le_of_lt inRange.2 (by decide)
  split at known
  · next inRange => exact Nat.lt_of_le_of_lt inRange.2 (by decide)
  split at known
  · next inRange => exact Nat.lt_of_le_of_lt inRange.2 (by decide)
  · cases known

theorem hexDigit?_of_surrogate {digit : Char} {value : Nat} (known : hexDigit? digit = some value) :
    (value = 13 ↔ digit ∈ ['d', 'D']) ∧
      (8 ≤ value ∧ value < 12 ↔ digit ∈ ['8', '9', 'a', 'b', 'A', 'B']) := by
  obtain ⟨first, second⟩ := hexDigit?_checked digit.toNat (toNat_lt_of_hexDigit? known)
  rw [Char.ofNat_toNat, known] at first second
  rw [← first, ← second]
  simp only [Option.some.injEq, exists_eq_right', true_and, List.mem_cons, List.not_mem_nil,
    or_false]
  omega

/-- A high surrogate is known by its first two digits. -/
theorem CodeUnit.isHighSurrogate_iff {first second third fourth : Char} {unit : Nat}
    (denotes : CodeUnit [first, second, third, fourth] unit) :
    isHighSurrogate unit ↔
      first ∈ ['d', 'D'] ∧ second ∈ ['8', '9', 'a', 'b', 'A', 'B'] := by
  obtain ⟨values, denote, length, rfl⟩ := denotes
  match values, length with
  | [one, two, three, four], _ =>
      simp only [List.map_cons, List.map_nil, List.cons.injEq, and_true] at denote
      obtain ⟨oneKnown, twoKnown, threeKnown, fourKnown⟩ := denote
      have twoBound := hexDigit?_lt twoKnown
      have threeBound := hexDigit?_lt threeKnown
      have fourBound := hexDigit?_lt fourKnown
      rw [← (hexDigit?_of_surrogate oneKnown).1, ← (hexDigit?_of_surrogate twoKnown).2]
      unfold isHighSurrogate hexValue
      rw [Bool.and_eq_true, decide_eq_true_eq, decide_eq_true_eq]
      simp only [List.foldl_cons, List.foldl_nil]
      omega

namespace Template

/-! ### The width of a spelling -/

theorem isPairSpelling_iff {one two three four : Char} {rest : List Char} :
    isPairSpelling (one :: two :: three :: four :: rest) ↔
      (one ∈ ['d', 'D'] ∧ two ∈ ['8', '9', 'a', 'b', 'A', 'B']) ∧
        ∃ others, rest = '\\' :: 'u' :: others := by
  unfold isPairSpelling
  split
  · next same =>
      simp only [List.cons.injEq] at same
      obtain ⟨rfl, rfl, rfl, rfl, rfl⟩ := same
      simp [or_assoc]
  · next notSpelling =>
      simp only [Bool.false_eq_true, false_iff, not_and, not_exists]
      rintro - others rfl
      exact notSpelling _ _ _ _ _ rfl

theorem isPairSpelling_of_pair {first others : List Char} {high : Nat}
    (denotes : CodeUnit first high) (isHigh : isHighSurrogate high) :
    isPairSpelling (first ++ '\\' :: 'u' :: others) = true := by
  obtain ⟨one, two, three, four, rfl⟩ := denotes.exists_four
  exact isPairSpelling_iff.mpr ⟨denotes.isHighSurrogate_iff.mp isHigh, others, rfl⟩

theorem isPairSpelling_of_unit {digits : List Char} {unit : Nat} (denotes : CodeUnit digits unit)
    (notHigh : isHighSurrogate unit = false) (rest : List Char) :
    isPairSpelling (digits ++ rest) = false := by
  obtain ⟨one, two, three, four, rfl⟩ := denotes.exists_four
  rw [← Bool.not_eq_true]
  intro isPair
  have isHigh := denotes.isHighSurrogate_iff.mpr (isPairSpelling_iff.mp isPair).1
  simp [notHigh] at isHigh

/-- The width of what begins a text is that of the spelling that stands there. -/
theorem spellingWidth_of_spells {chars : List Char} {value : Char}
    (spells : Quote.double.Spells chars value) (rest : List Char) :
    spellingWidth (chars ++ rest) = chars.length := by
  cases spells with
  | plain _ notBackslash _ => simp [spellingWidth, notBackslash]
  | short notUnicode _ => simp [spellingWidth]
  | unit denotes =>
      have notPair := isPairSpelling_of_unit denotes (not_surrogate value).1 rest
      obtain ⟨_, _, _, _, rfl⟩ := denotes.exists_four
      simp only [List.cons_append, List.nil_append] at notPair ⊢
      simp [spellingWidth, notPair]
  | @pair first second high low _ denotes secondDenotes pairs =>
      have isPair := @isPairSpelling_of_pair first (second ++ rest) high denotes pairs.1
      obtain ⟨_, _, _, _, rfl⟩ := denotes.exists_four
      obtain ⟨_, _, _, _, rfl⟩ := secondDenotes.exists_four
      simp only [List.cons_append, List.nil_append] at isPair ⊢
      simp [spellingWidth, isPair]

/-! ### The place of a character -/

/-- Counting over the spelling of all characters of a text leads behind it. -/
theorem spelledWidth_of_spellsAll {told values rest : List Char}
    (spells : Quote.double.SpellsAll told values) (more : rest ≠ []) :
    spelledWidth values.length (told ++ rest) = told.length := by
  induction spells with
  | nil => rfl
  | @cons first others value values spelling _ ih =>
      have width := spellingWidth_of_spells spelling (others ++ rest)
      have positive : 0 < first.length := by cases spelling <;> simp
      have restPositive := List.length_pos_iff.mpr more
      have long : 2 ≤ (first ++ (others ++ rest)).length := by
        simp only [List.length_append]
        omega
      rw [List.append_assoc, List.length_cons, spelledWidth_of_long long, width, List.drop_left, ih,
        List.length_append]

/-- The spelling of some characters is that of the first of them, then that of the
others. -/
theorem exists_of_spellsAll {inside values : List Char} (spells : Quote.double.SpellsAll inside values)
    (count : Nat) :
    ∃ told untold, inside = told ++ untold ∧ Quote.double.SpellsAll told (values.take count) ∧
      Quote.double.SpellsAll untold (values.drop count) := by
  induction spells generalizing count with
  | nil => exact ⟨[], [], rfl, by simpa using .nil, by simpa using .nil⟩
  | @cons first others value values spelling later ih =>
      cases count with
      | zero => exact ⟨[], first ++ others, rfl, .nil, .cons spelling later⟩
      | succ count =>
          obtain ⟨told, untold, rfl, spellsTold, spellsUntold⟩ := ih count
          exact ⟨first ++ told, untold, by simp, .cons spelling spellsTold, spellsUntold⟩

/-- The index of a character of a string leads to where its spelling begins, and the
index behind the last one leads to the closing quote. -/
theorem rawIndex_eq {raw : String} {told untold values : List Char}
    (quoted : raw.toList = '\x22' :: (told ++ (untold ++ ['\x22'])))
    (spells : Quote.double.SpellsAll told values) :
    rawIndex raw values.length = 1 + told.length := by
  have length := congrArg List.length quoted
  simp only [List.length_cons, List.length_append, List.length_nil,
    String.length_toList] at length
  unfold rawIndex
  rw [quoted, List.drop_succ_cons, List.drop_zero,
    spelledWidth_of_spellsAll spells (by simp)]
  omega

/-! ### Places in a text -/

/-- Whether the spelling of the content character of an index begins at a place of a
text, in the string in double quotes that a token is.  Behind the last character the
place is that of the closing quote. -/
def SpelledAt (text : List Char) (token : Token) (content : String) (index place : Nat) : Prop :=
  ∃ before told untold after,
    text = before ++ '\x22' :: (told ++ (untold ++ '\x22' :: after)) ∧
      token.raw.toList = '\x22' :: (told ++ (untold ++ ['\x22'])) ∧
        before.length = token.offset ∧ place = token.offset + (1 + told.length) ∧
          Quote.double.SpellsAll told (content.toList.take index) ∧
            Quote.double.SpellsAll untold (content.toList.drop index)

variable {text : List Char} {token : Token} {content : String} {index place : Nat}

/-- The place that the index of a character leads to is where its spelling begins. -/
theorem spelledAt_rawIndex (stands : token.StandsIn text) (kind : token.kind = .string content .double)
    (inside : index ≤ content.length) :
    SpelledAt text token content index (token.offset + rawIndex token.raw index) := by
  obtain ⟨⟨before, after, split, place⟩, lexical⟩ := stands
  have spelled := (lexical (by simp [kind])).spelled
  rw [kind] at spelled
  obtain ⟨all, quoted, spells⟩ := spelled
  obtain ⟨told, untold, rfl, spellsTold, spellsUntold⟩ := exists_of_spellsAll spells index
  have raw : token.raw.toList = '\x22' :: (told ++ (untold ++ ['\x22'])) := by
    rw [quoted, List.append_assoc]
    rfl
  have counted : (content.toList.take index).length = index := by
    rw [List.length_take, String.length_toList]
    omega
  have leads := rawIndex_eq raw spellsTold
  rw [counted] at leads
  refine ⟨before, told, untold, after, ?_, raw, place, by rw [leads], spellsTold, spellsUntold⟩
  simp [split, raw]

/-- The place lies behind the opening quote, and the closing quote is the last one. -/
theorem SpelledAt.bounds (spelledAt : SpelledAt text token content index place) :
    token.offset < place ∧ place < token.stop := by
  obtain ⟨before, told, untold, after, -, raw, -, rfl, -, -⟩ := spelledAt
  have length := congrArg List.length raw
  simp only [String.length_toList, List.length_cons, List.length_append, List.length_nil] at length
  unfold Token.stop
  omega

end Template

end TemplatedJson
