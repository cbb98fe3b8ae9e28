import TemplatedJson.Command.Basic
import TemplatedJson.Proofs.Lexing.Layout
import TemplatedJson.Proofs.Lexing.Longest
import TemplatedJson.Proofs.Lexing.Unbroken

/-!
# The lines of a listing

A listing shows each token with its offset, its class and its text, and it puts a line feed
between two tokens.  The text of a token is shown as it is.  Only strings in single or back
quotes can hold a line feed, and each one that they hold breaks the line of its token.  As
long as there is none, every line shows one token, and the token can be read back from it.
-/

namespace TemplatedJson

/-- The lines of a text, which are the pieces between its line feeds. -/
def lines (text : String) : List String :=
  (text.toList.splitOn '\n').map String.ofList

/-- How many line feeds a text holds. -/
def breaks (text : String) : Nat :=
  text.toList.count '\n'

theorem breaks_eq_zero_iff {text : String} : breaks text = 0 ↔ '\n' ∉ text.toList :=
  List.count_eq_zero

theorem length_splitOn (separator : Char) (chars : List Char) :
    (chars.splitOn separator).length = chars.count separator + 1 := by
  induction chars with
  | nil => rfl
  | cons first chars ih =>
      rw [List.splitOn_cons_eq_if_modifyHead, List.count_cons]
      split <;> simp [ih]

theorem length_lines (text : String) : (lines text).length = breaks text + 1 := by
  rw [lines, List.length_map, length_splitOn, breaks]

theorem lines_of_unbroken {text : String} (unbroken : breaks text = 0) : lines text = [text] := by
  rw [lines, List.splitOn_eq_singleton (breaks_eq_zero_iff.mp unbroken), List.map_singleton,
    String.ofList_toList]

theorem lines_append (before after : String) :
    lines (before ++ "\n" ++ after) = lines before ++ lines after := by
  have split : (before ++ "\n" ++ after).toList = before.toList ++ '\n' :: after.toList := by
    simp
  rw [lines, split, List.splitOn_append_cons_self, List.map_append]
  rfl

/-- A text that joins others by line feeds has the lines of all of them. -/
theorem lines_intercalate {parts : List String} (nonempty : parts ≠ []) :
    lines (String.intercalate "\n" parts) = parts.flatMap lines := by
  induction parts with
  | nil => exact absurd rfl nonempty
  | cons first others ih =>
      cases others with
      | nil => simp
      | cons second others =>
          rw [String.intercalate_cons_cons, lines_append, ih (by simp)]
          rfl

namespace Token

/-- Whether a token is one that the lexer can answer with, the mark at the end included. -/
def Answered (token : Token) : Prop :=
  token.Lexical ∨ token.shape = (.endOfInput, "")

theorem answered_of_tokenize {text : String} {tokens : List Token}
    (lexed : tokenize text = .ok tokens) : ∀ token ∈ tokens, token.Answered := by
  obtain ⟨body, final, rfl⟩ := exists_of_tokenize lexed
  obtain ⟨last, yields, -⟩ := exists_tokenize_iff.mp ⟨final, lexed⟩
  intro token member
  rcases List.mem_append.mp member with inside | atEnd
  · exact .inl (yields.lexical token inside)
  · rw [List.mem_singleton.mp atEnd]
    exact .inr (shape_of_final lexed)

theorem Answered.exists_quote {token : Token} (answered : token.Answered)
    (broken : breaks token.raw ≠ 0) :
    ∃ content quote, token.kind = .string content quote ∧ quote ≠ .double := by
  have member : '\n' ∈ token.raw.toList := by
    rwa [ne_eq, breaks_eq_zero_iff, Decidable.not_not] at broken
  rcases answered with lexical | shape
  · exact lexical.exists_quote member
  · rw [show token.raw = "" from congrArg Prod.snd shape] at member
    cases member

/-! ### The line of a token -/

/-- The name of a class takes its twelve columns and does not break the line. -/
theorem className_column (kind : Kind) :
    (padRight 12 kind.className).toList.length = 12 ∧
      '\n' ∉ (padRight 12 kind.className).toList := by
  have columns : ∀ name ∈ ["Number", "String", "Boolean", "Null", "Identifier", "Scope", "Dollar",
      "Punctuation", "Operator", "Eof"], (padRight 12 name).toList.length = 12 ∧
        '\n' ∉ (padRight 12 name).toList := by
    decide
  apply columns
  cases kind with
  | symbol symbol => cases symbol <;> decide
  | _ => simp [Kind.className]

/-- The line of a token shows its offset, a label, and its text. -/
theorem Answered.exists_label {token : Token} (answered : token.Answered) :
    ∃ label, token.line.toList = List.replicate (5 - (toString token.offset).length) ' ' ++
        (Nat.toDigits 10 token.offset ++ (' ' :: (label ++ token.raw.toList))) ∧
      '\n' ∉ label ∧ (label ++ token.raw.toList).drop 14 = token.raw.toList := by
  obtain ⟨kind, raw, offset⟩ := token
  by_cases ended : kind = .endOfInput
  · rcases answered with lexical | shape
    · exact absurd ended lexical.ne_endOfInput
    · obtain ⟨rfl, rfl⟩ := Prod.mk.inj shape
      refine ⟨[' ', 'E', 'o', 'f'], ?_, by decide, rfl⟩
      simp [line, padLeft, Nat.toList_repr]
  · obtain ⟨width, unbroken⟩ := className_column kind
    refine ⟨' ' :: (padRight 12 kind.className).toList ++ [' '], ?_, ?_, ?_⟩
    · cases kind <;> simp_all [line, padLeft, Nat.toList_repr]
    · simpa using unbroken
    · rw [List.drop_append, List.drop_of_length_le (by simp [width])]
      simp [width]

/-- A line is broken where the text of its token is. -/
theorem Answered.breaks_line {token : Token} (answered : token.Answered) :
    breaks token.line = breaks token.raw := by
  obtain ⟨label, shown, unbroken, -⟩ := answered.exists_label
  have digits : '\n' ∉ Nat.toDigits 10 token.offset := by
    intro member
    have digit := Nat.isDigit_of_mem_toDigits (by decide) (by decide) member
    cases digit
  rw [breaks, shown, breaks]
  simp only [List.count_append, List.count_cons, List.count_eq_zero.mpr digits,
    List.count_eq_zero.mpr unbroken, List.count_replicate]
  simp

/-- Reads the token back that a line shows.  Its class is skipped, since its text tells what
kind of token it is. -/
def ofLine? (line : String) : Option Token := do
  let shown := line.toList.dropWhile (· = ' ')
  let offset ← Number.natural? (shown.takeWhile Char.isDigit)
  let found ← (tokenize (String.ofList ((shown.dropWhile Char.isDigit).drop 15))).toOption
  found.head?.map fun token => { token with offset }

theorem digits_toDigits (number : Nat) : Digits (Nat.toDigits 10 number) :=
  ⟨Nat.toDigits_ne_nil, fun _ => Nat.isDigit_of_mem_toDigits (by decide) (by decide)⟩

theorem natural?_toDigits (number : Nat) :
    Number.natural? (Nat.toDigits 10 number) = some number := by
  have digits := List.all_eq_true.mpr (digits_toDigits number).2
  simp [Number.natural?, Nat.toDigits_ne_nil, digits,
    Nat.ofDigitChars_toDigits (b := 10) (n := number) (by decide) (by decide)]

/-- Alone, the text of a token is read as the same token. -/
theorem Answered.exists_tokenize_raw {token : Token} (answered : token.Answered) :
    ∃ others, tokenize token.raw = .ok (⟨token.kind, token.raw, 0⟩ :: others) := by
  rcases answered with lexical | shape
  · exact ⟨_, tokenize_of_written lexical⟩
  · obtain ⟨kind, raw, offset⟩ := token
    obtain ⟨rfl, rfl⟩ := Prod.mk.inj shape
    have lexed : tokenize "" = .ok [⟨.endOfInput, "", 0⟩] :=
      eq_ok_of_toOption (by decide +kernel)
    exact ⟨[], lexed⟩

theorem Answered.ofLine?_line {token : Token} (answered : token.Answered) :
    ofLine? token.line = some token := by
  obtain ⟨label, shown, -, behind⟩ := answered.exists_label
  obtain ⟨nonempty, digits⟩ := digits_toDigits token.offset
  obtain ⟨others, lexed⟩ := answered.exists_tokenize_raw
  have trimmed : token.line.toList.dropWhile (· = ' ') =
      Nat.toDigits 10 token.offset ++ (' ' :: (label ++ token.raw.toList)) := by
    rw [shown, List.dropWhile_append_of_pos (by simp [List.mem_replicate])]
    cases begins : Nat.toDigits 10 token.offset with
    | nil => exact absurd begins nonempty
    | cons first more =>
        have notBlank : first ≠ ' ' := by
          rintro rfl
          exact absurd (digits ' ' (by simp [begins])) (by decide)
        simp [notBlank]
  have offset : (Nat.toDigits 10 token.offset ++ (' ' :: (label ++ token.raw.toList))).takeWhile
      Char.isDigit = Nat.toDigits 10 token.offset :=
    takeWhile_append_of_stop digits (by simp)
  have rest : ((Nat.toDigits 10 token.offset ++ (' ' :: (label ++ token.raw.toList))).dropWhile
      Char.isDigit).drop 15 = token.raw.toList := by
    rw [List.dropWhile_append_of_pos digits]
    exact behind
  unfold ofLine?
  simp [trimmed, offset, rest, natural?_toDigits, lexed, Except.toOption]

end Token

/-! ### The listing -/

variable {tokens : List Token}

/-- The lines of a listing are the lines of its tokens, one token after the other. -/
theorem Command.exists_listing {text : String} (lexed : tokenize text = .ok tokens) :
    ∃ listing, Command.tokens text = .ok listing ∧
      lines listing = tokens.flatMap fun token => lines token.line := by
  refine ⟨String.intercalate "\n" (tokens.map Token.line), by simp [Command.tokens, lexed], ?_⟩
  obtain ⟨body, final, rfl⟩ := exists_of_tokenize lexed
  rw [lines_intercalate (by simp), List.flatMap_map]

/-- There is a line for each token, and one more for each line feed in their texts. -/
theorem length_token_lines (answered : ∀ token ∈ tokens, token.Answered) :
    (tokens.flatMap fun token => lines token.line).length =
      tokens.length + (tokens.flatMap fun token => token.raw.toList).count '\n' := by
  induction tokens with
  | nil => rfl
  | cons first others ih =>
      obtain ⟨here, later⟩ := List.forall_mem_cons.mp answered
      rw [List.flatMap_cons, List.length_append, length_lines, here.breaks_line, ih later,
        List.length_cons, List.flatMap_cons, List.count_append, breaks]
      omega

theorem token_lines_of_unbroken (answered : ∀ token ∈ tokens, token.Answered)
    (unbroken : ∀ token ∈ tokens, breaks token.raw = 0) :
    (tokens.flatMap fun token => lines token.line) = tokens.map Token.line := by
  induction tokens with
  | nil => rfl
  | cons first others ih =>
      obtain ⟨here, later⟩ := List.forall_mem_cons.mp answered
      obtain ⟨unbrokenHere, unbrokenLater⟩ := List.forall_mem_cons.mp unbroken
      rw [List.flatMap_cons, ih later unbrokenLater, List.map_cons,
        lines_of_unbroken (here.breaks_line.trans unbrokenHere), List.singleton_append]

/-- A listing has one line for each token exactly if no token holds a line feed, and then each
line shows the token in its place, which can be read back from it.  In general each line feed
in a string in single or back quotes, where alone they can stand, makes one more line. -/
theorem listing_shows_tokens (text : String) (tokens : List Token)
    (lexed : tokenize text = .ok tokens) :
    ∃ listing, Command.tokens text = .ok listing ∧
      lines listing = tokens.flatMap (fun token => lines token.line) ∧
      (lines listing).length =
        tokens.length + (tokens.flatMap fun token => token.raw.toList).count '\n' ∧
      (∀ token ∈ tokens, breaks token.raw ≠ 0 →
        ∃ content quote, token.kind = .string content quote ∧ quote ≠ .double) ∧
      ((lines listing).length = tokens.length ↔ ∀ token ∈ tokens, breaks token.raw = 0) ∧
      ((∀ token ∈ tokens, breaks token.raw = 0) →
        lines listing = tokens.map Token.line ∧
          (lines listing).map Token.ofLine? = tokens.map some) := by
  have answered := Token.answered_of_tokenize lexed
  obtain ⟨listing, listed, shown⟩ := Command.exists_listing lexed
  have length := length_token_lines answered
  refine ⟨listing, listed, shown, by rw [shown, length], ?_, ?_, ?_⟩
  · exact fun token member broken => (answered token member).exists_quote broken
  · rw [shown, length, Nat.add_eq_left, List.count_eq_zero]
    simp [breaks_eq_zero_iff]
  · intro unbroken
    rw [shown, token_lines_of_unbroken answered unbroken, List.map_map]
    exact ⟨rfl, List.map_congr_left fun token member => (answered token member).ofLine?_line⟩

/-- The line feed between the tokens is not shown, so there are as many lines as tokens. -/
theorem listing_shows_tokens_of_call :
    ∃ listing, Command.tokens "f(\n1)" = .ok listing ∧
      lines listing = ["    0  Identifier   f", "    1  Punctuation  (", "    3  Number       1",
        "    4  Punctuation  )", "    5  Eof"] ∧
      (lines listing).length = 5 := by
  have lexed : tokenize "f(\n1)" = .ok [⟨.identifier "f", "f", 0⟩,
      ⟨.symbol .leftParenthesis, "(", 1⟩, ⟨.number, "1", 3⟩, ⟨.symbol .rightParenthesis, ")", 4⟩,
      ⟨.endOfInput, "", 5⟩] :=
    eq_ok_of_toOption (by decide +kernel)
  obtain ⟨listing, listed, -, -, -, count, whole⟩ := listing_shows_tokens _ _ lexed
  have unbroken := count.mpr (by decide)
  refine ⟨listing, listed, (whole (by decide)).1.trans (by decide), unbroken⟩

/-- A line feed inside single quotes breaks the line of the string, so the listing of two
tokens has three lines, and the second one shows no token. -/
theorem listing_broken_by_string :
    ∃ tokens listing, tokenize "\x27a\nb\x27" = .ok tokens ∧
      Command.tokens "\x27a\nb\x27" = .ok listing ∧ tokens.length = 2 ∧
      lines listing = ["    0  String       \x27a", "b\x27", "    5  Eof"] ∧
      Token.ofLine? "b\x27" = none := by
  have lexed : tokenize "\x27a\nb\x27" =
      .ok [⟨.string "a\nb" .single, "\x27a\nb\x27", 0⟩, ⟨.endOfInput, "", 5⟩] :=
    eq_ok_of_toOption (by decide +kernel)
  refine ⟨_, _, lexed, by rw [Command.tokens, lexed], rfl, ?_, rfl⟩
  decide +kernel

end TemplatedJson
