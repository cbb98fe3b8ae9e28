import TemplatedJson.Proofs.Lexing.Eager
import TemplatedJson.Proofs.Lexing.Munch
import TemplatedJson.Proofs.Lexing.Answers

/-!
# Every call answers with the longest token

The grammar of tokens says which texts are written for a token of which kind.  Wherever the
calls before have left the lexer, it answers with a token where some prefix of the text that
is left is written for one, and the token is then the longest such prefix.
-/

namespace TemplatedJson

namespace Scan

variable {kind : Token.Kind} {chars input : List Char} {width : Nat}

/-- Whether a prefix of a text is written for a kind of token, and no longer prefix is
written for any token. -/
structure Longest (input : List Char) (kind : Token.Kind) (chars : List Char) : Prop where
  written : Written kind chars
  begins : chars <+: input
  longest : ∀ other longer, Written other longer → longer <+: input → longer.length ≤ chars.length

theorem token_eq_ok_iff_longest (notEnd : kind ≠ .endOfInput) :
    Scan.token input = .ok (kind, width) ↔ Longest input kind (input.take width) ∧
      width ≤ input.length := by
  rw [token_eq_ok_iff notEnd]
  constructor
  · rintro ⟨⟨chars, rest, rfl, rfl, written⟩, longest⟩
    rw [List.take_left, List.length_append]
    exact ⟨⟨written, List.prefix_append chars rest, longest⟩, Nat.le_add_right _ _⟩
  · rintro ⟨⟨written, begins, longest⟩, inside⟩
    rw [List.length_take_of_le inside] at longest
    exact ⟨⟨_, _, (List.take_append_drop width input).symm,
      (List.length_take_of_le inside).symm, written⟩, longest⟩

/-- Where a prefix is written for a token, there is a longest one. -/
theorem exists_longest (written : Written kind chars) (begins : chars <+: input) :
    ∃ found longest, Longest input found longest := by
  obtain ⟨rest, rfl⟩ := begins
  obtain ⟨found, width, scanned, enough⟩ := written.exists_token rest
  have notEnd : found ≠ .endOfInput := by
    have positive := written.length_pos
    cases chars with
    | nil => simp at positive
    | cons first others => exact (token_cons scanned).2
  exact ⟨found, _, ((token_eq_ok_iff_longest notEnd).mp scanned).1⟩

end Scan

/-- A text of a single token is read as that token. -/
theorem tokenize_of_written {kind : Token.Kind} {raw : String}
    (written : Scan.Written kind raw.toList) :
    tokenize raw = .ok [⟨kind, raw, 0⟩, ⟨.endOfInput, "", raw.length⟩] := by
  have ends := Scan.endsBefore_of_stops kind Scan.stops_nil (by simp)
  have read := @Lexer.next_of_written (Lexer.ofText raw) [] raw.toList [] kind
    (by simp [Lexer.ofText]) blanks_nil written ends
  have yields := Lexer.Yields.token read written.ne_endOfInput (.none _)
  rw [tokenize_of_yields yields blanks_nil]
  simp [Lexer.finalToken, Lexer.ofText, String.length_toList]

namespace Lexer

variable {lexer : Lexer} {token : Token} {kind : Token.Kind} {chars : List Char}

/-- A call answers with the longest token behind the blanks, or with the mark at the end of
the text where nothing but blanks is left. -/
theorem next_eq_ok_iff :
    lexer.next.1 = .ok token ↔ token.offset = lexer.skipBlanks.position ∧
      (Scan.Longest lexer.skipBlanks.rest token.kind token.raw.toList ∨
        lexer.skipBlanks.rest = [] ∧ token.kind = .endOfInput ∧ token.raw = "") := by
  unfold next
  generalize lexer.skipBlanks = start
  constructor
  · intro answered
    unfold scan at answered
    split at answered
    · next kind width scanned =>
        obtain rfl := Except.ok.inj answered
        refine ⟨rfl, ?_⟩
        by_cases ended : kind = .endOfInput
        · subst ended
          cases left : start.rest with
          | nil => exact .inr ⟨rfl, rfl, by simp⟩
          | cons first others =>
              rw [left] at scanned
              exact absurd rfl (Scan.token_cons scanned).2
        · rw [String.toList_ofList]
          exact .inl ((Scan.token_eq_ok_iff_longest ended).mp scanned).1
    · cases answered
  · obtain ⟨kind, raw, offset⟩ := token
    rintro ⟨rfl, longest | ⟨ended, rfl, rfl⟩⟩
    · have raw_eq := List.prefix_iff_eq_take.mp longest.begins
      have scanned := (Scan.token_eq_ok_iff_longest longest.written.ne_endOfInput).mpr
        ⟨raw_eq ▸ longest, longest.begins.length_le⟩
      simp [scan, scanned, ← raw_eq]
    · simp [scan, ended, Scan.token]

/-- A call answers with some token where one is written, and at the end of the text. -/
theorem exists_next_eq_ok_iff :
    (∃ token, lexer.next.1 = .ok token) ↔ lexer.skipBlanks.rest = [] ∨
      ∃ kind chars, Scan.Written kind chars ∧ chars <+: lexer.skipBlanks.rest := by
  simp only [next_eq_ok_iff]
  constructor
  · rintro ⟨token, -, longest | ⟨ended, -⟩⟩
    · exact .inr ⟨_, _, longest.written, longest.begins⟩
    · exact .inl ended
  · rintro (ended | ⟨kind, chars, written, begins⟩)
    · exact ⟨⟨.endOfInput, "", _⟩, rfl, .inr ⟨ended, rfl, rfl⟩⟩
    · obtain ⟨found, most, longest⟩ := Scan.exists_longest written begins
      exact ⟨⟨found, String.ofList most, _⟩, rfl, .inl (by rwa [String.toList_ofList])⟩

end Lexer

/-- The lexer reads the longest token.  Whatever calls came before, and with whatever
answers, a call skips the blanks where the lexer stands.  It answers with a token exactly
where a prefix of what is left is written for one (or where nothing is left), the text of
the token is the longest such prefix, and its kind is the only one that this text is written
for.  Alone, the text is read as the same token and the end. -/
theorem next_answers_longest (text : String) (calls : Nat) :
    ∃ before blanks rest, text.toList = before ++ (blanks ++ rest) ∧
      before.length = ((Lexer.ofText text).after calls).position ∧ Blanks blanks ∧
      (∀ first ∈ rest.head?, Unicode.isJsonBlank first = false) ∧
      ((∃ token, ((Lexer.ofText text).after calls).next.1 = .ok token) ↔
        rest = [] ∨ ∃ kind chars, Scan.Written kind chars ∧ chars <+: rest) ∧
      ∀ token, ((Lexer.ofText text).after calls).next.1 = .ok token ↔
        token.offset = before.length + blanks.length ∧
          (rest = [] ∧ token.kind = .endOfInput ∧ token.raw = "" ∨
            Scan.Longest rest token.kind token.raw.toList ∧
              (∀ kind, Scan.Written kind token.raw.toList ↔ kind = token.kind) ∧
              tokenize token.raw =
                .ok [⟨token.kind, token.raw, 0⟩, ⟨.endOfInput, "", token.raw.length⟩]) := by
  obtain ⟨before, split, position⟩ := (Lexer.standsIn_ofText text).after calls
  generalize (Lexer.ofText text).after calls = lexer at split position
  obtain ⟨blanks, skipped, blank, start⟩ := lexer.exists_blanks
  refine ⟨before, blanks, lexer.skipBlanks.rest, by rw [split, ← skipped], position, blank, ?_,
    Lexer.exists_next_eq_ok_iff, fun token => ?_⟩
  · rw [Lexer.rest_skipBlanks]
    intro first begins
    have notBlank := List.head?_dropWhile_not Unicode.isJsonBlank lexer.rest
    rw [Option.mem_def.mp begins] at notBlank
    simpa using notBlank
  · rw [Lexer.next_eq_ok_iff, start, position, or_comm]
    refine and_congr_right fun _ => or_congr_right ⟨fun longest => ?_, And.left⟩
    refine ⟨longest, fun kind => ⟨fun written => written.unique longest.written, ?_⟩,
      tokenize_of_written longest.written⟩
    rintro rfl
    exact longest.written

/-- Behind an unknown escape the lexer goes on, and an exponent without digits is left out
of the number. -/
theorem next_answers_longest_number :
    ((Lexer.ofText "\"\\q 12e+").after 2).next.1 = .ok ⟨.number, "12", 4⟩ ∧
      tokenize "12" = .ok [⟨.number, "12", 0⟩, ⟨.endOfInput, "", 2⟩] := by
  have answered : ((Lexer.ofText "\"\\q 12e+").after 2).next.1 = .ok ⟨.number, "12", 4⟩ :=
    eq_ok_of_toOption (by decide +kernel)
  obtain ⟨_, _, _, -, -, -, -, -, answers⟩ := next_answers_longest "\"\\q 12e+" 2
  obtain ⟨-, ⟨-, ended, -⟩ | ⟨-, -, alone⟩⟩ := (answers _).mp answered
  · cases ended
  · exact ⟨answered, alone⟩

end TemplatedJson
