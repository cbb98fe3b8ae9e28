import TemplatedJson.Proofs.Lexing.Written
import TemplatedJson.Proofs.Reading.Tokens

/-!
# Tokens in the characters of a text

A lexer yields tokens one call after the other, and each call passes some blanks
and the text of one token.  A cursor stands at the place of a lexer when it
knows the answers that the lexer gives from there on.  The tokens that the
cursor passes are then those that the lexer yields.
-/

namespace TemplatedJson

/-- Characters that may stand between tokens. -/
def Blanks (chars : List Char) : Prop :=
  ∀ blank ∈ chars, Unicode.isJsonBlank blank

theorem blanks_nil : Blanks [] := by
  simp [Blanks]

theorem blanks_space : Blanks [' '] := by
  simp [Blanks, Unicode.isJsonBlank]

theorem Blanks.append {first second : List Char} (blank : Blanks first)
    (blankSecond : Blanks second) : Blanks (first ++ second) := by
  intro character member
  rcases List.mem_append.mp member with before | after
  · exact blank character before
  · exact blankSecond character after

/-- Whether the text of a token is one that is written for its kind. -/
def Token.Lexical (token : Token) : Prop :=
  Scan.Written token.kind token.raw.toList

namespace Lexer

variable {lexer middle after : Lexer} {token : Token} {tokens others : List Token}
  {blanks chars rest : List Char}

/-! ### One call -/

theorem token_of_blank {first : Char} (blank : Unicode.isJsonBlank first) (others : List Char) :
    Scan.token (first :: others) = .error ⟨.unexpectedCharacter first, 0, 0⟩ := by
  simp only [Unicode.isJsonBlank, Bool.or_eq_true, decide_eq_true_eq] at blank
  rcases blank with ((rfl | rfl) | rfl) | rfl <;> rfl

theorem not_blank_of_token {input : List Char} {result : Token.Kind × Nat}
    (scanned : Scan.token input = .ok result) :
    ∀ first ∈ input.head?, Unicode.isJsonBlank first = false := by
  intro first begins
  cases blank : Unicode.isJsonBlank first with
  | false => rfl
  | true =>
      obtain ⟨others, rfl⟩ := List.head?_eq_some_iff.mp begins
      rw [token_of_blank blank] at scanned
      cases scanned

theorem skipBlanks_of_blanks (text : lexer.rest = blanks ++ rest) (blank : Blanks blanks)
    (stop : ∀ first ∈ rest.head?, Unicode.isJsonBlank first = false) :
    lexer.skipBlanks = ⟨rest, lexer.position + blanks.length⟩ := by
  have passed := takeWhile_append_of_stop blank stop
  simp [skipBlanks, skip, text, passed]

theorem exists_blanks (lexer : Lexer) :
    ∃ blanks, lexer.rest = blanks ++ lexer.skipBlanks.rest ∧ Blanks blanks ∧
      lexer.skipBlanks.position = lexer.position + blanks.length := by
  refine ⟨lexer.rest.takeWhile Unicode.isJsonBlank, ?_, List.all_eq_true.mp List.all_takeWhile, rfl⟩
  rw [List.prefix_iff_eq_take.mp (List.takeWhile_prefix Unicode.isJsonBlank)]
  simp [skipBlanks, skip]

/-- A call that finds a written token after some blanks. -/
theorem next_of_written {kind : Token.Kind} (text : lexer.rest = blanks ++ (chars ++ rest))
    (blank : Blanks blanks) (written : Scan.Written kind chars) (ends : Scan.EndsBefore kind rest) :
    lexer.next = (.ok ⟨kind, String.ofList chars, lexer.position + blanks.length⟩,
      ⟨rest, lexer.position + blanks.length + chars.length⟩) := by
  have scanned := written.token ends
  have start := skipBlanks_of_blanks text blank (not_blank_of_token scanned)
  simp [next, scan, start, scanned, skip]

theorem next_mk_of_written {kind : Token.Kind} (blank : Blanks blanks)
    (written : Scan.Written kind chars) (ends : Scan.EndsBefore kind rest) (position : Nat) :
    (Lexer.mk (blanks ++ (chars ++ rest)) position).next =
      (.ok ⟨kind, String.ofList chars, position + blanks.length⟩,
        ⟨rest, position + blanks.length + chars.length⟩) :=
  next_of_written rfl blank written ends

/-- A call that finds nothing but blanks. -/
theorem next_of_blanks (blank : Blanks lexer.rest) :
    lexer.next = (.ok ⟨.endOfInput, "", lexer.position + lexer.rest.length⟩,
      ⟨[], lexer.position + lexer.rest.length⟩) := by
  have start := @skipBlanks_of_blanks lexer lexer.rest [] (by simp) blank (by simp)
  simp [next, scan, start, Scan.token, skip]

/-- A call that yields a token passes blanks and the text of the token. -/
theorem exists_of_next (read : lexer.next = (.ok token, after))
    (notEnd : token.kind ≠ .endOfInput) :
    ∃ blanks, lexer.rest = blanks ++ (token.raw.toList ++ after.rest) ∧ Blanks blanks ∧
      token.Lexical ∧ token.offset = lexer.position + blanks.length ∧
      after.position = token.stop := by
  obtain ⟨blanks, text, blank, position⟩ := lexer.exists_blanks
  unfold next scan at read
  split at read
  · next kind width scanned =>
      simp only [Prod.mk.injEq, Except.ok.injEq] at read
      obtain ⟨rfl, rfl⟩ := read
      obtain ⟨chars, rest, split, rfl, written⟩ := Scan.covers_of_token scanned notEnd
      have raw : (String.ofList (lexer.skipBlanks.rest.take chars.length)).toList = chars := by
        simp [split]
      refine ⟨blanks, ?_, blank, ?_, position, ?_⟩
      · simp [text, split, skip]
      · unfold Token.Lexical
        rw [raw]
        exact written
      · simp [skip, Token.stop, split]
  · simp at read

/-- At the end of the text nothing but blanks is left. -/
theorem blanks_of_next_end (read : lexer.next = (.ok token, after))
    (ended : token.kind = .endOfInput) : Blanks lexer.rest := by
  obtain ⟨blanks, text, blank, -⟩ := lexer.exists_blanks
  unfold next scan at read
  split at read
  · next kind width scanned =>
      simp only [Prod.mk.injEq, Except.ok.injEq] at read
      obtain ⟨rfl, rfl⟩ := read
      cases remaining : lexer.skipBlanks.rest with
      | nil => rwa [text, remaining, List.append_nil]
      | cons first others =>
          rw [remaining] at scanned
          exact absurd ended (Scan.token_cons scanned).2
  · simp at read

end Lexer

/-! ### The stream of a lexer -/

theorem TokenStream.ext {first second : TokenStream} (pending : first.pending = second.pending)
    (settled : first.settled = second.settled) : first = second := by
  obtain ⟨firstPending, firstSettled, _, _⟩ := first
  obtain ⟨secondPending, secondSettled, _, _⟩ := second
  cases pending
  cases settled
  rfl

namespace Lexer

variable {lexer : Lexer}

theorem rest_skipBlanks (lexer : Lexer) :
    lexer.skipBlanks.rest = lexer.rest.dropWhile Unicode.isJsonBlank := by
  have split := @List.takeWhile_append_dropWhile _ Unicode.isJsonBlank lexer.rest
  unfold skipBlanks skip
  dsimp only
  conv => lhs; arg 2; rw [← split]
  exact List.drop_left

/-- After the blanks there are none to skip. -/
theorem skipBlanks_skipBlanks (lexer : Lexer) :
    lexer.skipBlanks.skipBlanks = lexer.skipBlanks := by
  have none : lexer.skipBlanks.rest.takeWhile Unicode.isJsonBlank = [] := by
    rw [rest_skipBlanks]
    cases left : lexer.rest.dropWhile Unicode.isJsonBlank with
    | nil => rfl
    | cons first others =>
        have notBlank := List.head?_dropWhile_not Unicode.isJsonBlank lexer.rest
        simp only [left, List.head?_cons] at notBlank
        simp [notBlank]
  generalize lexer.skipBlanks = skipped at none
  simp [skipBlanks, skip, none]

/-- A call that passes nothing but blanks leaves the lexer after them. -/
theorem next_of_stays (stays : ¬ lexer.skipBlanks.position < lexer.next.2.position) :
    lexer.next.2 = lexer.skipBlanks := by
  obtain ⟨count, moved⟩ := lexer.skipBlanks.scan_eq_skip
  have same : lexer.next.2 = lexer.skipBlanks.skip count := moved
  rw [same] at stays ⊢
  have zero : count = 0 := by simpa [skip] using stays
  rw [zero]
  rfl

/-- The stream of a lexer goes on with the stream of the lexer after one call. -/
theorem stream_next (lexer : Lexer) :
    lexer.stream.next = (lexer.next.1, lexer.next.2.stream) := by
  by_cases moves : lexer.skipBlanks.position < lexer.next.2.position
  · exact stream_of_moves moves
  · obtain ⟨pending, settled⟩ := stream_of_stays moves
    have after := next_of_stays moves
    -- The next call starts at the same place, so it gives the same answer and stays too.
    have again : lexer.next.2.next = lexer.next := by
      rw [after, next, next, skipBlanks_skipBlanks]
    have staysAgain : ¬ lexer.next.2.skipBlanks.position < lexer.next.2.next.2.position := by
      rw [again, after, skipBlanks_skipBlanks]
      exact Nat.lt_irrefl _
    obtain ⟨pendingAgain, settledAgain⟩ := stream_of_stays staysAgain
    rw [TokenStream.next_of_nil pending, settled]
    refine Prod.ext rfl (TokenStream.ext ?_ ?_)
    · rw [pending, pendingAgain]
    · rw [settled, settledAgain, again]

end Lexer

/-! ### Cursors at the place of a lexer -/

/-- Whether a cursor stands at the first token that a lexer yields. -/
def Cursor.StandsAt (cursor : Cursor) (lexer : Lexer) : Prop :=
  cursor.StandsIn lexer.stream

namespace Cursor

variable {cursor after : Cursor} {lexer middle : Lexer} {token : Token}

/-- Where the next call yields a token, a cursor can stand. -/
theorem exists_standsAt (read : lexer.next = (.ok token, middle)) (depth : Nat)
    (sightings : List Template.Sighting) :
    ∃ cursor : Cursor, cursor.StandsAt lexer ∧ cursor.current = token ∧ cursor.depth = depth ∧
      cursor.sightings = sightings := by
  have onward := lexer.stream_next
  rw [read] at onward
  exact ⟨⟨token, middle.stream, depth, sightings⟩, onward, rfl, rfl, rfl⟩

theorem StandsAt.next (stands : cursor.StandsAt lexer) :
    ∃ middle, lexer.next = (.ok cursor.current, middle) := by
  have onward := lexer.stream_next
  rw [stands, Prod.mk.injEq] at onward
  exact ⟨lexer.next.2, Prod.ext onward.1.symm rfl⟩

/-- Stepping over a token is what a call of the lexer does. -/
theorem StandsAt.following?_eq_some_iff (stands : cursor.StandsAt lexer)
    (read : lexer.next = (.ok cursor.current, middle)) :
    cursor.following? = some after ↔
      after.StandsAt middle ∧ after.depth = cursor.depth ∧ after.sightings = cursor.sightings := by
  have onward := lexer.stream_next
  rw [stands, read, Prod.mk.injEq] at onward
  rw [Cursor.following?_eq_some_iff, onward.2]
  rfl

/-- Stepping over a token passes blanks and the text of the token. -/
theorem StandsAt.step (stands : cursor.StandsAt lexer) (notEnd : cursor.current.kind ≠ .endOfInput)
    (known : cursor.following? = some after) :
    ∃ blanks last, lexer.rest = blanks ++ (cursor.current.raw.toList ++ last.rest) ∧
      Blanks blanks ∧ cursor.current.Lexical ∧
      cursor.current.offset = lexer.position + blanks.length ∧
      last.position = cursor.current.stop ∧ after.StandsAt last ∧ after.depth = cursor.depth := by
  obtain ⟨middle, read⟩ := stands.next
  obtain ⟨standsAfter, depth, -⟩ := (stands.following?_eq_some_iff read).mp known
  obtain ⟨blanks, text, blank, lexical, offset, position⟩ := Lexer.exists_of_next read notEnd
  exact ⟨blanks, middle, text, blank, lexical, offset, position, standsAfter, depth⟩

/-- Stepping over a symbol passes blanks and the spelling of the symbol. -/
theorem StandsAt.step_symbol (stands : cursor.StandsAt lexer) {symbol : Symbol}
    (kind : cursor.current.kind = .symbol symbol) (known : cursor.following? = some after) :
    ∃ blanks last, lexer.rest = blanks ++ (symbol.text.toList ++ last.rest) ∧ Blanks blanks ∧
      after.StandsAt last ∧ after.depth = cursor.depth := by
  obtain ⟨blanks, last, text, blank, lexical, -, -, standsLast, depth⟩ :=
    stands.step (by simp [kind]) known
  have spelled := lexical.spelled
  rw [kind] at spelled
  have raw : cursor.current.raw.toList = symbol.text.toList := spelled
  exact ⟨blanks, last, by rw [← raw]; exact text, blank, standsLast, depth⟩

end Cursor

/-! ### Several calls -/

/-- Calls in a row that yield the given tokens, none of which marks the end. -/
inductive Lexer.Yields : Lexer → List Token → Lexer → Prop where
  | none (lexer : Lexer) : Yields lexer [] lexer
  | token {lexer middle after : Lexer} {token : Token} {tokens : List Token} :
      lexer.next = (.ok token, middle) → token.kind ≠ .endOfInput →
        Yields middle tokens after → Yields lexer (token :: tokens) after

namespace Lexer.Yields

variable {lexer middle last : Lexer} {token : Token} {tokens others : List Token}

theorem append (first : lexer.Yields tokens middle) (second : middle.Yields others last) :
    lexer.Yields (tokens ++ others) last := by
  induction first with
  | none lexer => exact second
  | token read notEnd _ ih => exact .token read notEnd (ih second)

theorem exists_of_append (yields : lexer.Yields (tokens ++ others) last) :
    ∃ middle, lexer.Yields tokens middle ∧ middle.Yields others last := by
  induction tokens generalizing lexer with
  | nil => exact ⟨lexer, .none lexer, yields⟩
  | cons token tokens ih =>
      cases yields with
      | token read notEnd later =>
          obtain ⟨middle, first, second⟩ := ih later
          exact ⟨middle, .token read notEnd first, second⟩

theorem lexical (yields : lexer.Yields tokens last) : ∀ token ∈ tokens, token.Lexical := by
  induction yields with
  | none lexer => simp
  | token read notEnd _ ih =>
      obtain ⟨_, -, -, written, -⟩ := exists_of_next read notEnd
      exact List.forall_mem_cons.mpr ⟨written, ih⟩

/-- No more tokens are yielded than characters are passed. -/
theorem length_le (yields : lexer.Yields tokens last) :
    tokens.length + last.rest.length ≤ lexer.rest.length := by
  induction yields with
  | none lexer => simp
  | token read notEnd _ ih =>
      obtain ⟨blanks, text, -, written, -⟩ := exists_of_next read notEnd
      have positive := written.length_pos
      simp only [text, List.length_append, List.length_cons]
      omega

end Lexer.Yields

variable {lexer last : Lexer} {cursor after : Cursor} {tokens : List Token}

theorem Cursor.Passes.yields (passed : cursor.Passes tokens after)
    (stands : cursor.StandsAt lexer) : ∃ last, lexer.Yields tokens last ∧ after.StandsAt last := by
  induction passed generalizing lexer with
  | none cursor => exact ⟨lexer, .none lexer, stands⟩
  | token notEnd known _ ih =>
      obtain ⟨middle, read⟩ := stands.next
      obtain ⟨last, yields, standsLast⟩ :=
        ih ((stands.following?_eq_some_iff read).mp known).1
      exact ⟨last, .token read notEnd yields, standsLast⟩

theorem Lexer.Yields.passes (yields : lexer.Yields tokens last) (standsLast : after.StandsAt last) :
    ∃ cursor : Cursor, cursor.StandsAt lexer ∧ cursor.Passes tokens after ∧
      cursor.depth = after.depth ∧ cursor.sightings = after.sightings := by
  induction yields with
  | none lexer => exact ⟨after, standsLast, .none after, rfl, rfl⟩
  | token read notEnd _ ih =>
      obtain ⟨middle, standsMiddle, passed, depth, sightings⟩ := ih standsLast
      obtain ⟨cursor, stands, rfl, sameDepth, sameSightings⟩ :=
        Cursor.exists_standsAt read after.depth after.sightings
      have known := (stands.following?_eq_some_iff read).mpr
        ⟨standsMiddle, depth.trans sameDepth.symm, sightings.trans sameSightings.symm⟩
      exact ⟨cursor, stands, .token notEnd known passed, sameDepth, sameSightings⟩

/-- The tokens of a text are those that its lexer yields until nothing but
blanks is left. -/
theorem exists_tokenize_iff {text : String} :
    (∃ final, tokenize text = .ok (tokens ++ [final])) ↔
      ∃ last, (Lexer.ofText text).Yields tokens last ∧ Blanks last.rest := by
  constructor
  · rintro ⟨final, lexed⟩
    obtain ⟨cursor, after, located, passed, rfl, ended⟩ := (tokenize_eq_ok_iff 0).mp lexed
    have stands : cursor.StandsAt (Lexer.ofText text) := (Cursor.ofText_eq_ok_iff.mp located).1
    obtain ⟨last, yields, standsLast⟩ := passed.yields stands
    obtain ⟨_, read⟩ := standsLast.next
    exact ⟨last, yields, Lexer.blanks_of_next_end read ended⟩
  · rintro ⟨last, yields, blank⟩
    obtain ⟨after, standsLast, current, depth, sightings⟩ :=
      Cursor.exists_standsAt (Lexer.next_of_blanks blank) 0 []
    obtain ⟨cursor, stands, passed, sameDepth, sameSightings⟩ := yields.passes standsLast
    have located : Cursor.ofText text 0 = .ok cursor :=
      Cursor.ofText_eq_ok_iff.mpr ⟨stands, sameDepth.trans depth, sameSightings.trans sightings⟩
    exact ⟨after.current, (tokenize_eq_ok_iff 0).mpr
      ⟨cursor, after, located, passed, rfl, by rw [current]⟩⟩

end TemplatedJson
