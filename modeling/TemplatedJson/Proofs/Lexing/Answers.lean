import TemplatedJson.Proofs.Lexing.Yields

/-!
# All answers of a lexer

A lexer that met a fault goes on from the place where the fault left it, and that
place lies in the text.  So every answer that it will ever give concerns the text:
a token stands there, and a fault was met there.  The stream of a lexer holds these
answers and no others.
-/

namespace TemplatedJson

/-! ### Faults -/

theorem length_hexDigits_le_length (count : Nat) (input : List Char) :
    (hexDigits count input).length ≤ input.length := by
  induction count generalizing input with
  | zero => simp [hexDigits]
  | succ count ih =>
      cases input with
      | nil => simp [hexDigits]
      | cons character input =>
          cases known : hexDigit? character with
          | none => simp [hexDigits, known]
          | some value => simpa [hexDigits, known] using ih input

/-- A numeric escape with a fault ends within the text. -/
theorem le_length_of_unicodeEscape {input : List Char} {read : Nat}
    (failed : unicodeEscape input = .error read) : read ≤ input.length := by
  have first := length_hexDigits_le_length 4 input
  unfold unicodeEscape at failed
  dsimp only at failed
  split at failed
  · obtain rfl := Except.error.inj failed
    exact first
  split at failed
  · obtain rfl := Except.error.inj failed
    omega
  split at failed
  · cases failed
  split at failed
  · next rest dropped =>
      have whole := congrArg List.length dropped
      have second := length_hexDigits_le_length 4 rest
      simp only [List.length_drop, List.length_cons] at whole
      split at failed
      · obtain rfl := Except.error.inj failed
        omega
      split at failed
      · cases failed
      · obtain rfl := Except.error.inj failed
        omega
  · obtain rfl := Except.error.inj failed
    omega

/-- How many characters the lexer passes of what ends a string with a fault. -/
def Ending.passed : Ending → Nat
  | .badEscape _ width => width
  | .closed | .control _ | .unterminated => 0

theorem Quote.passed_le_of_spelling {quote : Quote} {input : List Char} {ending : Ending}
    (read : quote.spelling input = .ending ending) : ending.passed ≤ input.length := by
  unfold Quote.spelling at read
  split at read
  · obtain rfl := Spelling.ending.inj read
    exact Nat.zero_le _
  · obtain rfl := Spelling.ending.inj read
    exact Nat.zero_le _
  · split at read
    · cases read
    · next failed =>
        obtain rfl := Spelling.ending.inj read
        have inside := le_length_of_unicodeEscape failed
        simpa [Ending.passed] using inside
  · split at read
    · cases read
    · obtain rfl := Spelling.ending.inj read
      simp [Ending.passed]
  · split at read
    · obtain rfl := Spelling.ending.inj read
      exact Nat.zero_le _
    · split at read
      · obtain rfl := Spelling.ending.inj read
        exact Nat.zero_le _
      · cases read

/-- What is passed of the inside of a string lies in the text. -/
theorem Quote.passed_le_of_content {quote : Quote} {input : List Char}
    {content : List (Char × Nat)} {ending : Ending}
    (read : quote.content input = (content, ending)) :
    Quote.contentWidth content + ending.passed ≤ input.length := by
  induction content generalizing input with
  | nil =>
      cases step : quote.spelling input with
      | character value width => simp [content_of_character step] at read
      | ending found =>
          simp only [content_of_ending step, Prod.mk.injEq, true_and] at read
          subst read
          simpa [contentWidth] using passed_le_of_spelling step
  | cons first content ih =>
      cases step : quote.spelling input with
      | ending found => simp [content_of_ending step] at read
      | character value width =>
          simp only [content_of_character step, Prod.mk.injEq, List.cons.injEq] at read
          obtain ⟨⟨rfl, inside⟩, ended⟩ := read
          have later := ih (Prod.ext inside ended)
          obtain ⟨chars, rest, rfl, rfl, -⟩ := exists_of_spelling step
          simp only [List.drop_left, List.length_append, contentWidth] at later ⊢
          omega

/-- Whether a fault lies in the spelling of a token and in a text of the given
length, of which the lexer passes no more than there is. -/
structure Scan.Fault.Within (length : Nat) (fault : Scan.Fault) : Prop where
  lexical : fault.cause.isLexical
  place : fault.place ≤ length
  passed : fault.passed ≤ length

theorem Scan.fault_within_of_string {quote : Quote} {inside : List Char} {fault : Scan.Fault}
    (failed : Scan.string quote inside = .error fault) : fault.Within (inside.length + 1) := by
  have bound := @Quote.passed_le_of_content quote inside _ _ rfl
  unfold Scan.string at failed
  dsimp only at failed
  split at failed
  · cases failed
  · obtain rfl := Except.error.inj failed
    have inText := Nat.le_trans (Nat.le_add_right _ _) bound
    exact ⟨rfl, Nat.succ_le_succ inText, Nat.succ_le_succ inText⟩
  · next ended =>
      obtain rfl := Except.error.inj failed
      rw [ended] at bound
      simp only [Ending.passed] at bound
      refine ⟨rfl, ?_, ?_⟩
      all_goals
        dsimp only
        omega
  · obtain rfl := Except.error.inj failed
    exact ⟨rfl, Nat.zero_le _, Nat.le_refl _⟩

theorem Scan.fault_within_of_token {input : List Char} {fault : Scan.Fault}
    (failed : Scan.token input = .error fault) : fault.Within input.length := by
  unfold Scan.token at failed
  split at failed
  · cases failed
  split at failed
  · exact Scan.fault_within_of_string failed
  · repeat' split at failed
    all_goals cases failed
    exact ⟨rfl, Nat.zero_le _, Nat.zero_le _⟩

namespace Lexer

variable {lexer : Lexer}

theorem stream_of_next (moves : lexer.skipBlanks.position < lexer.next.2.position) :
    lexer.stream.pending = lexer.next.1 :: lexer.next.2.stream.pending ∧
      lexer.stream.settled = lexer.next.2.stream.settled := by
  rw [stream]
  split
  next answer after read =>
    change lexer.next = (answer, after) at read
    rw [read] at moves ⊢
    rw [dif_pos moves]
    exact ⟨rfl, rfl⟩

/-- A lexer answers no more often before it comes to rest than there are characters. -/
theorem length_pending_le (lexer : Lexer) : lexer.stream.pending.length ≤ lexer.rest.length := by
  by_cases moves : lexer.skipBlanks.position < lexer.next.2.position
  · have shorter : lexer.next.2.rest.length < lexer.rest.length := next_shortens rfl moves
    have later := length_pending_le lexer.next.2
    rw [(stream_of_next moves).1, List.length_cons]
    omega
  · rw [(stream_of_stays moves).1]
    exact Nat.zero_le _
termination_by lexer.rest.length

/-! ### Calls in a row -/

/-- The lexer after a number of calls. -/
def after : (calls : Nat) → Lexer → Lexer
  | 0, lexer => lexer
  | calls + 1, lexer => after calls lexer.next.2

/-- One more call answers where the calls before it left the lexer. -/
theorem answers_succ (calls : Nat) (lexer : Lexer) :
    lexer.answers (calls + 1) = lexer.answers calls ++ [(lexer.after calls).next.1] ∧
      lexer.after (calls + 1) = (lexer.after calls).next.2 := by
  induction calls generalizing lexer with
  | zero => exact ⟨rfl, rfl⟩
  | succ calls ih =>
      obtain ⟨answers, after⟩ := ih lexer.next.2
      refine ⟨?_, after⟩
      change lexer.next.1 :: lexer.next.2.answers (calls + 1) = _
      rw [answers]
      rfl

end Lexer

/-! ### Answers in a text -/

/-- Whether a token stands in a text at its offset, and is written there if it does
not mark the end. -/
def Token.StandsIn (text : List Char) (token : Token) : Prop :=
  (∃ before after, text = before ++ (token.raw.toList ++ after) ∧ before.length = token.offset) ∧
    (token.kind ≠ .endOfInput → token.Lexical)

namespace Token.StandsIn

variable {text : List Char} {token : Token}

theorem stop_le (stands : token.StandsIn text) : token.stop ≤ text.length := by
  obtain ⟨⟨before, after, rfl, place⟩, -⟩ := stands
  simp only [Token.stop, List.length_append, String.length_toList]
  omega

/-- The content of a string is no longer than its token. -/
theorem length_content_le (stands : token.StandsIn text) {content : String} {quote : Quote}
    (kind : token.kind = .string content quote) : content.length ≤ token.raw.length := by
  have spelled := (stands.2 (by simp [kind])).spelled
  rw [kind] at spelled
  obtain ⟨inside, quoted, spells⟩ := spelled
  have length := congrArg List.length quoted
  have shorter := spells.length_le
  simp only [List.length_cons, List.length_append, List.length_nil, String.length_toList] at length
  rw [String.length_toList] at shorter
  omega

end Token.StandsIn

/-- Whether an answer concerns a text: a token stands there, or the spelling of one
has a fault there. -/
def LexerAnswer.Concerns (text : List Char) : LexerAnswer → Prop
  | .ok token => token.StandsIn text
  | .error error => error.isLexical ∧ error.offset ≤ text.length

/-- Whether all answers of a stream have a property. -/
def TokenStream.All (holds : LexerAnswer → Prop) (stream : TokenStream) : Prop :=
  (∀ answer ∈ stream.pending, holds answer) ∧ holds stream.settled

theorem TokenStream.All.next {holds : LexerAnswer → Prop} {stream : TokenStream}
    (all : stream.All holds) : holds stream.next.1 ∧ stream.next.2.All holds := by
  cases pending : stream.pending with
  | nil =>
      rw [TokenStream.next_of_nil pending]
      exact ⟨all.2, all⟩
  | cons answer rest =>
      obtain ⟨first, later, settled⟩ := TokenStream.next_of_cons pending
      obtain ⟨known, knownLater⟩ := List.forall_mem_cons.mp (pending ▸ all.1)
      refine ⟨first ▸ known, ?_, ?_⟩
      · rwa [later]
      · rw [settled]
        exact all.2

namespace Lexer

variable {lexer : Lexer} {text : List Char}

/-- Whether a lexer stands at its position in a text. -/
def StandsIn (text : List Char) (lexer : Lexer) : Prop :=
  ∃ before, text = before ++ lexer.rest ∧ before.length = lexer.position

theorem standsIn_ofText (text : String) : (ofText text).StandsIn text.toList :=
  ⟨[], rfl, rfl⟩

theorem StandsIn.length_rest_le (stands : lexer.StandsIn text) :
    lexer.rest.length ≤ text.length := by
  obtain ⟨before, rfl, -⟩ := stands
  rw [List.length_append]
  exact Nat.le_add_left _ _

theorem StandsIn.skip (stands : lexer.StandsIn text) {count : Nat}
    (inside : count ≤ lexer.rest.length) : (lexer.skip count).StandsIn text := by
  obtain ⟨before, rfl, position⟩ := stands
  refine ⟨before ++ lexer.rest.take count, ?_, ?_⟩
  · simp [Lexer.skip]
  · simp only [Lexer.skip, List.length_append, List.length_take]
    omega

theorem StandsIn.skipBlanks (stands : lexer.StandsIn text) : lexer.skipBlanks.StandsIn text :=
  stands.skip (List.takeWhile_sublist _).length_le

/-- The answer to a call concerns the text, and the lexer stays in it. -/
theorem StandsIn.next (stands : lexer.StandsIn text) :
    lexer.next.1.Concerns text ∧ lexer.next.2.StandsIn text := by
  have start := stands.skipBlanks
  obtain ⟨before, split, position⟩ := id start
  unfold Lexer.next scan
  split
  · next kind width scanned =>
      by_cases ended : kind = .endOfInput
      · subst ended
        cases left : lexer.skipBlanks.rest with
        | cons first others =>
            rw [left] at scanned
            exact absurd rfl (Scan.token_cons scanned).2
        | nil =>
            rw [left] at scanned split
            obtain ⟨-, rfl⟩ := Prod.mk.inj (Except.ok.inj scanned)
            exact ⟨⟨⟨before, [], by simpa using split, position⟩, fun notEnd => absurd rfl notEnd⟩,
              start.skip (Nat.zero_le _)⟩
      · obtain ⟨chars, rest, text, rfl, written⟩ := Scan.covers_of_token scanned ended
        have raw : (String.ofList (lexer.skipBlanks.rest.take chars.length)).toList = chars := by
          simp [text]
        refine ⟨⟨⟨before, rest, ?_, position⟩, fun _ => ?_⟩, start.skip (by simp [text])⟩
        · rw [raw, ← text]
          exact split
        · unfold Token.Lexical
          rw [raw]
          exact written
  · next fault failed =>
      have within := Scan.fault_within_of_token failed
      refine ⟨⟨within.lexical, ?_⟩, start.skip within.passed⟩
      have length := congrArg List.length split
      have place := within.place
      rw [List.length_append, position] at length
      dsimp only
      omega

theorem StandsIn.after {lexer : Lexer} (stands : lexer.StandsIn text) (calls : Nat) :
    (lexer.after calls).StandsIn text := by
  induction calls generalizing lexer with
  | zero => exact stands
  | succ calls ih => exact ih stands.next.2

/-- All answers that a lexer in a text will ever give concern the text. -/
theorem StandsIn.all {lexer : Lexer} (stands : lexer.StandsIn text) :
    lexer.stream.All (LexerAnswer.Concerns text) := by
  obtain ⟨concerns, later⟩ := stands.next
  by_cases moves : lexer.skipBlanks.position < lexer.next.2.position
  · have shorter : lexer.next.2.rest.length < lexer.rest.length := next_shortens rfl moves
    obtain ⟨pending, settled⟩ := stream_of_next moves
    have all := StandsIn.all later
    refine ⟨?_, settled ▸ all.2⟩
    rw [pending]
    exact List.forall_mem_cons.mpr ⟨concerns, all.1⟩
  · obtain ⟨pending, settled⟩ := stream_of_stays moves
    exact ⟨by simp [pending], settled ▸ concerns⟩
termination_by lexer.rest.length

end Lexer

/-! ### What a cursor will see -/

namespace Cursor

variable {cursor : Cursor} {holds : LexerAnswer → Prop}

/-- Whether the current token and all answers behind it have a property. -/
def Sees (holds : LexerAnswer → Prop) (cursor : Cursor) : Prop :=
  holds (.ok cursor.current) ∧ cursor.upcoming.All holds

theorem Sees.of_ok (sees : cursor.Sees holds) {token : Token} {upcoming : TokenStream}
    (answered : cursor.upcoming.next = (.ok token, upcoming)) :
    holds (.ok token) ∧ upcoming.All holds := by
  have next := sees.2.next
  rwa [answered] at next

theorem Sees.of_error (sees : cursor.Sees holds) {error : ParseError} {upcoming : TokenStream}
    (answered : cursor.upcoming.next = (.error error, upcoming)) :
    holds (.error error) ∧ upcoming.All holds := by
  have next := sees.2.next
  rwa [answered] at next

/-- All answers that a cursor in a text sees concern the text. -/
theorem StandsAt.sees {lexer : Lexer} {text : List Char} (stands : cursor.StandsAt lexer)
    (inText : lexer.StandsIn text) : cursor.Sees (LexerAnswer.Concerns text) := by
  have all := inText.all.next
  rwa [stands] at all

theorem sees_of_ofText {text : String} {depth : Nat} (located : ofText text depth = .ok cursor) :
    cursor.Sees (LexerAnswer.Concerns text.toList) :=
  StandsAt.sees (ofText_eq_ok_iff.mp located).1 (Lexer.standsIn_ofText text)

end Cursor

end TemplatedJson
