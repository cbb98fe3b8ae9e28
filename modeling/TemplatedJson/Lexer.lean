import TemplatedJson.Token.Scan
import TemplatedJson.Unicode.Blank

/-!
# The lexer

A lexer walks through a text and answers each call with the next token or with
an error.  It goes on after an error from the place where the error left it, so
a text determines an endless sequence of answers.  From some call on they are
all the same, and a stream holds the answers before that one and the one that
repeats.
-/

namespace TemplatedJson

abbrev LexerAnswer := Except ParseError Token

/-- The characters that are still to be read, and the offset of the first of
them. -/
structure Lexer where
  rest : List Char
  position : Nat
deriving DecidableEq, Repr

namespace Lexer

def ofText (text : String) : Lexer :=
  ⟨text.toList, 0⟩

def skip (lexer : Lexer) (count : Nat) : Lexer :=
  ⟨lexer.rest.drop count, lexer.position + count⟩

def skipBlanks (lexer : Lexer) : Lexer :=
  lexer.skip (lexer.rest.takeWhile Unicode.isJsonBlank).length

/-- Reads the token at the very place where the lexer stands. -/
def scan (lexer : Lexer) : LexerAnswer × Lexer :=
  match Scan.token lexer.rest with
  | .ok (kind, width) =>
      (.ok ⟨kind, String.ofList (lexer.rest.take width), lexer.position⟩, lexer.skip width)
  | .error fault =>
      (.error ⟨fault.cause, lexer.position + fault.place⟩, lexer.skip fault.passed)

/-- Answers one call: skips blanks and reads a token. -/
def next (lexer : Lexer) : LexerAnswer × Lexer :=
  lexer.skipBlanks.scan

/-- The answers to a number of calls in a row, errors included. -/
def answers : (calls : Nat) → Lexer → List LexerAnswer
  | 0, _ => []
  | calls + 1, lexer =>
      let (answer, after) := lexer.next
      answer :: answers calls after

theorem length_skip_le (lexer : Lexer) (count : Nat) :
    (lexer.skip count).rest.length ≤ lexer.rest.length := by
  simp [skip]

/-- Reading a token moves a lexer by some number of characters. -/
theorem scan_eq_skip (lexer : Lexer) : ∃ count, lexer.scan.2 = lexer.skip count := by
  unfold scan
  split <;> exact ⟨_, rfl⟩

/-- A call that passes more than blanks leaves less to read. -/
theorem next_shortens {lexer after : Lexer} {answer : LexerAnswer}
    (read : lexer.skipBlanks.scan = (answer, after))
    (moved : lexer.skipBlanks.position < after.position) :
    after.rest.length < lexer.rest.length := by
  have shrinks : lexer.skipBlanks.rest.length ≤ lexer.rest.length := lexer.length_skip_le _
  have nonempty : lexer.skipBlanks.rest ≠ [] := by
    intro ended
    simp only [scan, ended, Scan.token, Prod.mk.injEq] at read
    simp [← read.2, skip] at moved
  have restPositive := List.length_pos_iff.mpr nonempty
  obtain ⟨count, scanned⟩ := lexer.skipBlanks.scan_eq_skip
  simp only [read] at scanned
  simp only [scanned, skip, List.length_drop] at moved ⊢
  omega

end Lexer

/-- All answers of a lexer: those before it comes to rest, and the one that it
then repeats.  The end of the text can only be the repeated one, and no other
token is ever repeated. -/
structure TokenStream where
  pending : List LexerAnswer
  settled : LexerAnswer
  pending_not_end : ∀ token, .ok token ∈ pending → token.kind ≠ .endOfInput
  settled_end : ∀ token, settled = .ok token → token.kind = .endOfInput

namespace TokenStream

def cons (answer : LexerAnswer) (stream : TokenStream)
    (notEnd : ∀ token, answer = .ok token → token.kind ≠ .endOfInput) : TokenStream where
  pending := answer :: stream.pending
  settled := stream.settled
  pending_not_end token member := by
    rcases List.mem_cons.mp member with first | later
    · exact notEnd token first.symm
    · exact stream.pending_not_end token later
  settled_end := stream.settled_end

def next (stream : TokenStream) : LexerAnswer × TokenStream :=
  match split : stream.pending with
  | [] => (stream.settled, stream)
  | answer :: rest =>
      (answer,
        { stream with
          pending := rest
          pending_not_end := fun token member =>
            stream.pending_not_end token (split ▸ List.mem_cons_of_mem answer member) })

theorem next_of_nil {stream : TokenStream} (none : stream.pending = []) :
    stream.next = (stream.settled, stream) := by
  unfold next
  split
  · rfl
  · simp_all

theorem next_of_cons {stream : TokenStream} {answer : LexerAnswer} {rest : List LexerAnswer}
    (some : stream.pending = answer :: rest) :
    stream.next.1 = answer ∧ stream.next.2.pending = rest ∧
      stream.next.2.settled = stream.settled := by
  unfold next
  split
  · simp_all
  · simp_all

/-- The tokens of a stream up to the end of the text, or the first error. -/
def tokens (stream : TokenStream) : Except ParseError (List Token) := do
  let before ← stream.pending.mapM id
  let final ← stream.settled
  return before ++ [final]

end TokenStream

namespace Lexer

/-- A lexer that reads a token stays in its place only at the end of the
text. -/
theorem scan_moves_iff {lexer : Lexer} {token : Token} (read : lexer.scan.1 = .ok token) :
    lexer.position < lexer.scan.2.position ↔ token.kind ≠ .endOfInput := by
  unfold scan at read ⊢
  cases scanned : Scan.token lexer.rest with
  | error fault => simp [scanned] at read
  | ok result =>
      obtain ⟨kind, width⟩ := result
      simp only [scanned, Except.ok.injEq] at read
      subst read
      simp only [skip]
      cases remaining : lexer.rest with
      | nil =>
          simp only [remaining, Scan.token, Except.ok.injEq, Prod.mk.injEq] at scanned
          simp [← scanned.1, ← scanned.2]
      | cons first rest =>
          rw [remaining] at scanned
          have bounds := Scan.token_cons scanned
          simp only [bounds.2, ne_eq, not_false_eq_true, iff_true]
          omega

/-- All answers of a lexer.  It has come to rest when a call passes no
character other than blanks, which happens at the end of the text and at a
character that begins no token. -/
def stream (lexer : Lexer) : TokenStream :=
  match read : lexer.skipBlanks.scan with
  | (answer, after) =>
      if moved : lexer.skipBlanks.position < after.position then
        after.stream.cons answer fun token answered =>
          (scan_moves_iff (by rw [read, answered])).mp (by rw [read]; exact moved)
      else
        { pending := []
          settled := answer
          pending_not_end := by simp
          settled_end := fun token answered => by
            have stays := @scan_moves_iff lexer.skipBlanks token (by rw [read, answered])
            rw [read] at stays
            exact Decidable.not_not.mp fun notEnd => moved (stays.mpr notEnd) }
termination_by lexer.rest.length
decreasing_by exact next_shortens (by assumption) (by assumption)

/-- A call that passes more than blanks is the first of the pending ones. -/
theorem stream_of_moves {lexer : Lexer}
    (moves : lexer.skipBlanks.position < lexer.next.2.position) :
    lexer.stream.next = (lexer.next.1, lexer.next.2.stream) := by
  rw [stream]
  split
  next answer after read =>
    change lexer.next = (answer, after) at read
    rw [read] at moves ⊢
    rw [dif_pos moves]
    rfl

/-- A call that passes nothing but blanks is repeated from then on. -/
theorem stream_of_stays {lexer : Lexer}
    (stays : ¬ lexer.skipBlanks.position < lexer.next.2.position) :
    lexer.stream.pending = [] ∧ lexer.stream.settled = lexer.next.1 := by
  rw [stream]
  split
  next answer after read =>
    change lexer.next = (answer, after) at read
    rw [read] at stays ⊢
    rw [dif_neg stays]
    exact ⟨rfl, rfl⟩

end Lexer

/-- The tokens of a text, the last of which marks its end, or the first
error. -/
def tokenize (text : String) : Except ParseError (List Token) :=
  (Lexer.ofText text).stream.tokens

end TemplatedJson
