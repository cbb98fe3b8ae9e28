import TemplatedJson.Proofs.Lexing.Answers
import TemplatedJson.Proofs.Session.Script

/-!
# Reading with a buffer of one token

A reader calls the lexer when it needs a token.  It keeps the current token, and
after a peek also the one behind it, which the next step then takes up.  This is all
that parsers need: following a script with such a buffer gives the same answers as
reading from the endless stream of what the lexer will answer.

The buffer also records which tokens it handed out and what the lexer answered.  The
tokens among the answers are those handed out, the current one and the one kept
behind it, in this order, whatever faults the lexer met in between.
-/

namespace TemplatedJson

/-- A lexer, the tokens kept from it, and the history of both. -/
structure Buffer where
  lexer : Lexer
  current : Token
  /-- The token after the current one, if it was peeked at. -/
  ahead : Option Token
  depth : Nat
  sightings : List Template.Sighting
  /-- The tokens that were passed, the first one first. -/
  passed : List Token
  /-- The answers of the lexer so far, errors included. -/
  answered : List LexerAnswer

namespace Buffer

/-- Calls the lexer. -/
def call (buffer : Buffer) : LexerAnswer × Buffer :=
  (buffer.lexer.next.1,
    { buffer with
      lexer := buffer.lexer.next.2
      answered := buffer.answered ++ [buffer.lexer.next.1] })

/-- Steps to the next token, which is the one kept or else one that the lexer is
called for. -/
def advance (buffer : Buffer) : LexerAnswer × Buffer :=
  match buffer.ahead with
  | some token =>
      (.ok buffer.current,
        { buffer with
          current := token
          ahead := none
          passed := buffer.passed ++ [buffer.current] })
  | none =>
      match buffer.call with
      | (.ok token, called) =>
          (.ok buffer.current,
            { called with current := token, passed := buffer.passed ++ [buffer.current] })
      | (.error error, called) => (.error error, called)

/-- Keeps the token after the current one, unless it is kept already. -/
def peek (buffer : Buffer) : LexerAnswer × Buffer :=
  match buffer.ahead with
  | some token => (.ok token, buffer)
  | none =>
      match buffer.call with
      | (.ok token, called) => (.ok token, { called with ahead := some token })
      | (.error error, called) => (.error error, called)

/-- The answers that are still to come: a token that is kept, and those of the
lexer.  The mark at the end of the text is repeated by the lexer anyway. -/
def upcoming (buffer : Buffer) : TokenStream :=
  match buffer.ahead with
  | none => buffer.lexer.stream
  | some token =>
      if ended : token.kind = .endOfInput then buffer.lexer.stream
      else buffer.lexer.stream.cons (.ok token) fun _ same => Except.ok.inj same ▸ ended

/-- The cursor that a buffer stands for. -/
def cursor (buffer : Buffer) : Cursor :=
  ⟨buffer.current, buffer.upcoming, buffer.depth, buffer.sightings⟩

/-- A buffer that has read the first token of a text. -/
def ofText (text : String) : Except ParseError Buffer :=
  let (first, lexer) := (Lexer.ofText text).next
  first.map fun token => ⟨lexer, token, none, 0, [], [], [.ok token]⟩

end Buffer

/-- Follows a script with a buffer. -/
def Script.play {Value : Type} : Script Value → Buffer → Except ParseError Value × Buffer
  | done value, buffer => (.ok value, buffer)
  | fail error, buffer => (.error error, buffer)
  | look next, buffer => (next buffer.cursor.view).play buffer
  | advance next, buffer =>
      match buffer.advance with
      | (.ok token, after) => (next token).play after
      | (.error error, after) => (.error error, after)
  | peek next, buffer =>
      match buffer.peek with
      | (.ok token, after) => (next token).play after
      | (.error error, after) => (.error error, after)
  | enter next, buffer => next.play { buffer with depth := buffer.depth + 1 }
  | leave next, buffer => next.play { buffer with depth := buffer.depth - 1 }
  | sight sighting next, buffer =>
      next.play { buffer with sightings := buffer.sightings ++ [sighting] }

namespace Buffer

/-- The history of a buffer is that of its lexer since it stood at `start`.  Every
token that the lexer answered was passed, is the current one or is kept. -/
structure Sound (start : Lexer) (buffer : Buffer) : Prop where
  lexer_eq : buffer.lexer = start.after buffer.answered.length
  answered_eq : buffer.answered = start.answers buffer.answered.length
  tokens_eq : buffer.answered.filterMap Except.toOption =
    buffer.passed ++ buffer.current :: buffer.ahead.toList
  /-- Behind the end of the text the lexer has come to rest. -/
  rests : ∀ token ∈ buffer.current :: buffer.ahead.toList, token.kind = .endOfInput →
    buffer.lexer.stream.next = (.ok token, buffer.lexer.stream)

variable {start : Lexer} {buffer : Buffer}

/-! ### What is still to come -/

/-- A token that is kept comes next, and then what the lexer answers. -/
theorem Sound.next_of_kept (sound : buffer.Sound start) {token : Token}
    (kept : buffer.ahead = some token) :
    buffer.upcoming.next = (.ok token, buffer.lexer.stream) := by
  unfold upcoming
  rw [kept]
  dsimp only
  split
  · next ended => exact sound.rests token (by simp [kept]) ended
  · rfl

theorem upcoming_of_none (none : buffer.ahead = none) : buffer.upcoming = buffer.lexer.stream := by
  unfold upcoming
  rw [none]

/-- The end of the text leaves the lexer where it repeats it. -/
theorem stream_of_end {lexer after : Lexer} {token : Token} (read : lexer.next = (.ok token, after))
    (ended : token.kind = .endOfInput) :
    after.stream = lexer.stream ∧ lexer.stream.next = (.ok token, lexer.stream) := by
  have onward := lexer.stream_next
  rw [read] at onward
  have stands : Cursor.StandsIn ⟨token, after.stream, 0, []⟩ lexer.stream := onward
  have same : after.stream = lexer.stream := stands.upcoming_of_end ended
  rw [same] at onward
  exact ⟨same, onward⟩

/-- Keeping a token changes nothing in what is to come. -/
theorem upcoming_of_keep {lexer after : Lexer} {token : Token}
    (read : lexer.next = (.ok token, after)) (kept : buffer.ahead = some token)
    (called : buffer.lexer = after) : buffer.upcoming = lexer.stream := by
  unfold upcoming
  rw [kept, called]
  dsimp only
  split
  · next ended => exact (stream_of_end read ended).1
  · next notEnd =>
      have moves := (@Lexer.scan_moves_iff lexer.skipBlanks token (congrArg Prod.fst read)).mpr notEnd
      obtain ⟨pending, settled⟩ := Lexer.stream_of_next moves
      rw [read] at pending settled
      exact TokenStream.ext pending.symm settled.symm

/-! ### Steps -/

section Calls

variable {answer : LexerAnswer} {called : Buffer}

/-- A call adds its answer to the history, and the stream goes on behind it. -/
theorem Sound.call (sound : buffer.Sound start) (none : buffer.ahead = none)
    (made : buffer.call = (answer, called)) :
    ∃ lexer answered, called = { buffer with lexer := lexer, answered := answered } ∧
      buffer.lexer.next = (answer, lexer) ∧ buffer.upcoming.next = (answer, lexer.stream) ∧
      lexer = start.after answered.length ∧ answered = start.answers answered.length ∧
      answered.filterMap Except.toOption =
        buffer.passed ++ buffer.current :: answer.toOption.toList := by
  obtain ⟨answers, after⟩ := start.answers_succ buffer.answered.length
  have tokens := sound.tokens_eq
  rw [none, Option.toList_none] at tokens
  have onward := buffer.lexer.stream_next
  rw [← upcoming_of_none none] at onward
  unfold Buffer.call at made
  obtain ⟨rfl, rfl⟩ := Prod.mk.inj made
  refine ⟨_, _, rfl, rfl, onward, ?_⟩
  rw [List.length_append, List.length_singleton, List.filterMap_append, tokens, answers, after,
    ← sound.lexer_eq, ← sound.answered_eq]
  refine ⟨rfl, rfl, ?_⟩
  cases buffer.lexer.next.1 <;> simp [Except.toOption]

end Calls

/-- No call fails behind the end of the text. -/
theorem Sound.not_end_of_error (sound : buffer.Sound start) (none : buffer.ahead = none)
    {error : ParseError} {after : TokenStream}
    (onward : buffer.upcoming.next = (.error error, after)) :
    buffer.current.kind ≠ .endOfInput := by
  intro ended
  have rests := sound.rests buffer.current List.mem_cons_self ended
  rw [upcoming_of_none none, rests] at onward
  cases onward

/-- A call that fails takes its answer off the stream and changes nothing else. -/
theorem Sound.call_lost (sound : buffer.Sound start) (none : buffer.ahead = none)
    {error : ParseError} {called : Buffer} (made : buffer.call = (.error error, called)) :
    buffer.upcoming.next = (.error error, called.upcoming) ∧
      called.cursor = { buffer.cursor with upcoming := called.upcoming } ∧ called.Sound start := by
  obtain ⟨lexer, answered, rfl, -, onward, standing, history, tokens⟩ := sound.call none made
  refine ⟨by rw [onward]; simp [upcoming, none], rfl, standing, history,
    by simpa [none, Except.toOption] using tokens, ?_⟩
  intro found member ended
  obtain rfl : found = buffer.current := by simpa [none] using member
  exact absurd ended (sound.not_end_of_error none onward)

/-- Stepping on with a buffer does what stepping on along the stream does. -/
theorem Sound.advance (sound : buffer.Sound start) :
    Parse.runAt Parse.advance buffer.cursor = (buffer.advance.1, buffer.advance.2.cursor) ∧
      buffer.advance.2.Sound start := by
  unfold Buffer.advance
  split
  · next token kept =>
      have tokens := sound.tokens_eq
      rw [Parse.runAt_advance_of_ok (sound.next_of_kept kept)]
      refine ⟨rfl, sound.lexer_eq, sound.answered_eq, by simpa [kept] using tokens, ?_⟩
      intro found member ended
      obtain rfl : found = token := by simpa using member
      exact sound.rests found (by simp [kept]) ended
  · next none =>
      split
      · next token called made =>
          obtain ⟨lexer, answered, rfl, read, onward, standing, history, tokens⟩ :=
            sound.call none made
          rw [Parse.runAt_advance_of_ok onward]
          refine ⟨by simp [cursor, upcoming, none], standing, history,
            by simpa [none, Except.toOption] using tokens, ?_⟩
          intro found member ended
          obtain rfl : found = token := by simpa [none] using member
          obtain ⟨sameStream, rests⟩ := stream_of_end read ended
          rw [sameStream]
          exact rests
      · next error called made =>
          obtain ⟨onward, same, soundCalled⟩ := sound.call_lost none made
          rw [Parse.runAt_advance_of_error onward, same]
          exact ⟨rfl, soundCalled⟩

theorem Sound.peek (sound : buffer.Sound start) :
    Parse.runAt Parse.peek buffer.cursor = (buffer.peek.1, buffer.peek.2.cursor) ∧
      buffer.peek.2.Sound start := by
  unfold Buffer.peek
  split
  · next token kept =>
      rw [Parse.runAt_peek_of_ok (sound.next_of_kept kept)]
      exact ⟨rfl, sound⟩
  · next none =>
      split
      · next token called made =>
          obtain ⟨lexer, answered, rfl, read, onward, standing, history, tokens⟩ :=
            sound.call none made
          rw [Parse.runAt_peek_of_ok onward]
          have same := @upcoming_of_keep
            { buffer with lexer := lexer, answered := answered, ahead := some token } _ _ _ read rfl rfl
          -- If the current token marks the end, the lexer repeats that very token.
          have repeated : buffer.current.kind = .endOfInput → buffer.current = token := by
            intro ended
            have rests := sound.rests buffer.current List.mem_cons_self ended
            rw [← upcoming_of_none none, onward] at rests
            exact (Except.ok.inj (Prod.mk.inj rests).1).symm
          refine ⟨by simp [cursor, same, upcoming_of_none none], standing, history,
            by simpa [none, Except.toOption] using tokens, ?_⟩
          intro found member ended
          have same : found = token := by
            rcases List.mem_cons.mp member with rfl | kept
            · exact repeated ended
            · simpa using kept
          subst same
          obtain ⟨sameStream, rests⟩ := stream_of_end read ended
          rw [sameStream]
          exact rests
      · next error called made =>
          obtain ⟨onward, same, soundCalled⟩ := sound.call_lost none made
          rw [Parse.runAt_peek_of_error onward, same]
          exact ⟨rfl, soundCalled⟩

/-- The history does not depend on how deep the parser is or what it sighted. -/
theorem Sound.frame (sound : buffer.Sound start) (depth : Nat) (sightings : List Template.Sighting) :
    Sound start { buffer with depth := depth, sightings := sightings } :=
  ⟨sound.lexer_eq, sound.answered_eq, sound.tokens_eq, sound.rests⟩

/-- If a step and each script after it are followed, then so are both. -/
theorem Sound.play_next {Value : Type} {step : Parse Token} {made : LexerAnswer × Buffer}
    {next : Token → Script Value} {ending : Except ParseError Value × Buffer}
    (ends : (match made with
      | (.ok token, after) => (next token).play after
      | (.error error, after) => (.error error, after)) = ending)
    (stepped : Parse.runAt step buffer.cursor = (made.1, made.2.cursor) ∧ made.2.Sound start)
    (rest : ∀ token {buffer : Buffer}, buffer.Sound start →
      Parse.runAt (next token).parser buffer.cursor =
          (((next token).play buffer).1, ((next token).play buffer).2.cursor) ∧
        ((next token).play buffer).2.Sound start) :
    Parse.runAt (step >>= fun token => (next token).parser) buffer.cursor =
      (ending.1, ending.2.cursor) ∧ ending.2.Sound start := by
  obtain ⟨run, sound⟩ := stepped
  subst ends
  rcases made with ⟨error | token, after⟩
  · exact ⟨Parse.runAt_bind_of_error run, sound⟩
  · obtain ⟨runRest, soundRest⟩ := rest token sound
    exact ⟨(Parse.runAt_bind_of_ok run).trans runRest, soundRest⟩

/-- Following a script with a buffer gives the same answer as reading from the
stream, and the history stays sound wherever the script ends. -/
theorem Sound.play {Value : Type} (script : Script Value) (sound : buffer.Sound start) :
    Parse.runAt script.parser buffer.cursor = ((script.play buffer).1, (script.play buffer).2.cursor) ∧
      (script.play buffer).2.Sound start := by
  induction script generalizing buffer with
  | done value => exact ⟨rfl, sound⟩
  | fail error => exact ⟨rfl, sound⟩
  | look next ih =>
      rw [Script.parser, Parse.runAt_get_bind, Script.play]
      exact ih _ sound
  | advance next ih =>
      rw [Script.parser, Script.play]
      exact Sound.play_next rfl sound.advance ih
  | peek next ih =>
      rw [Script.parser, Script.play]
      exact Sound.play_next rfl sound.peek ih
  | enter next ih =>
      rw [Script.parser, Parse.runAt_modify_bind, Script.play]
      exact ih (sound.frame (buffer.depth + 1) buffer.sightings)
  | leave next ih =>
      rw [Script.parser, Parse.runAt_modify_bind, Script.play]
      exact ih (sound.frame (buffer.depth - 1) buffer.sightings)
  | sight sighting next ih =>
      rw [Script.parser, Parse.runAt_modify_bind, Script.play]
      exact ih (sound.frame buffer.depth (buffer.sightings ++ [sighting]))

/-! ### Sessions -/

/-- Follows the scripts of several requests, one after the other. -/
def playAll (script : Request → Script Tree) :
    List Request → Buffer → List (Except ParseError Tree) × Buffer
  | [], buffer => ([], buffer)
  | request :: rest, buffer =>
      let (answer, after) := (script request).play buffer
      let (answers, final) := playAll script rest after
      (answer :: answers, final)

/-- A session with a buffer gives the same answers as one with the stream, and its
history stays sound whatever fails. -/
theorem Sound.playAll {maximum : Nat} {script : Request → Script Tree}
    (follows : ∀ request, (script request).parser = request.parser maximum)
    (requests : List Request) (sound : buffer.Sound start) :
    Request.answerAll maximum requests buffer.cursor =
        ((playAll script requests buffer).1, (playAll script requests buffer).2.cursor) ∧
      (playAll script requests buffer).2.Sound start := by
  induction requests generalizing buffer with
  | nil => exact ⟨rfl, sound⟩
  | cons request rest ih =>
      obtain ⟨run, soundAfter⟩ := sound.play (script request)
      rw [follows] at run
      obtain ⟨runRest, soundRest⟩ := ih soundAfter
      refine ⟨?_, soundRest⟩
      simp only [Request.answerAll, run, runRest]
      rfl

/-- A buffer that has read the first token of a text stands for the cursor there. -/
theorem sound_of_ofText {text : String} {cursor : Cursor}
    (located : Cursor.ofText text 0 = .ok cursor) :
    ∃ first, ofText text = .ok first ∧ first.cursor = cursor ∧
      first.Sound (Lexer.ofText text) := by
  unfold Cursor.ofText at located
  rw [Lexer.stream_next] at located
  rcases read : (Lexer.ofText text).next with ⟨error | token, lexer⟩
  · simp [read, Except.map] at located
  · simp only [read, Except.map, Except.ok.injEq] at located
    subst located
    refine ⟨⟨lexer, token, none, 0, [], [], [.ok token]⟩, ?_, rfl, ?_, ?_, ?_, ?_⟩
    · simp [ofText, read, Except.map]
    · simp [Lexer.after, read]
    · simp [Lexer.answers, read]
    · simp [Except.toOption]
    · intro found member ended
      obtain rfl : found = token := by simpa using member
      obtain ⟨sameStream, rests⟩ := stream_of_end read ended
      dsimp only
      rw [sameStream]
      exact rests

end Buffer

end TemplatedJson
