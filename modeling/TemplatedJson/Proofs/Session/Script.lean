import TemplatedJson.Proofs.Session.Family

/-!
# Parsers as scripts

A script lists what a parser does: which tokens it passes, where it peeks, what it
looks at and how it ends.  Each next step may depend on the tokens met before.
Every request follows a script, so its text is reached by single steps only, and
nothing but these steps decides what it does.
-/

namespace TemplatedJson

/-- What a parser sees without moving. -/
structure Cursor.View where
  current : Token
  remaining : Nat
  depth : Nat

def Cursor.view (cursor : Cursor) : Cursor.View :=
  ⟨cursor.current, cursor.remaining, cursor.depth⟩

/-- The steps of a parser. -/
inductive Script (Value : Type) where
  | done (value : Value)
  | fail (error : ParseError)
  | look (next : Cursor.View → Script Value)
  /-- Passes the current token. -/
  | advance (next : Token → Script Value)
  | peek (next : Token → Script Value)
  | enter (next : Script Value)
  | leave (next : Script Value)
  | sight (sighting : Template.Sighting) (next : Script Value)

namespace Script

variable {Value Image : Type}

/-- The parser that follows a script. -/
def parser : Script Value → Parse Value
  | done value => pure value
  | fail error => throw error
  | look next => get >>= fun cursor => (next cursor.view).parser
  | advance next => Parse.advance >>= fun token => (next token).parser
  | peek next => Parse.peek >>= fun token => (next token).parser
  | enter next => do
      modify fun cursor => { cursor with depth := cursor.depth + 1 }
      next.parser
  | leave next => do
      modify fun cursor => { cursor with depth := cursor.depth - 1 }
      next.parser
  | sight sighting next => do
      modify fun cursor => { cursor with sightings := cursor.sightings ++ [sighting] }
      next.parser

/-- One script after another. -/
def bind : Script Value → (Value → Script Image) → Script Image
  | done value, rest => rest value
  | fail error, _ => fail error
  | look next, rest => look fun view => (next view).bind rest
  | advance next, rest => advance fun token => (next token).bind rest
  | peek next, rest => peek fun token => (next token).bind rest
  | enter next, rest => enter (next.bind rest)
  | leave next, rest => leave (next.bind rest)
  | sight sighting next, rest => sight sighting (next.bind rest)

theorem parser_bind (script : Script Value) (rest : Value → Script Image) :
    (script.bind rest).parser = script.parser >>= fun value => (rest value).parser := by
  induction script with
  | done value => simp [bind, parser]
  | fail error => rfl
  | look next ih => simp [bind, parser, ih]
  | advance next ih => simp [bind, parser, ih]
  | peek next ih => simp [bind, parser, ih]
  | enter next ih => simp [bind, parser, ih]
  | leave next ih => simp [bind, parser, ih]
  | sight sighting next ih => simp [bind, parser, ih]

/-- The parsers that follow some script. -/
def family : Parse.Family where
  has parser := ∃ script : Script _, script.parser = parser
  yield value := ⟨done value, rfl⟩
  join := by
    rintro Value Image parser next ⟨first, rfl⟩ rest
    refine ⟨first.bind fun value => (rest value).choose, ?_⟩
    rw [parser_bind]
    congr 1
    funext value
    exact (rest value).choose_spec
  look := by
    intro Image next same rest
    -- A view that no cursor has is never met, so any script will do for it.
    have scripted : ∀ view : Cursor.View, ∃ script : Script Image,
        ∀ cursor : Cursor, cursor.view = view → script.parser = next cursor := by
      intro view
      by_cases met : ∃ cursor : Cursor, cursor.view = view
      · obtain ⟨cursor, rfl⟩ := met
        obtain ⟨script, follows⟩ := rest cursor
        refine ⟨script, ?_⟩
        intro other seen
        obtain ⟨current, remaining, depth⟩ := Cursor.View.mk.inj seen
        rw [follows]
        exact same cursor other current.symm remaining.symm depth.symm
      · exact ⟨fail ⟨.unterminatedString, 0⟩, fun cursor seen => absurd ⟨cursor, seen⟩ met⟩
    refine ⟨look fun view => (scripted view).choose, ?_⟩
    rw [parser]
    congr 1
    funext cursor
    exact (scripted cursor.view).choose_spec cursor rfl
  advance := ⟨advance done, by simp [parser]⟩
  peek := ⟨peek done, by simp [parser]⟩
  deeper := by
    rintro Value parser ⟨script, rfl⟩
    refine ⟨enter (script.bind fun value => leave (done value)), ?_⟩
    rw [Script.parser, parser_bind]
    rfl
  sight sighting := ⟨sight sighting (done ⟨⟩), by simp [parser]⟩
  fail error := ⟨fail error, rfl⟩

/-- Every request follows a script. -/
theorem exists_parser_eq (maximum : Nat) (request : Request) :
    ∃ script : Script Tree, script.parser = request.parser maximum :=
  family.request maximum request

end Script

end TemplatedJson
