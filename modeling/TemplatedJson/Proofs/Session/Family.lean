import TemplatedJson.Proofs.Lexing.Answers
import TemplatedJson.Proofs.Node.Congruence

/-!
# What all parsers have in common

A family is a property of parsers that the steps have and that joining parsers
keeps, so that every parser has it.  A motion is such a property of where a parser
stops: whatever a single step keeps is kept by every run, whether it succeeds or
fails.  A success also restores the depth, and a failure never lowers it.
-/

namespace TemplatedJson.Parse

/-- A property of parsers that the steps have and that joining parsers keeps.  A
parser may look at the current token, at the bound on the tokens that are left and
at the depth. -/
structure Family where
  has : {Value : Type} → Parse Value → Prop
  yield : ∀ {Value : Type} (value : Value), has (pure value)
  join : ∀ {Value Image : Type} {parser : Parse Value} {next : Value → Parse Image},
    has parser → (∀ value, has (next value)) → has (parser >>= next)
  look : ∀ {Image : Type} {next : Cursor → Parse Image},
    (∀ cursor other : Cursor, cursor.current = other.current →
      cursor.remaining = other.remaining → cursor.depth = other.depth →
        next cursor = next other) →
      (∀ cursor, has (next cursor)) → has (get >>= next)
  advance : has advance
  peek : has peek
  deeper : ∀ {Value : Type} {parser : Parse Value}, has parser → has (deeper parser)
  sight : ∀ sighting : Template.Sighting,
    has (modify fun cursor => { cursor with sightings := cursor.sightings ++ [sighting] })
  fail : ∀ {Value : Type} (error : ParseError), has (throw error : Parse Value)

namespace Family

variable (family : Family)

/-- The relation of the members of a family to themselves. -/
def congruence : Congruence where
  relates parser other := parser = other ∧ family.has parser
  meets token other := token = other
  kind_eq := congrArg Token.kind
  raw_eq := congrArg Token.raw
  yield value := ⟨rfl, family.yield value⟩
  join := by
    rintro Value Image parser _ next otherNext ⟨rfl, first⟩ rest
    have same : next = otherNext := funext fun value => (rest value).1
    exact ⟨by rw [same], family.join first fun value => (rest value).2⟩
  look := by
    intro Image next otherNext rest
    have alike : ∀ cursor other : Cursor, cursor.current = other.current →
        cursor.remaining = other.remaining →
          next cursor = otherNext other ∧ family.has (next cursor) := by
      intro cursor other current remaining
      apply (rest cursor other current remaining).relates
      intro cause _
      rw [current]
      exact ⟨rfl, family.fail _⟩
    have same : next = otherNext := funext fun cursor => (alike cursor cursor rfl rfl).1
    refine ⟨by rw [same], family.look ?_ fun cursor => (alike cursor cursor rfl rfl).2⟩
    intro cursor other current remaining _
    rw [(alike cursor other current remaining).1, same]
  advance := by
    intro Image next otherNext rest
    have alike : ∀ token, next token = otherNext token ∧ family.has (next token) :=
      fun token => (rest token token rfl).relates fun _ => ⟨rfl, family.fail _⟩
    have same : next = otherNext := funext fun token => (alike token).1
    exact ⟨by rw [same], family.join family.advance fun token => (alike token).2⟩
  peek := by
    intro Image next otherNext rest
    have same : next = otherNext := funext fun token => (rest token token rfl).1
    exact ⟨by rw [same], family.join family.peek fun token => (rest token token rfl).2⟩
  deeper := by
    rintro Value parser _ ⟨rfl, inside⟩
    exact ⟨rfl, family.deeper inside⟩

/-! ### What consults more than the steps -/

theorem has_tooDeep {Value : Type} (maximum : Nat) : family.has (tooDeep maximum : Parse Value) := by
  refine family.look ?_ fun cursor => family.fail _
  intro cursor other current _ _
  rw [current]

theorem has_build (limits : Limits) (tree : Measured) : family.has (build limits tree) := by
  unfold build
  split
  · exact family.yield tree
  · exact family.has_tooDeep limits.maximum

theorem has_jsonNumber (sign digits : String) (offset : Nat) :
    family.has (jsonNumber sign digits offset) := by
  unfold jsonNumber
  split
  · split
    · exact family.fail _
    · exact family.yield _
  · exact family.fail _

theorem has_discard_advance : family.has (discard Parse.advance) := by
  have alike : Alike family.congruence (discard Parse.advance) (discard Parse.advance) :=
    Alike.discard_advance
  exact alike.2

theorem has_unexpected {Value : Type} (expected : String) :
    family.has (unexpected expected : Parse Value) := by
  have alike : Alike family.congruence (unexpected expected : Parse Value) (unexpected expected) :=
    Alike.unexpected expected
  exact alike.2

theorem has_unsignedNumber : family.has unsignedNumber := by
  unfold unsignedNumber
  refine family.look ?_ fun cursor => family.join family.has_discard_advance fun _ => ?_
  · intro cursor other current _ _
    rw [current]
  · exact family.has_jsonNumber "" cursor.current.raw cursor.current.offset

theorem has_negativeNumber : family.has negativeNumber := by
  unfold negativeNumber
  refine family.join family.advance fun minus => family.look ?_ fun cursor => ?_
  · intro cursor other current _ _
    rw [current]
  · dsimp only
    split
    · exact family.join family.has_discard_advance fun _ => family.has_jsonNumber _ _ _
    · exact family.has_unexpected _

theorem has_stringValue (maximum : Nat) (content : String) (token : Token) :
    family.has (stringValue maximum content token) := by
  unfold stringValue
  split
  · exact family.yield _
  · refine family.join (family.sight _) fun _ => family.look ?_ fun cursor => ?_
    · intro cursor other _ _ depth
      rw [depth]
    · split
      · exact family.yield _
      · exact family.fail _

theorem has_stringNode (maximum : Nat) : family.has (stringNode maximum) := by
  have reads : Alike family.congruence (stringNode maximum) (stringNode maximum) := by
    unfold stringNode
    apply Alike.jsonString_bind
    rintro content token _ - ⟨rfl⟩
    exact ⟨rfl, family.has_stringValue maximum content token⟩
  exact reads.2

theorem leaves (maximum : Nat) : family.congruence.Leaves maximum maximum where
  unsigned := ⟨rfl, family.has_unsignedNumber⟩
  signed := .signedNumber ⟨rfl, family.has_negativeNumber⟩
  string := ⟨rfl, family.has_stringNode maximum⟩
  refuses := ⟨rfl, family.has_tooDeep maximum⟩

theorem agrees (limits : Limits) : family.congruence.Agrees limits limits where
  build tree := ⟨rfl, family.has_build limits tree⟩
  refuses := ⟨rfl, family.has_tooDeep limits.maximum⟩

/-! ### All parsers -/

theorem valueWithin (maximum levels : Nat) : family.has (valueWithin maximum levels) :=
  (Alike.valueWithin (family.leaves maximum) levels).2

theorem member (maximum levels : Nat) :
    family.has (Parse.member (Parse.valueWithin maximum levels)) :=
  (Alike.valueWithin (family.leaves maximum) levels).member.2

theorem framed (maximum : Nat) : family.congruence.Framed maximum maximum where
  value := by
    refine ⟨rfl, family.look ?_ fun cursor => ?_⟩
    · intro cursor other _ _ depth
      rw [depth]
    · have values := Alike.valueWithin (family.leaves maximum) (maximum - cursor.depth)
      exact (values.bind fun node => Alike.expectEnd.bind fun _ => .pure node).2
  expression := by
    refine ⟨rfl, family.look ?_ fun cursor => ?_⟩
    · intro cursor other _ _ depth
      rw [depth]
    · have trees := Alike.expressionWithin (family.agrees ⟨maximum, 0⟩) (maximum - cursor.depth)
      exact (trees.bind fun tree => .pure tree.expr).2

theorem request (maximum : Nat) (request : Request) : family.has (request.parser maximum) :=
  (Alike.request (family.framed maximum) request).2

end Family

/-! ### Where parsers stop -/

/-- A relation between two places in a text that every step keeps, those that meet
an error included. -/
structure Motion where
  leads : Cursor → Cursor → Prop
  refl : ∀ cursor, leads cursor cursor
  trans : ∀ {cursor middle after}, leads cursor middle → leads middle after → leads cursor after
  frame : ∀ cursor depth sightings, leads cursor (cursor.withFrame depth sightings)
  follow : ∀ {cursor after}, cursor.following? = some after → leads cursor after
  lose : ∀ {cursor error upcoming}, cursor.upcoming.next = (.error error, upcoming) →
    leads cursor { cursor with upcoming := upcoming }

namespace Motion

variable (motion : Motion)

/-- Whether every run of a parser keeps the relation and treats the depth well. -/
def Governs {Value : Type} (parser : Parse Value) : Prop :=
  ∀ ⦃cursor result after⦄, runAt parser cursor = (result, after) →
    motion.leads cursor after ∧ cursor.depth ≤ after.depth ∧
      ∀ value, result = .ok value → after.depth = cursor.depth

theorem governs_advance : motion.Governs advance := by
  intro cursor result after run
  rcases answered : cursor.upcoming.next with ⟨error | token, upcoming⟩
  · rw [runAt_advance_of_error answered] at run
    obtain ⟨rfl, rfl⟩ := Prod.mk.inj run
    exact ⟨motion.lose answered, Nat.le_refl _, by simp⟩
  · rw [runAt_advance_of_ok answered] at run
    obtain ⟨rfl, rfl⟩ := Prod.mk.inj run
    exact ⟨motion.follow (Cursor.following?_of_next answered), Nat.le_refl _, fun _ _ => rfl⟩

theorem governs_peek : motion.Governs peek := by
  intro cursor result after run
  rcases answered : cursor.upcoming.next with ⟨error | token, upcoming⟩
  · rw [runAt_peek_of_error answered] at run
    obtain ⟨rfl, rfl⟩ := Prod.mk.inj run
    exact ⟨motion.lose answered, Nat.le_refl _, by simp⟩
  · rw [runAt_peek_of_ok answered] at run
    obtain ⟨rfl, rfl⟩ := Prod.mk.inj run
    exact ⟨motion.refl _, Nat.le_refl _, fun _ _ => rfl⟩

theorem governs_join {Value Image : Type} {parser : Parse Value} {next : Value → Parse Image}
    (first : motion.Governs parser) (rest : ∀ value, motion.Governs (next value)) :
    motion.Governs (parser >>= next) := by
  intro cursor result after run
  rcases begun : runAt parser cursor with ⟨error | value, middle⟩
  · rw [runAt_bind_of_error begun] at run
    obtain ⟨rfl, rfl⟩ := Prod.mk.inj run
    obtain ⟨leads, depth, -⟩ := first begun
    exact ⟨leads, depth, by simp⟩
  · rw [runAt_bind_of_ok begun] at run
    obtain ⟨leads, -, restored⟩ := first begun
    obtain ⟨leadsOn, depthOn, restoredOn⟩ := rest value run
    have depth := restored value rfl
    rw [depth] at depthOn restoredOn
    exact ⟨motion.trans leads leadsOn, depthOn, restoredOn⟩

theorem governs_deeper {Value : Type} {parser : Parse Value} (inside : motion.Governs parser) :
    motion.Governs (deeper parser) := by
  intro cursor result after run
  unfold deeper at run
  rw [runAt_modify_bind] at run
  have enters : motion.leads cursor { cursor with depth := cursor.depth + 1 } :=
    motion.frame cursor (cursor.depth + 1) cursor.sightings
  rcases body : runAt parser { cursor with depth := cursor.depth + 1 } with ⟨error | value, middle⟩
  · rw [runAt_bind_of_error body] at run
    obtain ⟨rfl, rfl⟩ := Prod.mk.inj run
    obtain ⟨leads, depth, -⟩ := inside body
    exact ⟨motion.trans enters leads, Nat.le_of_succ_le depth, by simp⟩
  · rw [runAt_bind_of_ok body, runAt_modify_bind, runAt_pure] at run
    obtain ⟨rfl, rfl⟩ := Prod.mk.inj run
    obtain ⟨leads, -, restored⟩ := inside body
    have depth : middle.depth - 1 = cursor.depth := by simp [restored value rfl]
    have leaves : motion.leads middle { middle with depth := middle.depth - 1 } :=
      motion.frame middle (middle.depth - 1) middle.sightings
    exact ⟨motion.trans (motion.trans enters leads) leaves, Nat.le_of_eq depth.symm,
      fun _ _ => depth⟩

/-- All parsers keep the relation. -/
def family : Family where
  has := motion.Governs
  yield value := by
    rintro cursor _ _ ⟨⟩
    exact ⟨motion.refl cursor, Nat.le_refl _, fun _ _ => rfl⟩
  join := motion.governs_join
  look := by
    intro Image next _ rest cursor result after run
    rw [runAt_get_bind] at run
    exact rest cursor run
  advance := motion.governs_advance
  peek := motion.governs_peek
  deeper := motion.governs_deeper
  sight sighting := by
    rintro cursor _ _ ⟨⟩
    exact ⟨motion.frame cursor cursor.depth _, Nat.le_refl _, fun _ _ => rfl⟩
  fail error := by
    rintro cursor _ _ ⟨⟩
    exact ⟨motion.refl cursor, Nat.le_refl _, by simp⟩

/-- The relation that holds everywhere. -/
def anywhere : Motion where
  leads _ _ := True
  refl _ := trivial
  trans _ _ := trivial
  frame _ _ _ := trivial
  follow _ := trivial
  lose _ := trivial

/-- What all answers from a place on have in common, they have behind it. -/
def sees (holds : LexerAnswer → Prop) : Motion where
  leads cursor after := cursor.Sees holds → after.Sees holds
  refl _ seen := seen
  trans first second seen := second (first seen)
  frame _ _ _ seen := seen
  follow known seen := by
    obtain ⟨stands, -⟩ := Cursor.following?_eq_some_iff.mp known
    exact seen.of_ok stands
  lose answered seen := ⟨seen.1, (seen.of_error answered).2⟩

end Motion

end TemplatedJson.Parse
