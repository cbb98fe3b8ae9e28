import TemplatedJson.Proofs.Reading.Order
import TemplatedJson.Proofs.Reading.Refusal
import TemplatedJson.Proofs.Template.Occurrences

/-!
# The templates that a run meets

A run passes some tokens, and the templates that it meets are the occurrences among them.  All
of these are read, in their order, if the run succeeds.  If it fails, then either all of them
were read too, or the last one could not be, and the run fails with its error.
-/

namespace TemplatedJson

open Template

/-- Whether a cursor was left where a lexer stands: at the token of the next call, with nothing
behind it used up but possibly one error. -/
def Cursor.StopsAt (cursor : Cursor) (lexer : Lexer) : Prop :=
  cursor.StandsAt lexer ∨ ∃ before : Cursor, before.StandsAt lexer ∧
    before.current = cursor.current ∧
      ∃ error, before.upcoming.next = (.error error, cursor.upcoming)

/-- Where the lexer answers with a token, it yields the one at the cursor and goes on. -/
theorem Cursor.StandsAt.yields_current {cursor : Cursor} {lexer : Lexer} {token : Token}
    {upcoming : TokenStream} (stands : cursor.StandsAt lexer)
    (notEnd : cursor.current.kind ≠ .endOfInput)
    (answered : cursor.upcoming.next = (.ok token, upcoming)) :
    ∃ middle : Lexer, lexer.Yields [cursor.current] middle ∧
      Cursor.StandsAt { cursor with current := token, upcoming := upcoming } middle := by
  obtain ⟨middle, read⟩ := stands.next
  have known := Cursor.following?_of_next answered
  exact ⟨middle, .token read notEnd (.none middle), ((stands.following?_eq_some_iff read).mp known).1⟩

/-- How occurrences are read on the way to an error: all of them become trees, or all but the
last one, which the error is about. -/
inductive Template.ReadUpTo (maximum : Nat) : List Occurrence → ParseError → Prop
  | outside {occurrences : List Occurrence} {error : ParseError} (trees : List Expr) :
      occurrences.map (Occurrence.read maximum) = trees.map .ok →
        ReadUpTo maximum occurrences error
  | inside {occurrences : List Occurrence} {last : Occurrence} {error : ParseError}
      (trees : List Expr) :
      occurrences.map (Occurrence.read maximum) = trees.map .ok → last.read maximum = .error error →
        ReadUpTo maximum (occurrences ++ [last]) (last.relocated error)

theorem Template.ReadUpTo.prepend {maximum : Nat} {occurrences others : List Occurrence}
    {trees : List Expr} {error : ParseError}
    (read : occurrences.map (Occurrence.read maximum) = trees.map .ok)
    (told : ReadUpTo maximum others error) : ReadUpTo maximum (occurrences ++ others) error := by
  cases told with
  | outside more readOthers =>
      apply outside (trees ++ more)
      rw [List.map_append, List.map_append, read, readOthers]
  | inside more readOthers failed =>
      rw [← List.append_assoc]
      apply inside (trees ++ more) _ failed
      rw [List.map_append, List.map_append, read, readOthers]

namespace Parse

variable {Value Image : Type} {maximum depth : Nat} {start middle finish : Setting}
  {lexer last : Lexer} {cursor after : Cursor} {tokens : List Token}
  {holds : Value → List Expr → Prop} {whole : Image → List Expr → Prop}

/-- Whether a run passes some tokens and meets just the occurrences of templates among them. -/
structure Meets (start : Setting) (lexer : Lexer) (cursor : Cursor) (tokens : List Token)
    (last : Lexer) (after : Cursor) : Prop where
  yields : lexer.Yields tokens last
  sightings : after.sightings =
    cursor.sightings ++ (start.occurrences tokens).map Occurrence.sighting

theorem Meets.refl (start : Setting) (lexer : Lexer) (cursor : Cursor) :
    Meets start lexer cursor [] lexer cursor where
  yields := .none lexer
  sightings := (List.append_nil _).symm

theorem Meets.trans {others : List Token} {final : Lexer} {stopped : Cursor}
    (first : Meets start lexer cursor tokens last after)
    (second : Meets (start.after tokens) last after others final stopped) :
    Meets start lexer cursor (tokens ++ others) final stopped where
  yields := first.yields.append second.yields
  sightings := by
    rw [second.sightings, first.sightings, start.occurrences_append, List.map_append,
      List.append_assoc]

/-- Whether a run meets the occurrences among the tokens that it passes.  A success leads from
one setting to another one and reads all of the occurrences, and its value is in the given
relation to their trees. -/
inductive Records (maximum : Nat) (start finish : Setting) (holds : Value → List Expr → Prop)
    (lexer : Lexer) (cursor : Cursor) : Ending Value → Prop
  | value {value : Value} {after : Cursor} {tokens : List Token} {last : Lexer}
      {trees : List Expr} :
      Meets start lexer cursor tokens last after → after.StandsAt last →
        after.depth = cursor.depth → start.after tokens = finish →
          (start.occurrences tokens).map (Occurrence.read maximum) = trees.map .ok →
            holds value trees → Records maximum start finish holds lexer cursor (.ok value, after)
  | error {error : ParseError} {after : Cursor} {tokens : List Token} {last : Lexer} :
      Meets start lexer cursor tokens last after → after.StopsAt last →
        ReadUpTo maximum (start.occurrences tokens) error →
          Records maximum start finish holds lexer cursor (.error error, after)

namespace Records

theorem pure {value : Value} (stands : cursor.StandsAt lexer) (held : holds value []) :
    Records maximum start start holds lexer cursor (.ok value, cursor) :=
  .value (.refl start lexer cursor) stands rfl rfl rfl held

theorem refused {error : ParseError} (stands : cursor.StandsAt lexer) :
    Records maximum start finish holds lexer cursor (.error error, cursor) :=
  .error (.refl start lexer cursor) (.inl stands) (.outside [] rfl)

/-- Where the first of two parsers stops, the second one goes on. -/
theorem bind {parser : Parse Value} {next : Value → Parse Image}
    (first : Records maximum start middle holds lexer cursor (runAt parser cursor))
    (rest : ∀ ⦃value trees after last⦄, holds value trees → after.StandsAt last →
      after.depth = cursor.depth →
        Records maximum middle finish (fun image more => whole image (trees ++ more)) last after
          (runAt (next value) after)) :
    Records maximum start finish whole lexer cursor (runAt (parser >>= next) cursor) := by
  rw [runAt_bind]
  generalize runAt parser cursor = ending at first ⊢
  cases first with
  | error meets stops told => exact .error meets stops told
  | value meets stands depth arrives read held =>
      subst arrives
      have later := rest held stands depth
      rw [goOn]
      generalize runAt (next _) _ = ending at later ⊢
      cases later with
      | error meetsLater stops told =>
          refine .error (meets.trans meetsLater) stops ?_
          rw [start.occurrences_append]
          exact told.prepend read
      | value meetsLater standsLater depthLater arrivesLater readLater heldLater =>
          refine .value (meets.trans meetsLater) standsLater (depthLater.trans depth) ?_ ?_ heldLater
          · rw [start.after_append, arrivesLater]
          · rw [start.occurrences_append, List.map_append, List.map_append, read, readLater]

/-! ### Steps -/

/-- The token behind the current one cannot be read. -/
theorem lost {error : ParseError} {upcoming : TokenStream} (stands : cursor.StandsAt lexer)
    (answered : cursor.upcoming.next = (.error error, upcoming)) :
    Records maximum start finish holds lexer cursor
      (.error error, { cursor with upcoming := upcoming }) :=
  .error ⟨.none lexer, (List.append_nil _).symm⟩ (.inr ⟨cursor, stands, rfl, error, answered⟩)
    (.outside [] rfl)

/-- Passing a single token. -/
theorem token {value : Value} {token : Token} {trees : List Expr}
    (yields : lexer.Yields [token] last) (standsAfter : after.StandsAt last)
    (sameDepth : after.depth = cursor.depth)
    (sightings : after.sightings =
      cursor.sightings ++ (start.occurrence? token).toList.map Occurrence.sighting)
    (read : (start.occurrence? token).toList.map (Occurrence.read maximum) = trees.map .ok)
    (held : holds value trees) :
    Records maximum start (start.next token.kind) holds lexer cursor (.ok value, after) := by
  have single : start.occurrences [token] = (start.occurrence? token).toList :=
    List.append_nil _
  rw [← single] at sightings read
  exact .value ⟨yields, sightings⟩ standsAfter sameDepth rfl read held

/-- Passing a token that is no occurrence of a template. -/
theorem advance (stands : cursor.StandsAt lexer) (notEnd : cursor.current.kind ≠ .endOfInput)
    (plain : start.occurrence? cursor.current = none) :
    Records maximum start (start.next cursor.current.kind)
      (fun token trees => token = cursor.current ∧ trees = []) lexer cursor
        (runAt advance cursor) := by
  rcases answered : cursor.upcoming.next with ⟨error | token, upcoming⟩
  · rw [runAt_advance_of_error answered]
    exact lost stands answered
  · obtain ⟨middle, yields, standsNext⟩ := stands.yields_current notEnd answered
    rw [runAt_advance_of_ok answered]
    refine .token yields standsNext rfl ?_ ?_ ⟨rfl, rfl⟩
    · simp [plain]
    · simp [plain]

theorem discard_advance (stands : cursor.StandsAt lexer)
    (notEnd : cursor.current.kind ≠ .endOfInput)
    (plain : start.occurrence? cursor.current = none) :
    Records maximum start (start.next cursor.current.kind) (fun _ trees => trees = []) lexer cursor
      (runAt (discard Parse.advance) cursor) := by
  change Records _ _ _ _ _ _ (runAt ((fun _ => PUnit.unit) <$> Parse.advance) cursor)
  rw [map_eq_pure_bind]
  apply (advance stands notEnd plain).bind
  rintro _ _ after last ⟨-, rfl⟩ standsNext _
  exact .pure standsNext rfl

theorem unexpected (stands : cursor.StandsAt lexer) (expected : String) :
    Records maximum start finish holds lexer cursor
      (runAt (Parse.unexpected expected : Parse Value) cursor) := by
  rw [runAt_unexpected]
  exact .refused stands

/-- Passing a token of a known kind that is no string. -/
theorem discard_known {kind : Token.Kind} (stands : cursor.StandsAt lexer)
    (known : cursor.current.kind = kind) (notEnd : kind ≠ .endOfInput)
    (noString : ∀ content quote, kind ≠ .string content quote) (arrives : start.next kind = finish) :
    Records maximum start finish (fun _ trees => trees = []) lexer cursor
      (runAt (discard Parse.advance) cursor) := by
  have plain : start.occurrence? cursor.current = none :=
    Setting.occurrence?_eq_none fun _ content quoted =>
      absurd (known.symm.trans quoted) (noString content .double)
  rw [← arrives, ← known]
  exact discard_advance stands (known ▸ notEnd) plain

/-- Passing a symbol, or failing where there is another token. -/
theorem expect {symbol : Symbol} (stands : cursor.StandsAt lexer)
    (arrives : start.next (.symbol symbol) = finish) :
    Records maximum start finish (fun _ trees => trees = []) lexer cursor
      (runAt (Parse.expect symbol) cursor) := by
  unfold Parse.expect
  rw [runAt_isAt_bind]
  by_cases found : cursor.current.kind = .symbol symbol
  · simp only [found, decide_true, if_true]
    exact discard_known stands found (by simp) (by simp) arrives
  · simp only [found, decide_false, Bool.false_eq_true, if_false]
    exact unexpected stands _

theorem expectEnd (stands : cursor.StandsAt lexer) :
    Records maximum start start (fun _ trees => trees = []) lexer cursor
      (runAt Parse.expectEnd cursor) := by
  unfold Parse.expectEnd
  rw [runAt_currentKind_bind]
  split
  · next ended =>
      rw [runAt_discard_advance (stands.following?_of_end ended)]
      exact .pure stands rfl
  · exact unexpected stands _

theorem deeper {parser : Parse Value}
    (inside : Records maximum start finish holds lexer { cursor with depth := cursor.depth + 1 }
      (runAt parser { cursor with depth := cursor.depth + 1 })) :
    Records maximum start finish holds lexer cursor (runAt (Parse.deeper parser) cursor) := by
  unfold Parse.deeper
  rw [runAt_modify_bind, runAt_bind]
  generalize runAt parser _ = ending at inside ⊢
  cases inside with
  | error meets stops told => exact .error ⟨meets.yields, meets.sightings⟩ stops told
  | value meets stands depth arrives read held =>
      rw [goOn, runAt_modify_bind, runAt_pure]
      exact .value ⟨meets.yields, meets.sightings⟩ stands (by simp [depth]) arrives read held

end Records

/-! ### Items between commas -/

/-- Whether all runs of a parser inside of `depth` containers meet the occurrences among the
tokens that they pass. -/
def RecordsAt (maximum depth : Nat) (start finish : Setting) (parser : Parse Value)
    (holds : Value → List Expr → Prop) : Prop :=
  ∀ ⦃cursor lexer⦄, cursor.StandsAt lexer → cursor.depth = depth →
    Records maximum start finish holds lexer cursor (runAt parser cursor)

variable {item : Parse Value} {trees : Value → List Expr} {outside : Setting} {closing : Symbol}

theorem RecordsAt.commaSeparated
    (items : RecordsAt maximum depth start finish item fun value found => found = trees value)
    (comma : finish.next (.symbol .comma) = start) (more : Nat) :
    RecordsAt maximum depth start finish (commaSeparated item more)
      fun values found => found = values.flatMap trees := by
  induction more with
  | zero =>
      intro cursor lexer stands sameDepth
      apply (items stands sameDepth).bind
      rintro value _ after last rfl standsAfter _
      exact .pure standsAfter (by simp)
  | succ more ih =>
      intro cursor lexer stands sameDepth
      apply (items stands sameDepth).bind
      rintro value _ after last rfl standsAfter depthAfter
      rw [runAt_isAt_bind]
      by_cases atComma : after.current.kind = .symbol .comma
      · simp only [atComma, decide_true, if_true]
        apply (Records.discard_known standsAfter atComma (by simp) (by simp) comma).bind
        rintro _ _ next middle rfl standsNext depthNext
        apply (ih standsNext (depthNext.trans (depthAfter.trans sameDepth))).bind
        rintro values _ stopped final rfl standsStopped _
        exact .pure standsStopped (by simp)
      · simp only [atComma, decide_false, Bool.false_eq_true, if_false]
        exact .pure standsAfter (by simp)

theorem RecordsAt.listUntil
    (items : RecordsAt maximum depth start finish item fun value found => found = trees value)
    (comma : finish.next (.symbol .comma) = start)
    (closes : start.next (.symbol closing) = outside)
    (closesLater : finish.next (.symbol closing) = outside) :
    RecordsAt maximum depth start outside (listUntil closing item)
      fun values found => found = values.flatMap trees := by
  intro cursor lexer stands sameDepth
  unfold Parse.listUntil
  rw [runAt_isAt_bind]
  by_cases closed : cursor.current.kind = .symbol closing
  · simp only [closed, decide_true, if_true]
    apply (Records.discard_known stands closed (by simp) (by simp) closes).bind
    rintro _ _ after last rfl standsAfter _
    exact .pure standsAfter rfl
  · simp only [closed, decide_false, Bool.false_eq_true, if_false]
    rw [runAt_get_bind]
    apply (items.commaSeparated comma _ stands sameDepth).bind
    rintro values _ after last rfl standsAfter _
    apply (Records.expect standsAfter closesLater).bind
    rintro _ _ next middle rfl standsNext _
    exact .pure standsNext (by simp)

end Parse

end TemplatedJson
