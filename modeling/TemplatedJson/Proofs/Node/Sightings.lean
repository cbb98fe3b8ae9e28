import TemplatedJson.Proofs.Node.Congruence
import TemplatedJson.Proofs.Node.Recognition
import TemplatedJson.Proofs.Node.Templates
import TemplatedJson.Proofs.Reading.Sightings

/-!
# The templates that are met in a value

Reading a value meets the occurrences of templates among the tokens that it passes, keys left
out, and a value that is read has the trees of these occurrences as its templates.
-/

namespace TemplatedJson.Parse

open Template

variable {maximum depth : Nat} {start : Setting} {around : List Container}
  {lexer : Lexer} {cursor : Cursor}

/-- The templates of a value are all that were met while it was read. -/
def Tracked (node : Node) (found : List Expr) : Prop :=
  found = node.templates

/-! ### Strings -/

/-- A parser for strings refuses all other tokens where it stands. -/
theorem runAt_jsonString_of_other
    (other : ∀ content, cursor.current.kind ≠ .string content .double) :
    ∃ error, runAt jsonString cursor = (.error error, cursor) := by
  unfold jsonString
  rw [runAt_get_bind]
  dsimp only
  split
  · next content quoted => exact absurd quoted (other content)
  · exact ⟨_, rfl⟩
  · exact ⟨_, rfl⟩

/-- A string that is no value is never a template. -/
theorem Records.key (stands : cursor.StandsAt lexer) (noValue : start.awaitsValue = false) :
    Records maximum start ⟨start.around, false⟩ (fun _ found => found = []) lexer cursor
      (runAt jsonString cursor) := by
  by_cases quoted : ∃ content, cursor.current.kind = .string content .double
  · obtain ⟨content, quoted⟩ := quoted
    have plain : start.occurrence? cursor.current = none :=
      Setting.occurrence?_eq_none fun awaits => by simp [noValue] at awaits
    have passed := @discard_advance maximum start lexer cursor stands (by simp [quoted]) plain
    rw [quoted] at passed
    simp only [jsonString, runAt_get_bind, quoted]
    apply passed.bind
    rintro _ _ after last rfl standsAfter _
    exact .pure standsAfter rfl
  · obtain ⟨error, failed⟩ := runAt_jsonString_of_other (not_exists.mp quoted)
    rw [failed]
    exact .refused stands

/-- A string that is a value is an occurrence of a template, or it holds no expression. -/
theorem Records.stringNode (stands : cursor.StandsAt lexer) (awaits : start.awaitsValue = true)
    (surrounded : cursor.depth = start.around.length) :
    Records maximum start ⟨start.around, false⟩ Tracked lexer cursor
      (runAt (stringNode maximum) cursor) := by
  unfold Parse.stringNode
  by_cases quoted : ∃ content, cursor.current.kind = .string content .double
  · obtain ⟨content, quoted⟩ := quoted
    have arrives : start.next cursor.current.kind = ⟨start.around, false⟩ := by
      rw [quoted]
      rfl
    rw [← arrives]
    rcases answered : cursor.upcoming.next with ⟨error | token, upcoming⟩
    · rw [runAt_bind_of_error (JsonText.runAt_jsonString_of_lost quoted answered)]
      exact .lost stands answered
    · obtain ⟨middle, yields, standsNext⟩ := stands.yields_current (by simp [quoted]) answered
      have known := Cursor.following?_of_next answered
      rw [runAt_bind_of_ok (JsonText.runAt_jsonString quoted known)]
      cases detected : detect? content with
      | none =>
          have absent : start.occurrence? cursor.current = none := by
            apply Setting.occurrence?_eq_none
            intro _ other same
            obtain ⟨rfl, -⟩ := Token.Kind.string.inj (quoted.symm.trans same)
            exact detected
          rw [runAt_stringValue_of_plain detected]
          refine @Records.token _ _ _ _ _ _ _ _ _ _ [] yields standsNext rfl ?_ ?_ rfl
          · simp [absent]
          · simp [absent]
      | some embedded =>
          let occurrence : Occurrence :=
            ⟨cursor.current, content, embedded, start.around.length, quoted, detected⟩
          have found : start.occurrence? cursor.current = some occurrence :=
            @Setting.occurrence?_of_awaitsValue _ occurrence awaits
          have single : start.occurrences [cursor.current] = [occurrence] := by
            simp [Setting.occurrences, found]
          have inside : Expr.parseInside maximum cursor.depth embedded.source =
              occurrence.read maximum := by
            rw [surrounded]
            rfl
          rw [runAt_stringValue_of_embedded detected]
          dsimp only
          rw [inside]
          cases read : occurrence.read maximum with
          | ok tree =>
              refine @Records.token _ _ _ _ _ _ _ _ _ _ [tree] yields standsNext rfl ?_ ?_ rfl
              · simp [found, Occurrence.sighting, occurrence]
              · simp [found, read]
          | error error =>
              have told : ReadUpTo maximum (start.occurrences [cursor.current])
                  (occurrence.relocated error) := by
                rw [single]
                exact @ReadUpTo.inside maximum [] occurrence error [] rfl read
              refine .error ⟨yields, ?_⟩ (.inl standsNext) told
              rw [single]
              rfl
  · obtain ⟨error, failed⟩ := runAt_jsonString_of_other (not_exists.mp quoted)
    rw [runAt_bind_of_error failed]
    exact .refused stands

/-! ### Other values -/

theorem Records.literal {sign digits : String} {offset : Nat} (stands : cursor.StandsAt lexer) :
    Records maximum start start Tracked lexer cursor
      (runAt (jsonNumber sign digits offset) cursor) := by
  unfold jsonNumber
  split
  · split
    · exact .refused stands
    · exact .pure stands rfl
  · exact .refused stands

theorem Records.unsignedNumber (stands : cursor.StandsAt lexer)
    (number : cursor.current.kind = .number) :
    Records maximum start ⟨start.around, false⟩ Tracked lexer cursor
      (runAt unsignedNumber cursor) := by
  unfold Parse.unsignedNumber
  rw [runAt_get_bind]
  apply (Records.discard_known stands number (by simp) (by simp) rfl).bind
  rintro _ _ after last rfl standsAfter _
  exact .literal standsAfter

theorem Records.signedNumber (stands : cursor.StandsAt lexer)
    (minus : cursor.current.kind = .symbol .minus) :
    Records maximum start ⟨start.around, false⟩ Tracked lexer cursor
      (runAt signedNumber cursor) := by
  have passed := @advance maximum start lexer cursor stands (by simp [minus])
    (Setting.occurrence?_eq_none fun _ _ isString => by simp [minus] at isString)
  rw [minus] at passed
  unfold Parse.signedNumber negativeNumber
  rw [runAt_currentKind_bind]
  simp only [minus, if_true]
  apply passed.bind
  rintro token _ after last ⟨rfl, rfl⟩ standsAfter _
  rw [runAt_get_bind]
  split
  · next together =>
      obtain ⟨number, -⟩ : after.current.kind = .number ∧ _ := by simpa using together
      apply (Records.discard_known standsAfter number (by simp) (by simp) rfl).bind
      rintro _ _ next middle rfl standsNext _
      exact .literal standsNext
  · exact .unexpected standsAfter _

/-! ### Values and containers -/

theorem Records.tooDeep (stands : cursor.StandsAt lexer) {finish : Setting} :
    Records maximum start finish Tracked lexer cursor
      (runAt (Parse.deeper (Parse.tooDeep maximum)) cursor) :=
  .deeper (.refused stands)

/-- A value is met as a whole if objects and arrays are. -/
theorem RecordsAt.value {objects arrays : Parse Node}
    (readsObjects :
      RecordsAt maximum around.length ⟨around, true⟩ ⟨around, false⟩ objects Tracked)
    (readsArrays :
      RecordsAt maximum around.length ⟨around, true⟩ ⟨around, false⟩ arrays Tracked) :
    RecordsAt maximum around.length ⟨around, true⟩ ⟨around, false⟩ (value maximum objects arrays)
      Tracked := by
  intro cursor lexer stands sameDepth
  rw [value_eq, runAt_get_bind]
  split
  · exact readsObjects stands sameDepth
  · exact readsArrays stands sameDepth
  · exact .stringNode stands rfl sameDepth
  · next number => exact .unsignedNumber stands number
  · next minus => exact .signedNumber stands minus
  · next truth =>
      apply (Records.discard_known stands truth (by simp) (by simp) rfl).bind
      rintro _ _ after last rfl standsAfter _
      exact .pure standsAfter rfl
  · next null =>
      split
      · apply (Records.discard_known stands null (by simp) (by simp) rfl).bind
        rintro _ _ after last rfl standsAfter _
        exact .pure standsAfter rfl
      · exact .unexpected stands _
  · exact .unexpected stands _

theorem RecordsAt.member {reader : Parse Node}
    (reads : RecordsAt maximum depth ⟨around, true⟩ ⟨around, false⟩ reader Tracked) :
    RecordsAt maximum depth ⟨around, false⟩ ⟨around, false⟩ (member reader)
      fun member found => found = member.value.templates := by
  intro cursor lexer stands sameDepth
  apply (Records.key stands rfl).bind
  rintro key _ divider middle rfl standsDivider depthDivider
  apply (Records.expect standsDivider rfl).bind
  rintro _ _ item inner rfl standsItem depthItem
  apply (reads standsItem (depthItem.trans (depthDivider.trans sameDepth))).bind
  rintro node _ after last rfl standsAfter _
  exact .pure standsAfter (by simp)

theorem RecordsAt.object {reader : Parse Node}
    (reads : RecordsAt maximum depth ⟨.object :: around, true⟩ ⟨.object :: around, false⟩ reader
      Tracked) :
    RecordsAt maximum depth ⟨around, true⟩ ⟨around, false⟩ (object reader) Tracked := by
  intro cursor lexer stands sameDepth
  apply (Records.expect stands rfl).bind
  rintro _ _ first middle rfl standsFirst depthFirst
  apply (reads.member.listUntil rfl rfl rfl standsFirst (depthFirst.trans sameDepth)).bind
  rintro members _ after last rfl standsAfter _
  exact .pure standsAfter (by simp [Tracked, Node.templates, Node.memberTemplates_eq])

theorem RecordsAt.array {reader : Parse Node}
    (reads : RecordsAt maximum depth ⟨.array :: around, true⟩ ⟨.array :: around, false⟩ reader
      Tracked) :
    RecordsAt maximum depth ⟨around, true⟩ ⟨around, false⟩ (array reader) Tracked := by
  intro cursor lexer stands sameDepth
  apply (Records.expect stands rfl).bind
  rintro _ _ first middle rfl standsFirst depthFirst
  apply (reads.listUntil rfl rfl rfl standsFirst (depthFirst.trans sameDepth)).bind
  rintro elements _ after last rfl standsAfter _
  exact .pure standsAfter (by simp [Tracked, Node.templates, Node.elementTemplates_eq])

/-- Reading a value meets the occurrences of templates among the tokens that it passes. -/
theorem records_valueWithin (maximum levels : Nat) (around : List Container) :
    RecordsAt maximum around.length ⟨around, true⟩ ⟨around, false⟩ (valueWithin maximum levels)
      Tracked := by
  induction levels generalizing around with
  | zero => exact .value (fun _ _ stands _ => .tooDeep stands) fun _ _ stands _ => .tooDeep stands
  | succ levels ih =>
      apply RecordsAt.value
      · intro cursor lexer stands sameDepth
        exact .deeper ((ih (.object :: around)).object stands (congrArg (· + 1) sameDepth))
      · intro cursor lexer stands sameDepth
        exact .deeper ((ih (.array :: around)).array stands (congrArg (· + 1) sameDepth))

/-- Reading a document that begins with a container meets the occurrences of templates among
its tokens. -/
theorem records_document (maximum : Nat) (stands : cursor.StandsAt lexer)
    (surface : cursor.depth = 0)
    (opens : JsonText.Opens cursor.current.kind) :
    Records maximum .surface ⟨[], false⟩
      (fun document found => ∃ root, document = .json root ∧ found = root.templates) lexer cursor
      (runAt (document maximum) cursor) := by
  have whole : Records maximum .surface ⟨[], false⟩ Tracked lexer cursor
      (runAt (completeValue maximum) cursor) := by
    unfold completeValue
    rw [runAt_get_bind]
    apply (records_valueWithin maximum _ [] stands surface).bind
    rintro node _ after last rfl standsAfter _
    apply (Records.expectEnd standsAfter).bind
    rintro _ _ next middle rfl standsNext _
    exact .pure standsNext (by simp [Tracked])
  unfold document
  rw [runAt_currentKind_bind]
  rcases opens with kind | kind <;>
  · simp only [kind]
    apply whole.bind
    rintro root _ after last rfl standsAfter _
    exact .pure standsAfter ⟨root, rfl, by simp⟩

end TemplatedJson.Parse
