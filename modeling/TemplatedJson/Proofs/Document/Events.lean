import TemplatedJson.Json.Tree
import TemplatedJson.Proofs.Document.Recognition
import TemplatedJson.Proofs.Expr.Inside
import TemplatedJson.Proofs.Expr.Sightless
import TemplatedJson.Proofs.Lexing.Moved
import TemplatedJson.Proofs.Node.Sightings
import TemplatedJson.Proofs.Template.Place

/-!
# Events tell how a document is parsed

An observer is told first that a text is going to be parsed, then of every template that is
reached, and at last of the failure if there is one.  What is told of templates follows from
the tokens that the parser has passed.
-/

namespace TemplatedJson

open Parse Template

/-! ### The tokens that were passed -/

/-- The tokens of a text before the one at which a cursor stands. -/
def Cursor.passed (text : String) (cursor : Cursor) : List Token :=
  ((Lexer.ofText text).stream.pending.filterMap Except.toOption).filter fun token =>
    token.offset < cursor.current.offset

variable {text : String} {options : ParseOptions} {lexer last : Lexer} {cursor start : Cursor}
  {tokens : List Token}

theorem Cursor.StopsAt.next (stops : cursor.StopsAt last) :
    ∃ middle, last.next = (.ok cursor.current, middle) := by
  rcases stops with stands | ⟨before, stands, same, -⟩
  · exact stands.next
  · rw [← same]
    exact stands.next

/-- The tokens before a cursor are those that the lexer yields up to there. -/
theorem passed_eq (yields : (Lexer.ofText text).Yields tokens last) (stops : cursor.StopsAt last) :
    cursor.passed text = tokens := by
  obtain ⟨middle, read⟩ := stops.next
  have begins := (Lexer.le_offset_of_next read).1
  have told : tokens.filter (fun token => token.offset < cursor.current.offset) = tokens := by
    apply List.filter_eq_self.mpr
    intro token member
    exact decide_eq_true (Nat.lt_of_lt_of_le (yields.offset_lt token member) begins)
  have untold : (last.stream.pending.filterMap Except.toOption).filter
      (fun token => token.offset < cursor.current.offset) = [] := by
    apply List.filter_eq_nil_iff.mpr
    intro token member
    obtain ⟨answer, pending, found⟩ := List.mem_filterMap.mp member
    have behind := Lexer.offset_le_of_pending read answer pending
    rw [eq_ok_of_toOption found] at behind
    have notBefore : ¬ token.offset < cursor.current.offset := Nat.not_lt.mpr behind
    simpa using notBefore
  unfold Cursor.passed
  rw [yields.stream_eq.1, List.filterMap_append, List.filter_append, untold, List.append_nil]
  simpa [List.filterMap_map, Function.comp_def, Except.toOption] using told

/-- A cursor stands where the lexer was asked for the tokens that were passed and for the one
at the cursor, and gave no others. -/
theorem exists_calls (yields : lexer.Yields tokens last) (stops : cursor.StopsAt last) :
    ∃ calls, cursor.upcoming = (lexer.after calls).stream ∧
      (lexer.answers calls).filterMap Except.toOption = tokens ++ [cursor.current] := by
  obtain ⟨middle, read⟩ := stops.next
  have answers := yields.answers read
  have left := yields.after read
  have known : ((tokens ++ [cursor.current]).map Except.ok : List LexerAnswer).filterMap
      Except.toOption = tokens ++ [cursor.current] := by
    simp [List.filterMap_map, Function.comp_def, Except.toOption]
  have onward := last.stream_next
  rcases stops with stands | ⟨before, stands, same, error, lost⟩
  · rw [stands, read, Prod.mk.injEq] at onward
    exact ⟨tokens.length + 1, by rw [left, onward.2], by rw [answers, known]⟩
  · rw [stands, read, Prod.mk.injEq] at onward
    rw [onward.2, middle.stream_next, Prod.mk.injEq] at lost
    obtain ⟨oneMore, leftBehind⟩ := Lexer.answers_succ (tokens.length + 1) lexer
    refine ⟨tokens.length + 1 + 1, ?_, ?_⟩
    · rw [leftBehind, left, lost.2]
    · rw [oneMore, List.filterMap_append, answers, known, left, lost.1]
      exact List.append_nil _

/-! ### The templates that are reached -/

instance : DecidablePred JsonText.Opens := fun _ => inferInstanceAs (Decidable (_ ∨ _))

/-- The occurrences of templates that are reached while a text is read as a document: they and
the tokens behind them are lexed before the parse ends.  An expression alone has none. -/
def Template.reached (text : String) (options : ParseOptions) : List Occurrence :=
  match Cursor.ofText text 0 with
  | .error _ => []
  | .ok start =>
      if JsonText.Opens start.current.kind then
        Setting.surface.occurrences ((runAt (document options.maxDepth) start).2.passed text)
      else []

theorem reached_of_opens (located : Cursor.ofText text 0 = .ok start)
    (opens : JsonText.Opens start.current.kind) :
    reached text options =
      Setting.surface.occurrences ((runAt (document options.maxDepth) start).2.passed text) := by
  simp only [reached, located, opens, if_true]

theorem reached_of_not_opens (located : Cursor.ofText text 0 = .ok start)
    (notOpens : ¬ JsonText.Opens start.current.kind) : reached text options = [] := by
  simp only [reached, located, notOpens, if_false]

theorem observeDocument_of_ofText (located : Cursor.ofText text 0 = .ok start) :
    observeDocument text options =
      ⟨(runAt (document options.maxDepth) start).1,
        .started .document text.utf8ByteSize options.maxDepth ::
          (runAt (document options.maxDepth) start).2.sightings.map .template ++
            Event.ofFailure (runAt (document options.maxDepth) start).1⟩ := by
  simp only [observeDocument, observe, located]

/-- How a parse of a document ends: the templates that were reached are those of the document,
or they were read up to the error. -/
inductive EndsAs (maximum : Nat) (reached : List Occurrence) : Except ParseError Document → Prop
  | value {document : Document} :
      reached.map (Occurrence.read maximum) = document.templates.map .ok →
        EndsAs maximum reached (.ok document)
  | error {error : ParseError} : ReadUpTo maximum reached error →
      EndsAs maximum reached (.error error)

/-- An expression that is read or not reaches no templates. -/
theorem EndsAs.of_expression {maximum : Nat} (result : Except ParseError Expr) :
    EndsAs maximum [] (result.map .expression) := by
  cases result with
  | ok tree => exact .value rfl
  | error error => exact .error (.outside [] rfl)

/-- What is told of a parse: how it began, which templates it reached, and how it ended.  The
templates are strings that come one behind the other. -/
structure Mirrors (maximum : Nat) (reached : List Occurrence) (entry : Event)
    (observed : Observed Document) : Prop where
  events : observed.events =
    entry :: reached.map (fun occurrence => .template occurrence.sighting) ++
      Event.ofFailure observed.result
  ordered : reached.Pairwise fun first second => first.token.offset < second.token.offset
  lexical : ∀ occurrence ∈ reached, occurrence.token.Lexical
  ends : EndsAs maximum reached observed.result

theorem Mirrors.of_meets {maximum : Nat} {entry : Event} {final : Cursor}
    {result : Except ParseError Document} (unseen : start.sightings = [])
    (meets : Meets .surface lexer start tokens last final)
    (ends : EndsAs maximum (Setting.surface.occurrences tokens) result) :
    Mirrors maximum (Setting.surface.occurrences tokens) entry
      ⟨result, entry :: final.sightings.map .template ++ Event.ofFailure result⟩ where
  events := by
    rw [meets.sightings, unseen, List.nil_append, List.map_map]
    rfl
  ordered := by
    have ordered := meets.yields.pairwise.sublist (Setting.surface.occurrences_sublist tokens)
    rwa [List.pairwise_map] at ordered
  lexical occurrence member := by
    have among := (Setting.surface.occurrences_sublist tokens).subset (List.mem_map_of_mem member)
    exact meets.yields.lexical _ among
  ends := ends

/-- Reading a document that begins with a container meets just the templates that are
reached. -/
theorem exists_meets_of_opens (located : Cursor.ofText text 0 = .ok start)
    (opens : JsonText.Opens start.current.kind) :
    ∃ last, Meets .surface (Lexer.ofText text) start
        ((runAt (document options.maxDepth) start).2.passed text) last
          (runAt (document options.maxDepth) start).2 ∧
      (runAt (document options.maxDepth) start).2.StopsAt last ∧
      EndsAs options.maxDepth (reached text options)
        (runAt (document options.maxDepth) start).1 := by
  obtain ⟨stands, surface, -⟩ := Cursor.ofText_eq_ok_iff.mp located
  have records := records_document options.maxDepth stands surface opens
  rw [reached_of_opens located opens]
  generalize runAt (document options.maxDepth) start = ending at records ⊢
  cases records with
  | @value _ after _ last _ meets standsAfter _ _ read held =>
      obtain ⟨root, rfl, rfl⟩ := held
      rw [passed_eq meets.yields (.inl standsAfter)]
      exact ⟨last, meets, .inl standsAfter, .value read⟩
  | @error _ _ _ last meets stops told =>
      rw [passed_eq meets.yields stops]
      exact ⟨last, meets, stops, .error told⟩

theorem sightings_of_not_opens (maximum : Nat) (notOpens : ¬ JsonText.Opens cursor.current.kind) :
    (runAt (document maximum) cursor).2.sightings = cursor.sightings := by
  have expression : Sightless (completeExpression ⟨maximum, 0⟩ >>= fun tree =>
      pure (Document.expression tree)) :=
    (sightless_completeExpression _).bind fun _ _ => rfl
  unfold document
  rw [runAt_currentKind_bind]
  split
  · next kind => exact absurd (.inl kind) notOpens
  · next kind => exact absurd (.inr kind) notOpens
  · exact expression cursor

/-- What is told of a text: that it is parsed, the templates that are reached, and the failure
if there is one. -/
theorem mirrors (text : String) (options : ParseOptions) :
    Mirrors options.maxDepth (reached text options)
      (.started .document text.utf8ByteSize options.maxDepth) (observeDocument text options) := by
  cases located : Cursor.ofText text 0 with
  | error error =>
      simp only [observeDocument, observe, reached, located]
      exact ⟨rfl, .nil, List.forall_mem_nil _, .error (.outside [] rfl)⟩
  | ok start =>
      have unseen := (Cursor.ofText_eq_ok_iff.mp located).2.2
      rw [observeDocument_of_ofText located]
      by_cases opens : JsonText.Opens start.current.kind
      · obtain ⟨last, meets, -, ends⟩ := @exists_meets_of_opens text options start located opens
        rw [reached_of_opens located opens] at ends ⊢
        exact .of_meets unseen meets ends
      · have sightings := (sightings_of_not_opens options.maxDepth opens).trans unseen
        rw [reached_of_not_opens located opens, sightings, runAt_document_of_not_opens opens]
        exact ⟨rfl, .nil, List.forall_mem_nil _, .of_expression _⟩

/-- An expression tells of no templates. -/
theorem expression_events_eq (text : String) (options : ParseOptions) :
    (observeExpression text options).events =
      .started .expression text.utf8ByteSize options.maxDepth ::
        Event.ofFailure (observeExpression text options).result := by
  cases located : Cursor.ofText text 0 with
  | error error => simp [observeExpression, observe, located, Event.ofFailure]
  | ok start =>
      have unseen := (Cursor.ofText_eq_ok_iff.mp located).2.2
      have sightings := (sightless_completeExpression ⟨options.maxDepth, 0⟩ start).trans unseen
      simp [observeExpression, observe, located, sightings]

/-! ### Levels -/

theorem Event.level_of_mem_ofFailure {Tree : Type} {result : Except ParseError Tree} {event : Event}
    (member : event ∈ Event.ofFailure result) : event.level = "DEBUG" := by
  cases result with
  | ok tree => cases member
  | error error =>
      obtain rfl := List.eq_of_mem_singleton member
      rfl

theorem Mirrors.levels {maximum : Nat} {reached : List Occurrence} {mode : Mode}
    {bytes maxDepth : Nat} {observed : Observed Document}
    (mirrors : Mirrors maximum reached (.started mode bytes maxDepth) observed) :
    observed.events.map Event.level =
      "DEBUG" :: reached.map (fun _ => "TRACE") ++
        (Event.ofFailure observed.result).map fun _ => "DEBUG" := by
  have failures := List.map_congr_left fun event (member : event ∈ Event.ofFailure observed.result) =>
    Event.level_of_mem_ofFailure member
  rw [mirrors.events, List.map_append, List.map_cons, List.map_map, failures]
  rfl

/-- Nothing that is told of an expression is for tracing. -/
theorem level_of_mem_expression_events {event : Event}
    (member : event ∈ (observeExpression text options).events) : event.level = "DEBUG" := by
  rw [expression_events_eq, List.mem_cons] at member
  rcases member with rfl | failure
  · rfl
  · exact Event.level_of_mem_ofFailure failure

/-! ### Failures inside of templates -/

/-- An error of the expression in a string concerns a place between the quotes of the string, or
the closing quote. -/
theorem Template.Occurrence.bounds {occurrence : Occurrence} (error : ParseError)
    (lexical : occurrence.token.Lexical) :
    occurrence.token.offset < (occurrence.relocated error).offset ∧
      (occurrence.relocated error).offset < occurrence.token.stop := by
  have spelled := lexical.spelled
  rw [occurrence.quoted] at spelled
  obtain ⟨inside, raw, -⟩ := spelled
  have length := congrArg List.length raw
  simp only [String.length_toList, List.length_cons, List.length_append, List.length_nil] at length
  simp only [relocated, ParseError.relocate, rawIndex, Token.stop]
  omega

theorem not_mem_of_read {maximum : Nat} {occurrences : List Occurrence} {trees : List Expr}
    {occurrence : Occurrence} {error : ParseError}
    (read : occurrences.map (Occurrence.read maximum) = trees.map .ok)
    (failed : occurrence.read maximum = .error error) : occurrence ∉ occurrences := by
  intro member
  have found := List.mem_map_of_mem (f := Occurrence.read maximum) member
  rw [read, failed] at found
  simp at found

/-- Only the last template may be one that cannot be read, and then the error is its own. -/
theorem EndsAs.eq_last {maximum : Nat} {reached : List Occurrence} {occurrence : Occurrence}
    {result : Except ParseError Document} {error : ParseError}
    (ends : EndsAs maximum reached result) (member : occurrence ∈ reached)
    (failed : occurrence.read maximum = .error error) :
    reached.getLast? = some occurrence ∧ result = .error (occurrence.relocated error) := by
  cases ends with
  | value read => exact absurd member (not_mem_of_read read failed)
  | error told =>
      cases told with
      | outside trees read => exact absurd member (not_mem_of_read read failed)
      | inside trees read lastFailed =>
          have isLast := (List.mem_append.mp member).resolve_left (not_mem_of_read read failed)
          obtain rfl := List.eq_of_mem_singleton isLast
          obtain rfl := Except.error.inj (failed.symm.trans lastFailed)
          exact ⟨List.getLast?_concat, rfl⟩

/-- A document that was read has just the templates that were reached. -/
theorem EndsAs.hasTemplates_iff {maximum : Nat} {reached : List Occurrence} {root : Node}
    (ends : EndsAs maximum reached (.ok (.json root))) :
    root.hasTemplates = true ↔ reached ≠ [] := by
  cases ends with
  | value read =>
      have lengths := congrArg List.length read
      simp only [List.length_map, Document.templates] at lengths
      rw [root.hasTemplates_iff, ne_eq, ne_eq, ← List.length_eq_zero_iff, ← lengths,
        List.length_eq_zero_iff]

/-- Events mirror the parse of a document.  First comes one that the text is parsed, then one
for every template that is reached, and at last one for the failure if the parse fails.

The events of templates are for tracing, and those of the beginning and of the failure are for
debugging.

The templates that are reached are the occurrences among the tokens that the parser has passed.
At the end the parser stands where the lexer has been asked for these tokens and for the one
behind them, and has given no others.  The templates come in the order of the document, each with the form that its content
has and the offset of its string.

If the parse succeeds, they are the templates of the tree, in order, and the root has templates
if there is at least one.  If the expression of a template cannot be read, this is the last
one, and the document fails with its error at a place within its string.

A text that is parsed as an expression tells of no templates, and nothing is told for tracing. -/
theorem events_mirror_parse (text : String) (options : ParseOptions) :
    (observeDocument text options).events =
        .started .document text.utf8ByteSize options.maxDepth ::
          (reached text options).map (fun occurrence => .template occurrence.sighting) ++
            Event.ofFailure (observeDocument text options).result ∧
      (observeDocument text options).events.map Event.level =
        "DEBUG" :: (reached text options).map (fun _ => "TRACE") ++
          (Event.ofFailure (observeDocument text options).result).map (fun _ => "DEBUG") ∧
      (∀ start, Cursor.ofText text 0 = .ok start → JsonText.Opens start.current.kind →
        ∃ final calls, final = (runAt (document options.maxDepth) start).2 ∧
          reached text options = Setting.surface.occurrences (final.passed text) ∧
          final.upcoming = ((Lexer.ofText text).after calls).stream ∧
          ((Lexer.ofText text).answers calls).filterMap Except.toOption =
            final.passed text ++ [final.current]) ∧
      (reached text options).Pairwise
        (fun first second => first.token.offset < second.token.offset) ∧
      (∀ document, (observeDocument text options).result = .ok document →
        (reached text options).map (Occurrence.read options.maxDepth) =
            document.templates.map .ok ∧
          ∀ root, document = .json root →
            (root.hasTemplates = true ↔ reached text options ≠ [])) ∧
      (∀ occurrence ∈ reached text options, ∀ error,
        occurrence.read options.maxDepth = .error error →
          (reached text options).getLast? = some occurrence ∧
            (observeDocument text options).result = .error (occurrence.relocated error) ∧
            occurrence.token.offset < (occurrence.relocated error).offset ∧
            (occurrence.relocated error).offset < occurrence.token.stop) ∧
      (observeExpression text options).events =
          .started .expression text.utf8ByteSize options.maxDepth ::
            Event.ofFailure (observeExpression text options).result ∧
      ∀ event ∈ (observeExpression text options).events, event.level = "DEBUG" := by
  have mirrored := mirrors text options
  refine ⟨mirrored.events, mirrored.levels, ?_, mirrored.ordered, ?_, ?_,
    expression_events_eq text options, fun _ => level_of_mem_expression_events⟩
  · intro start located opens
    obtain ⟨last, meets, stops, -⟩ := exists_meets_of_opens located opens
    obtain ⟨calls, upcoming, answers⟩ := exists_calls meets.yields stops
    exact ⟨_, calls, rfl, reached_of_opens located opens, upcoming, answers⟩
  · intro document read
    have ends := mirrored.ends
    rw [read] at ends
    constructor
    · cases ends with
      | value trees => exact trees
    · rintro root rfl
      exact ends.hasTemplates_iff
  · intro occurrence member error failed
    obtain ⟨isLast, refused⟩ := mirrored.ends.eq_last member failed
    exact ⟨isLast, refused, occurrence.bounds error (mirrored.lexical occurrence member)⟩

/-- A key is no template, and the second template fails behind its plus sign.  Without it the
array would be read, and it would have a template. -/
theorem events_mirror_parse_of_unfinished :
    (observeDocument "[\"=a\",\x7b\"=k\":\"\x7b\x7bb +\x7d\x7d\"\x7d]" ⟨4⟩).events =
      [.started .document 23 4, .template ⟨.inline, 1⟩, .template ⟨.block, 12⟩,
        .failed ⟨.unexpectedToken "expression" "end of input", 18⟩] ∧
    (observeDocument "[\"=a\",\x7b\"=k\":\"\x7b\x7bb +\x7d\x7d\"\x7d]" ⟨4⟩).events.map Event.level =
      ["DEBUG", "TRACE", "TRACE", "DEBUG"] ∧
    ∃ root, (observeDocument "[\"=a\"]" ⟨2⟩).result = .ok (.json root) ∧
      root.hasTemplates = true := by
  let first : Occurrence :=
    ⟨⟨.string "=a" .double, "\"=a\"", 1⟩, "=a", ⟨.inline, "a", 1⟩, 1, rfl, by decide⟩
  let last : Occurrence :=
    ⟨⟨.string "\x7b\x7bb +\x7d\x7d" .double, "\"\x7b\x7bb +\x7d\x7d\"", 12⟩,
      "\x7b\x7bb +\x7d\x7d", ⟨.block, "b +", 2⟩, 2, rfl, by decide⟩
  have all : reached "[\"=a\",\x7b\"=k\":\"\x7b\x7bb +\x7d\x7d\"\x7d]" ⟨4⟩ =
      [first, last] := by
    decide +kernel
  have failed : last.read 4 = .error ⟨.unexpectedToken "expression" "end of input", 3⟩ :=
    Outcome.ofExcept_inj.mp (by decide +kernel)
  have one : reached "[\"=a\"]" ⟨2⟩ ≠ [] := by decide +kernel
  have read : (observeDocument "[\"=a\"]" ⟨2⟩).result =
      .ok (.json (.array [.template (.identifier "a")])) :=
    Outcome.ofExcept_inj.mp (by decide +kernel)
  obtain ⟨told, levels, -, -, -, failing, -⟩ :=
    events_mirror_parse "[\"=a\",\x7b\"=k\":\"\x7b\x7bb +\x7d\x7d\"\x7d]" ⟨4⟩
  obtain ⟨-, refused, -⟩ := failing last (by simp [all]) _ failed
  obtain ⟨-, -, -, -, complete, -⟩ := events_mirror_parse "[\"=a\"]" ⟨2⟩
  refine ⟨?_, ?_, _, read, ((complete _ read).2 _ rfl).mpr one⟩
  · rw [told, all, refused]
    decide +kernel
  · rw [levels, all, refused]
    rfl

end TemplatedJson
