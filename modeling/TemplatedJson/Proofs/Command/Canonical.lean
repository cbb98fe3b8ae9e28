import TemplatedJson.Command.Line
import TemplatedJson.Proofs.Command.Modes
import TemplatedJson.Proofs.Expr.Shape
import TemplatedJson.Proofs.Session.Invariants

/-!
# Canonical texts

The commands that parse a text accept and refuse the same texts, whatever the layout.  The
text that is written for an accepted one is accepted under the same settings and written as
itself, also with the line feed that ends the output.  So what one command writes can be the
input of another, and it is not changed again.
-/

namespace TemplatedJson

variable {text blanks : String} {tree : Expr} {document : Document} {whole : Tree} {mode : Mode}

/-! ### Blanks behind a text -/

theorem Expr.Spells.append_blanks (spells : Expr.Spells text tree)
    (blank : Blanks blanks.toList) : Expr.Spells (text ++ blanks) tree := by
  obtain ⟨tokens, final, lexed, derivation⟩ := spells
  obtain ⟨_, _, -, -, -, -, tile⟩ := exists_tile_of_tokenize lexed
  have before : ∀ token ∈ tokens ++ [final],
      token.stop ≤ text.length ∨ text.length ≤ token.offset := by
    intro token member
    have bound := (tile.bounds token member).2
    rw [Nat.zero_add, String.length_toList] at bound
    exact .inl bound
  obtain ⟨_, relexed, shapes⟩ :=
    tokenize_insert (by rwa [String.append_empty]) blank before
  rw [String.append_empty] at relexed
  obtain ⟨others, last, rfl⟩ := exists_of_tokenize relexed
  rw [List.map_append, List.map_append] at shapes
  exact ⟨others, last, relexed, derivation.congr (List.append_inj_left' shapes rfl)⟩

theorem Document.Spells.append_blanks (spells : document.Spells text)
    (blank : Blanks blanks.toList) : document.Spells (text ++ blanks) := by
  cases document with
  | expression tree => exact Expr.Spells.append_blanks spells blank
  | json node =>
      obtain ⟨isContainer, element⟩ := spells
      refine ⟨isContainer, ?_⟩
      have wider := element.surround blanks_nil blank
      rwa [List.nil_append, ← String.toList_append] at wider

/-! ### Trees that a mode reads -/

/-- Whether a text is one of the given tree in a mode. -/
def Tree.Spells (mode : Mode) (text : String) : Tree → Prop
  | .expression tree => mode = .expression ∧ Expr.Spells text tree
  | .value _ => False
  | .document document => mode = .document ∧ document.Spells text

namespace Tree.Spells

theorem source (spells : whole.Spells mode text) (pretty : Bool) :
    whole.Spells mode (whole.source pretty) := by
  cases whole with
  | expression tree => exact ⟨spells.1, Expr.Spells.source spells.2⟩
  | value node => exact spells
  | document document =>
      refine ⟨spells.1, ?_⟩
      cases pretty with
      | false => exact Document.Spells.source spells.2
      | true => exact Document.Spells.indentedSource spells.2

theorem append_blanks (spells : whole.Spells mode text) (blank : Blanks blanks.toList) :
    whole.Spells mode (text ++ blanks) := by
  cases whole with
  | expression tree => exact ⟨spells.1, Expr.Spells.append_blanks spells.2 blank⟩
  | value node => exact spells
  | document document => exact ⟨spells.1, Document.Spells.append_blanks spells.2 blank⟩

end Tree.Spells

namespace Command

variable {settings : Settings} {shown : String}

/-- A tree is read exactly from its texts in the mode of the settings, under a limit that it
fits under. -/
theorem observed_eq_ok_iff : settings.observed.result = .ok whole ↔
    whole.Spells settings.mode settings.text ∧ whole.nesting ≤ settings.options.maxDepth := by
  obtain ⟨text, mode, pretty, options⟩ := settings
  constructor
  · intro read
    cases mode with
    | document =>
        obtain ⟨document, parsed, rfl⟩ := exists_of_map_eq_ok read
        obtain ⟨spells, fits⟩ := parseDocument_eq_ok_iff.mp (congrArg Outcome.ofExcept parsed)
        exact ⟨⟨rfl, spells⟩, fits⟩
    | expression =>
        obtain ⟨tree, parsed, rfl⟩ := exists_of_map_eq_ok read
        obtain ⟨spells, fits⟩ := parseExpression_eq_ok_iff.mp (congrArg Outcome.ofExcept parsed)
        exact ⟨⟨rfl, spells⟩, fits⟩
  · rintro ⟨spells, fits⟩
    cases whole with
    | expression tree =>
        obtain ⟨rfl, spells⟩ := spells
        have parsed := Outcome.ofExcept_inj.mp (parseExpression_eq_ok_iff.mpr ⟨spells, fits⟩)
        exact congrArg (Except.map Tree.expression) parsed
    | value node => exact spells.elim
    | document document =>
        obtain ⟨rfl, spells⟩ := spells
        have parsed := Outcome.ofExcept_inj.mp (parseDocument_eq_ok_iff.mpr ⟨spells, fits⟩)
        exact congrArg (Except.map Tree.document) parsed

/-! ### What the commands answer -/

theorem exists_of_format (formatted : format settings = .ok shown) :
    ∃ whole, settings.observed.result = .ok whole ∧ shown = whole.source settings.pretty := by
  unfold format at formatted
  rw [settings.toExcept_outcome] at formatted
  split at formatted
  · next whole read => exact ⟨whole, read, (Except.ok.inj formatted).symm⟩
  · cases formatted

/-- Whether the commands agree on a text.  They all accept it, or they all refuse it with the
error that the outcome shows. -/
structure Agree (settings : Settings) : Prop where
  check : check settings = .ok () ↔ (parse settings).success = true
  format : (∃ shown, format settings = .ok shown) ↔ (parse settings).success = true
  failure : (parse settings).success = false → ∃ error,
    Command.check settings = .error (.parse error) ∧
      Command.format settings = .error (.parse error) ∧
      (parse settings).json = jsonText settings.pretty (.object [⟨"success", .boolean false⟩,
        ⟨"error", .object [⟨"kind", .string error.kind⟩, ⟨"message", .string error.message⟩,
          ⟨"offset", .count error.offset⟩]⟩])

theorem agree (settings : Settings) : Agree settings := by
  cases read : settings.observed.result with
  | ok whole =>
      obtain ⟨checked, formatted, succeeds⟩ := answers_of_ok read
      exact ⟨by simp [checked, succeeds], by simp [formatted, succeeds], by simp [succeeds]⟩
  | error error =>
      obtain ⟨checked, formatted, parsed⟩ := answers_of_error read
      refine ⟨by simp [checked, parsed], by simp [formatted, parsed], fun _ => ?_⟩
      exact ⟨error, checked, formatted, by rw [parsed]; rfl⟩

/-- Whether the commands accept and refuse alike under two settings.  What they show for an
accepted text may differ. -/
structure AcceptAlike (settings others : Settings) : Prop where
  success : (parse settings).success = (parse others).success
  check : check settings = check others
  refusal : ∀ failure, format settings = .error failure ↔ format others = .error failure

theorem acceptAlike_withPretty (settings : Settings) (pretty : Bool) :
    AcceptAlike { settings with pretty } settings := by
  cases read : settings.observed.result with
  | ok whole =>
      obtain ⟨checked, formatted, succeeds⟩ := answers_of_ok read
      obtain ⟨checkedAgain, formattedAgain, succeedsAgain⟩ :=
        @answers_of_ok { settings with pretty } whole read
      exact ⟨by rw [succeeds, succeedsAgain], by rw [checked, checkedAgain],
        by simp [formatted, formattedAgain]⟩
  | error error =>
      obtain ⟨checked, formatted, parsed⟩ := answers_of_error read
      obtain ⟨checkedAgain, formattedAgain, parsedAgain⟩ :=
        @answers_of_error { settings with pretty } error read
      exact ⟨by rw [parsed, parsedAgain], by rw [checked, checkedAgain],
        by simp [formatted, formattedAgain]⟩

/-! ### Written texts are canonical -/

/-- What is written for a text is read as the same tree, also with a line feed behind it. -/
theorem observed_of_format (formatted : format settings = .ok shown) :
    ∃ whole, shown = whole.source settings.pretty ∧
      ∀ text ∈ [shown, shown ++ "\n"], { settings with text }.observed.result = .ok whole := by
  obtain ⟨whole, read, rfl⟩ := exists_of_format formatted
  obtain ⟨spells, fits⟩ := observed_eq_ok_iff.mp read
  have written := spells.source settings.pretty
  refine ⟨whole, rfl, fun text member => observed_eq_ok_iff.mpr ⟨?_, fits⟩⟩
  simp only [List.mem_cons, List.not_mem_nil, or_false] at member
  rcases member with rfl | rfl
  · exact written
  · have blank : Blanks "\n".toList := by simpa using JsonText.blanks_newline
    exact written.append_blanks blank

/-- A text that was written is accepted and written as itself. -/
theorem answers_of_format (formatted : format settings = .ok shown) :
    ∀ text ∈ [shown, shown ++ "\n"],
      check { settings with text } = .ok () ∧ format { settings with text } = .ok shown := by
  obtain ⟨whole, rfl, read⟩ := observed_of_format formatted
  intro text member
  obtain ⟨checked, formattedAgain, -⟩ := answers_of_ok (read text member)
  exact ⟨checked, formattedAgain⟩

/-! ### Pipes -/

theorem inputText_toUTF8 (text : String) : inputText text.toUTF8 = .ok text := by
  unfold inputText String.fromUTF8?
  rw [String.toUTF8_eq_toByteArray, dif_pos text.isValidUTF8]
  rfl

/-- The command line for an action that takes its text from the input. -/
def Settings.invocation (settings : Settings) (action : Action) : Invocation :=
  ⟨action, none, settings.mode, settings.pretty, settings.options⟩

/-- What another command line does with the output of one. -/
def Exit.pipe (exit : Exit) (invocation : Invocation) : Exit :=
  invocation.run (inputText exit.output.toUTF8)

theorem Exit.pipe_eq (exit : Exit) (invocation : Invocation) :
    exit.pipe invocation = invocation.runOn exit.output := by
  unfold Exit.pipe
  rw [inputText_toUTF8]
  rfl

theorem runOn_format (formatted : format settings = .ok shown) :
    (settings.invocation .format).runOn settings.text = ⟨0, shown ++ "\n", ""⟩ := by
  have result : Exit.ofResult (format settings) = ⟨0, shown ++ "\n", ""⟩ := by rw [formatted]; rfl
  exact result

theorem runOn_check (checked : check settings = .ok ()) :
    (settings.invocation .check).runOn settings.text = ⟨0, "ok\n", ""⟩ := by
  have result : Exit.ofResult ((check settings).map fun _ => "ok") = ⟨0, "ok\n", ""⟩ := by
    rw [checked]
    rfl
  exact result

end Command

/-- All commands that parse accept the same texts, whatever the layout, and they refuse a text
with the error that the outcome shows.  The text that is written for an accepted one is
canonical.  With or without a line feed behind it, it is accepted under the same settings and
written as itself, so the output can be piped into either command. -/
theorem format_is_checked_fixpoint (settings : Command.Settings) :
    Command.Agree settings ∧
    (∀ pretty, Command.AcceptAlike { settings with pretty } settings) ∧
    ∀ shown, Command.format settings = .ok shown →
      (∀ text ∈ [shown, shown ++ "\n"], Command.check { settings with text } = .ok () ∧
        Command.format { settings with text } = .ok shown) ∧
      ∃ exit : Command.Exit, exit = ⟨0, shown ++ "\n", ""⟩ ∧
        (settings.invocation .format).runOn settings.text = exit ∧
        exit.pipe (settings.invocation .format) = exit ∧
        ∀ pretty, exit.pipe ({ settings with pretty }.invocation .check) = ⟨0, "ok\n", ""⟩ := by
  refine ⟨Command.agree settings, Command.acceptAlike_withPretty settings,
    fun shown formatted => ?_⟩
  have again := Command.answers_of_format formatted
  obtain ⟨checked, same⟩ := again (shown ++ "\n") (by simp)
  refine ⟨again, _, rfl, Command.runOn_format formatted, ?_, fun pretty => ?_⟩
  · rw [Command.Exit.pipe_eq]
    exact @Command.runOn_format { settings with text := shown ++ "\n" } _ same
  · rw [Command.Exit.pipe_eq]
    have alike := Command.acceptAlike_withPretty { settings with text := shown ++ "\n" } pretty
    exact @Command.runOn_check { settings with text := shown ++ "\n", pretty }
      (alike.check.trans checked)

/-- A block template is written as an inline one, with indentation, and stays as it is then. -/
theorem format_is_checked_fixpoint_of_block :
    Command.format ⟨"[ \"\x7b\x7ba\x7d\x7d\" ]", .document, true, ⟨2⟩⟩ = .ok "[\n  \"=a\"\n]" ∧
      Command.check ⟨"[\n  \"=a\"\n]\n", .document, true, ⟨2⟩⟩ = .ok () ∧
      Command.format ⟨"[\n  \"=a\"\n]\n", .document, true, ⟨2⟩⟩ = .ok "[\n  \"=a\"\n]" := by
  let array : Tree := .document (.json (.array [.template (.identifier "a")]))
  have read : (Command.Settings.mk "[ \"\x7b\x7ba\x7d\x7d\" ]" .document true
      ⟨2⟩).observed.result = .ok array :=
    eq_ok_of_toOption (by decide +kernel)
  have written : array.source true = "[\n  \"=a\"\n]" := by decide +kernel
  have formatted := (Command.answers_of_ok read).2.1
  rw [written] at formatted
  have again := (format_is_checked_fixpoint _).2.2 _ formatted
  have ended : "[\n  \"=a\"\n]" ++ "\n" = "[\n  \"=a\"\n]\n" := by decide +kernel
  rw [ended] at again
  exact ⟨formatted, again.1 _ (by simp)⟩

end TemplatedJson
