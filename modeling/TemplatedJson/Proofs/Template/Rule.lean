import TemplatedJson.Proofs.Template.Pattern

/-!
# The rule for templates

A content that begins with an equals sign is an inline template.  A content that is one
span between two pairs of braces, with white space around it, is a block.  Nothing else is
a template.
-/

namespace TemplatedJson.Template

variable {content before source after : List Char}

theorem hasPair_iff {character : Char} {text : List Char} :
    hasPair character text = true ↔ [character, character] <:+: text := by
  induction text using hasPair.induct with
  | case1 first second rest ih =>
      simp only [hasPair, Bool.or_eq_true, ih, List.infix_cons_iff, List.cons_prefix_cons,
        List.nil_prefix, and_true, decide_eq_true_eq, Bool.and_eq_true]
      rw [eq_comm (a := first), eq_comm (a := second)]
  | case2 text short =>
      match text, short with
      | [], _ => simp [hasPair]
      | [single], _ => simp [hasPair, List.infix_cons_iff]
      | first :: second :: rest, short => exact (short _ _ _ rfl).elim

/-- A content is exactly one span between two pairs of braces: no other pair stands in the
span, and no third brace stands next to the two pairs, also not behind white space. -/
structure IsBlock (content before source after : List Char) : Prop
    extends Braced content before source after where
  no_opening : ¬ ['{', '{'] <:+: source
  no_closing : ¬ ['}', '}'] <:+: source
  opens_alone : (Unicode.trim source).head? ≠ some '{'
  closes_alone : (Unicode.trim source).getLast? ≠ some '}'

theorem isSingleSpan_iff :
    isSingleSpan source = true ↔ ¬ ['{', '{'] <:+: source ∧ ¬ ['}', '}'] <:+: source ∧
      (Unicode.trim source).head? ≠ some '{' ∧ (Unicode.trim source).getLast? ≠ some '}' := by
  simp [isSingleSpan, ← hasPair_iff, and_assoc]

theorem IsBlock.isSingleSpan (block : IsBlock content before source after) :
    isSingleSpan source = true :=
  isSingleSpan_iff.mpr ⟨block.no_opening, block.no_closing, block.opens_alone, block.closes_alone⟩

/-- White space and braces are no equals signs. -/
theorem Braced.head?_ne (braced : Braced content before source after) :
    content.head? ≠ some '=' := by
  rw [braced.whole]
  cases before with
  | nil => simp
  | cons first before =>
      rintro starts
      obtain rfl : first = '=' := by simpa using starts
      have blank := braced.blank_before '=' (by simp)
      exact absurd blank (by decide)

section Detection

variable {content source : String} {start : Nat}

theorem detect?_eq_inline_iff :
    detect? content = some ⟨.inline, source, start⟩ ↔
      content.toList = '=' :: source.toList ∧ start = 1 := by
  unfold detect?
  split
  · next rest characters =>
      simp [characters, ← String.toList_inj, eq_comm]
  · next other =>
      constructor
      · intro found
        split at found
        · split at found <;> simp at found
        · simp at found
      · rintro ⟨starts, -⟩
        exact (other _ starts).elim

theorem detect?_eq_block_iff :
    detect? content = some ⟨.block, source, start⟩ ↔
      ∃ before after, IsBlock content.toList before source.toList after ∧
        start = before.length + 2 := by
  unfold detect?
  split
  · next rest characters =>
      constructor
      · intro found
        simp at found
      · rintro ⟨before, after, block, -⟩
        exact (block.head?_ne (by simp [characters])).elim
  · constructor
    · intro found
      split at found
      · next span captured =>
          split at found
          · next single =>
              obtain ⟨before, after, braced⟩ := blockSource?_eq_some_iff.mp captured
              obtain ⟨noOpening, noClosing, opens, closes⟩ := isSingleSpan_iff.mp single
              simp only [braced.takeWhile_eq, Option.some.injEq, Embedded.mk.injEq,
                true_and] at found
              obtain ⟨rfl, rfl⟩ := found
              refine ⟨before, after, ?_, rfl⟩
              rw [String.toList_ofList]
              exact ⟨braced, noOpening, noClosing, opens, closes⟩
          · cases found
      · cases found
    · rintro ⟨before, after, block, rfl⟩
      have captured := blockSource?_eq_some_iff.mpr ⟨before, after, block.toBraced⟩
      simp [captured, block.isSingleSpan, block.takeWhile_eq]

theorem detect?_eq_none_iff :
    detect? content = none ↔ content.toList.head? ≠ some '=' ∧
      ¬ ∃ before source after, IsBlock content.toList before source after := by
  constructor
  · intro missing
    refine ⟨fun starts => ?_, ?_⟩
    · obtain ⟨rest, characters⟩ := List.head?_eq_some_iff.mp starts
      have found := detect?_eq_inline_iff.mpr
        (⟨by simpa using characters, rfl⟩ :
          content.toList = '=' :: (String.ofList rest).toList ∧ 1 = 1)
      simp [missing] at found
    · rintro ⟨before, source, after, block⟩
      have found : detect? content = some ⟨.block, String.ofList source, before.length + 2⟩ :=
        detect?_eq_block_iff.mpr ⟨before, after, by simpa using block, rfl⟩
      simp [missing] at found
  · rintro ⟨starts, spans⟩
    cases found : detect? content with
    | none => rfl
    | some embedded =>
        obtain ⟨form, source, start⟩ := embedded
        cases form with
        | inline =>
            have inline := (detect?_eq_inline_iff.mp found).1
            exact (starts (by simp [inline])).elim
        | block =>
            obtain ⟨before, after, block, -⟩ := detect?_eq_block_iff.mp found
            exact (spans ⟨before, _, after, block⟩).elim

/-- Detection is exactly the rule.  An inline template is an equals sign with its source.
A block is the one span of the content between two pairs of braces, and its source begins
two characters after the white space.  What is neither is no template.  The text between
the braces is what a backtracking matcher captures for the pattern of a block. -/
theorem detection_follows_rule (content : String) :
    (∀ source start, detect? content = some ⟨.inline, source, start⟩ ↔
      content.toList = '=' :: source.toList ∧ start = 1) ∧
    (∀ source start, detect? content = some ⟨.block, source, start⟩ ↔
      ∃ before after, IsBlock content.toList before source.toList after ∧
        start = before.length + 2) ∧
    (∀ before source after before' source' after',
      IsBlock content.toList before source after →
      IsBlock content.toList before' source' after' →
      before = before' ∧ source = source' ∧ after = after') ∧
    (∀ source start, detect? content = some ⟨.block, source, start⟩ →
      source.toList <+: content.toList.drop start) ∧
    (detect? content = none ↔ content.toList.head? ≠ some '=' ∧
      ¬ ∃ before source after, IsBlock content.toList before source after) ∧
    (∀ before source after, greedy? blockPattern content.toList = some [before, source, after] ↔
      Braced content.toList before source after) ∧
    blockSource? content.toList = (greedy? blockPattern content.toList).bind (·[1]?) := by
  refine ⟨fun _ _ => detect?_eq_inline_iff, fun _ _ => detect?_eq_block_iff, ?_, ?_,
    detect?_eq_none_iff, fun _ _ _ => greedy?_eq_some_iff, blockSource?_eq_captured⟩
  · intro before source after before' source' after' block other
    exact block.toBraced.unique other.toBraced
  · intro source start found
    obtain ⟨before, rest, split, rfl, -⟩ := exists_of_detect? found
    rw [split, List.drop_left]
    exact List.prefix_append _ rest

/-- Single braces belong to the source of a block, and wide blanks around it do not. -/
theorem detection_follows_rule_single_braces :
    detect? "\u2003\x7b\x7b f(\x7dx\x7b) \x7d\x7d\n" = some ⟨.block, " f(\x7dx\x7b) ", 3⟩ ∧
      ∀ before source after,
        IsBlock "\u2003\x7b\x7b f(\x7dx\x7b) \x7d\x7d\n".toList before source after →
          before = ['\u2003'] ∧ source = " f(\x7dx\x7b) ".toList ∧ after = ['\n'] := by
  obtain ⟨-, spans, unique, -⟩ := detection_follows_rule "\u2003\x7b\x7b f(\x7dx\x7b) \x7d\x7d\n"
  have block : IsBlock "\u2003\x7b\x7b f(\x7dx\x7b) \x7d\x7d\n".toList ['\u2003']
      " f(\x7dx\x7b) ".toList ['\n'] :=
    ⟨⟨by decide +kernel, List.forall_mem_singleton.mpr (by decide),
      List.forall_mem_singleton.mpr (by decide)⟩, by decide +kernel, by decide +kernel,
      by decide +kernel, by decide +kernel⟩
  exact ⟨(spans _ _).mpr ⟨_, _, block, rfl⟩, fun _ _ _ other => unique _ _ _ _ _ _ other block⟩

end Detection

end TemplatedJson.Template
