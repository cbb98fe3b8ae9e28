import TemplatedJson.Proofs.Document.Recognition
import TemplatedJson.Proofs.Layout.Lines
import TemplatedJson.Proofs.Lexing.Tiling
import TemplatedJson.Proofs.Node.Outline

/-!
# The indented text of a document

The two texts of a document that was read have the same tokens.  The indented one has
line feeds between tokens only.  It is indented by two spaces for each container that is
open at the beginning of a line, and without its blanks it is the compact text.
-/

namespace TemplatedJson

open Layout
open Token (Shape)

/-- Whether a line that begins behind `before` is indented by the containers that are open
there.  A closing bracket that the line begins with is outside of its container. -/
def Indented (tokens : List Token) (before after : List Char) : Prop :=
  ∃ earlier token later level rest, tokens = earlier ++ token :: later ∧
    token.kind ≠ .endOfInput ∧ (∀ other ∈ earlier, other.stop ≤ before.length) ∧
    after = List.replicate (2 * level) ' ' ++ (token.raw.toList ++ rest) ∧
    token.offset = before.length + 2 * level ∧
    level + closings (earlier ++ [token]) = openings earlier

/-- Whether a text with lines and a text on a single line, with the tokens of each of them,
differ in nothing but their layout. -/
structure SpreadsOut (compact pretty : String) (packed laid : List Token) : Prop where
  shapes : packed.map Token.shape = laid.map Token.shape
  /-- A line feed is no part of a token. -/
  between : ∀ index, pretty.toList[index]? = some '\n' → ∀ token ∈ laid, ¬ token.Covers index
  /-- A space stands behind each colon. -/
  spaced : ∀ token ∈ laid, token.kind = .symbol .colon → pretty.toList[token.stop]? = some ' '
  /-- All other blanks are line feeds with the spaces behind them. -/
  blanks : withoutLines (behindColons laid) 0 false pretty.toList = compact.toList
  /-- Each line is indented. -/
  lines : ∀ before after, pretty.toList = before ++ after →
    (before = [] ∨ ∃ front, before = front ++ ['\n']) → Indented laid before after
  /-- A container without values is written as its two brackets. -/
  empty : ∀ earlier opening closing later, laid = earlier ++ opening :: closing :: later →
    opening.kind.isOpening → closing.kind.isClosing →
      closing.offset = opening.stop ∧
        (opening.raw ++ closing.raw = "[]" ∨ opening.raw ++ closing.raw = "\x7b\x7d")

/-! ### Rows of pieces -/

section Pieces

variable {pieces : List (Piece Shape)} {final : Token} {text : String}

theorem not_covers_line (fits : Fits 0 pieces) (mark : final.shape = (.endOfInput, ""))
    (written : write lexemes .indented pieces = text.toList) {index : Nat}
    (feed : text.toList[index]? = some '\n') :
    ∀ token ∈ placed .indented 0 pieces ++ [final], ¬ token.Covers index := by
  obtain ⟨inside, isFeed⟩ := List.getElem?_eq_some_iff.mp feed
  have split : write lexemes .indented pieces =
      text.toList.take index ++ '\n' :: text.toList.drop (index + 1) := by
    rw [written, ← isFeed, List.getElem_cons_drop, List.take_append_drop]
  obtain ⟨front, level, back, rfl, before, -⟩ := exists_line fits split
  have length : (write lexemes .indented front).length = index := by
    rw [← before, List.length_take]
    omega
  have raw : final.raw = "" := congrArg Prod.snd mark
  have stop : final.stop = final.offset := by simp [Token.stop, raw]
  rw [placed_append, placed, Nat.zero_add, length, List.append_assoc]
  rintro token member ⟨begins, ends⟩
  rcases List.mem_append.mp member with early | behindLine
  · have bounds := bounds_placed token early
    omega
  · rcases List.mem_append.mp behindLine with late | atEnd
    · have bounds := bounds_placed token late
      simp only [Style.line, List.length_cons] at bounds
      omega
    · rw [List.mem_singleton.mp atEnd] at begins ends
      omega

/-- A text begins with its first token. -/
theorem indented_first {shape : Shape} {more : List (Piece Shape)}
    (fits : Fits 0 (.leaf shape :: more)) (notClosing : shape.1.isClosing = false)
    (written : write lexemes .indented (.leaf shape :: more) = text.toList) :
    Indented (placed .indented 0 (.leaf shape :: more) ++ [final]) [] text.toList := by
  refine ⟨[], ⟨shape.1, shape.2, 0⟩, _, 0, write lexemes .indented more, rfl,
    fits.1.written.ne_endOfInput, List.forall_mem_nil _, ?_, rfl, ?_⟩
  · simp [← written]
  · simp [closings, openings, notClosing]

theorem indented_line (fits : Fits 0 pieces)
    (written : write lexemes .indented pieces = text.toList) {before after : List Char}
    (split : text.toList = before ++ '\n' :: after) :
    Indented (placed .indented 0 pieces ++ [final]) (before ++ ['\n']) after := by
  obtain ⟨front, level, back, rfl, rfl, rfl⟩ := exists_line fits (written.trans split)
  obtain ⟨shape, more, rfl, isWritten, inside⟩ := @level_of_fits .indented 0 0 front back level fits
  rw [placed_append, placed, placed, Nat.zero_add, List.append_assoc, List.cons_append]
  refine ⟨_, _, _, level, write lexemes .indented more, rfl, isWritten.ne_endOfInput,
    ?_, ?_, ?_, ?_⟩
  · intro other member
    have bounds := bounds_placed other member
    simp only [List.length_append]
    omega
  · rw [write_leaf, lexemes_text]
  · simp [Style.line]
    omega
  · rw [closings_append_singleton, ← Nat.add_assoc, inside, Nat.zero_add]

/-- Nothing closes at the end of a text. -/
theorem adjacent_brackets_of_final (fits : Fits 0 pieces) (mark : final.shape = (.endOfInput, ""))
    {earlier later : List Token} {opening closing : Token} (opens : opening.kind.isOpening)
    (closes : closing.kind.isClosing)
    (split : placed .indented 0 pieces ++ [final] = earlier ++ opening :: closing :: later) :
    closing.offset = opening.stop ∧
      (opening.raw ++ closing.raw = "[]" ∨ opening.raw ++ closing.raw = "\x7b\x7d") := by
  have kind : final.kind = .endOfInput := congrArg Prod.fst mark
  rcases List.eq_nil_or_concat later with rfl | ⟨others, last, rfl⟩
  · have ends : placed .indented 0 pieces ++ [final] = (earlier ++ [opening]) ++ [closing] := by
      simpa using split
    obtain ⟨-, same⟩ := List.append_inj' ends rfl
    rw [← List.singleton_inj.mp same, kind] at closes
    cases closes
  · have ends : placed .indented 0 pieces ++ [final] =
        (earlier ++ opening :: closing :: others) ++ [last] := by
      simpa using split
    exact adjacent_brackets fits opens closes (List.append_inj' ends rfl).1

/-- What fits together is the same in both styles but for its layout. -/
theorem spreadsOut_of_fits (fits : Fits 0 pieces)
    (begins : ∃ shape more, pieces = .leaf shape :: more ∧ shape.1.isClosing = false)
    {compact : String} (writtenCompact : write lexemes .compact pieces = compact.toList)
    (writtenPretty : write lexemes .indented pieces = text.toList) :
    ∃ packed laid, tokenize compact = .ok packed ∧ tokenize text = .ok laid ∧
      SpreadsOut compact text packed laid := by
  obtain ⟨last, lexedCompact⟩ := exists_tokenize_placed fits writtenCompact
  obtain ⟨final, lexedPretty⟩ := exists_tokenize_placed fits writtenPretty
  have mark := shape_of_final lexedPretty
  have notColon : final.kind ≠ .symbol .colon := by
    rw [show final.kind = .endOfInput from congrArg Prod.fst mark]
    simp
  have empty := @adjacent_brackets_of_final _ _ fits mark
  refine ⟨_, _, lexedCompact, lexedPretty, ?_, fun _ => not_covers_line fits mark writtenPretty, ?_,
    ?_, ?_, fun _ _ _ _ split opens closes => empty opens closes split⟩
  · rw [List.map_append, List.map_append, shape_placed .indented 0, List.map_singleton,
      List.map_singleton, mark, shape_of_final lexedCompact]
  · intro token member isColon
    rcases List.mem_append.mp member with inside | atEnd
    · rw [← writtenPretty]
      exact getElem?_stop_of_colon fits [] token inside isColon
    · exact absurd (List.mem_singleton.mp atEnd ▸ isColon) notColon
  · rw [← writtenPretty, ← writtenCompact]
    refine withoutLines_write fits false fun offset _ => ?_
    obtain ⟨shape, more, rfl, -⟩ := begins
    simp [spaces_eq fits, behindColons, notColon]
  · rintro before after split (rfl | ⟨front, rfl⟩)
    · obtain ⟨shape, more, rfl, notClosing⟩ := begins
      rw [List.nil_append] at split
      exact split ▸ indented_first fits notClosing writtenPretty
    · exact indented_line fits writtenPretty (by simpa using split)

end Pieces

/-! ### Documents -/

/-- The compact text and the indented one of a JSON document that was read have the same
tokens.  Line feeds stand between tokens, and without each line feed, the spaces behind it
and the space behind each colon the indented text is the compact one.  Each line is
indented by two spaces for each container that is open there, and containers without values
are written as two brackets. -/
theorem pretty_text_is_spread_out (text : String) (options : ParseOptions) (node : Node)
    (parsed : parseDocument text options = .ofExcept (.ok (.json node))) :
    ∃ packed laid, tokenize (Document.json node).source = .ok packed ∧
      tokenize (Document.json node).indentedSource = .ok laid ∧
      SpreadsOut (Document.json node).source (Document.json node).indentedSource packed laid := by
  obtain ⟨⟨-, spells⟩, -⟩ := parseDocument_eq_ok_iff.mp parsed
  have item := @item_pieces 0 _ (spells.sound node List.mem_cons_self)
  have fits := item.fits [] follows_nil trivial
  rw [List.append_nil] at fits
  exact spreadsOut_of_fits fits item.begins (node.write_compact 0) (node.write_indented 0)

/-- The second line from the end begins with a bracket, which is outside of its array. -/
theorem pretty_text_of_nested :
    ∃ node, parseDocument "\x7b\"a\":[ -1, \x7b\x7d ]\x7d" ⟨8⟩ = .ofExcept (.ok (.json node)) ∧
      ∃ packed laid, tokenize "\x7b\"a\":[-1,\x7b\x7d]\x7d" = .ok packed ∧
        tokenize "\x7b\n  \"a\": [\n    -1,\n    \x7b\x7d\n  ]\n\x7d" = .ok laid ∧
        SpreadsOut "\x7b\"a\":[-1,\x7b\x7d]\x7d"
          "\x7b\n  \"a\": [\n    -1,\n    \x7b\x7d\n  ]\n\x7d" packed laid := by
  let node : Node :=
    .object [⟨"a", .array [.literal ⟨.number (.integer (-1)), "-1"⟩, .object []]⟩]
  have parsed : parseDocument "\x7b\"a\":[ -1, \x7b\x7d ]\x7d" ⟨8⟩ =
      .ofExcept (.ok (.json node)) := by
    decide +kernel
  have compact : (Document.json node).source = "\x7b\"a\":[-1,\x7b\x7d]\x7d" := by decide +kernel
  have indented : (Document.json node).indentedSource =
      "\x7b\n  \"a\": [\n    -1,\n    \x7b\x7d\n  ]\n\x7d" := by
    decide +kernel
  have spread := pretty_text_is_spread_out _ _ node parsed
  rw [compact, indented] at spread
  exact ⟨node, parsed, spread⟩

end TemplatedJson
