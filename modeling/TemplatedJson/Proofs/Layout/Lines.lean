import TemplatedJson.Proofs.Layout.Fits

/-!
# Lines of a layout

In a row of pieces that fits together the tokens stand where their pieces are written.
Line feeds stand between tokens only, each line is indented by the containers that are
open there, and without its blanks an indented text is the compact one.
-/

namespace TemplatedJson.Layout

open Token (Shape)

variable {style : Style} {depth start : Nat} {pieces front back : List (Piece Shape)}

/-! ### Tokens at their places -/

/-- The tokens of a row of pieces that is written from the offset `start` on. -/
def placed (style : Style) : (start : Nat) → List (Piece Shape) → List Token
  | _, [] => []
  | start, .leaf shape :: rest =>
      ⟨shape.1, shape.2, start⟩ :: placed style (start + shape.2.length) rest
  | start, .line level :: rest => placed style (start + (style.line level).length) rest
  | start, .space :: rest => placed style (start + style.space.length) rest

/-- The tokens are the same in both styles but for their offsets. -/
theorem shape_placed (other : Style) (otherStart : Nat) :
    (placed style start pieces).map Token.shape =
      (placed other otherStart pieces).map Token.shape := by
  induction pieces generalizing start otherStart with
  | nil => rfl
  | cons piece pieces ih =>
      cases piece with
      | leaf shape =>
          simp only [placed, List.map_cons, Token.shape]
          rw [ih]
      | line level => exact ih _
      | space => exact ih _

theorem placed_append (style : Style) (start : Nat) (front back : List (Piece Shape)) :
    placed style start (front ++ back) =
      placed style start front ++
        placed style (start + (write lexemes style front).length) back := by
  induction front generalizing start with
  | nil => rfl
  | cons piece front ih =>
      cases piece <;> simp [placed, ih, Nat.add_assoc, String.length_toList]

/-- Tokens stand inside of the text of their pieces. -/
theorem bounds_placed : ∀ token ∈ placed style start pieces,
    start ≤ token.offset ∧ token.stop ≤ start + (write lexemes style pieces).length := by
  induction pieces generalizing start with
  | nil => exact List.forall_mem_nil _
  | cons piece pieces ih =>
      intro token member
      cases piece with
      | leaf shape =>
          rcases List.mem_cons.mp member with rfl | later
          · simp [Token.stop, String.length_toList]
          · have inside := ih token later
            simp only [write_leaf, lexemes_text, List.length_append, String.length_toList]
            omega
      | line level =>
          have inside := ih token member
          simp only [write_line, List.length_append]
          omega
      | space =>
          have inside := ih token member
          simp only [write_space, List.length_append]
          omega

theorem blanks_styleSpace (style : Style) : Blanks style.space := by
  cases style
  · exact blanks_nil
  · exact blanks_space

/-- The lexer finds the tokens where their pieces are written. -/
theorem yields_placed (fits : Fits depth pieces) {blanks : List Char} (blank : Blanks blanks) :
    ∃ last, (Lexer.mk (blanks ++ write lexemes style pieces) start).Yields
      (placed style (start + blanks.length) pieces) last ∧ Blanks last.rest := by
  induction pieces generalizing depth start blanks with
  | nil => exact ⟨_, .none _, by simpa using blank⟩
  | cons piece pieces ih =>
      cases piece with
      | leaf shape =>
          obtain ⟨leaf, rest⟩ := fits
          obtain ⟨last, yields, blankLast⟩ :=
            @ih _ (start + blanks.length + shape.2.toList.length) rest [] blanks_nil
          have read := Lexer.next_mk_of_written blank leaf.written (leaf.ends style) start
          rw [String.ofList_toList] at read
          rw [← lexemes_text, ← write_leaf] at read
          refine ⟨last, .token read leaf.written.ne_endOfInput ?_, blankLast⟩
          simpa [String.length_toList] using yields
      | line level =>
          obtain ⟨last, yields, blankLast⟩ :=
            @ih _ start fits.2 _ (blank.append (blanks_line style level))
          exact ⟨last, by simpa [placed, Nat.add_assoc] using yields, blankLast⟩
      | space =>
          obtain ⟨last, yields, blankLast⟩ :=
            @ih _ start fits.2 _ (blank.append (blanks_styleSpace style))
          exact ⟨last, by simpa [placed, Nat.add_assoc] using yields, blankLast⟩

theorem exists_tokenize_placed (fits : Fits depth pieces) {text : String}
    (written : write lexemes style pieces = text.toList) :
    ∃ final, tokenize text = .ok (placed style 0 pieces ++ [final]) := by
  obtain ⟨last, yields, blank⟩ := @yields_placed style depth 0 pieces fits [] blanks_nil
  refine exists_tokenize_iff.mpr ⟨last, ?_, blank⟩
  rw [written] at yields
  exact yields

/-! ### Lines -/

/-- A character stands behind all that it does not stand in. -/
theorem exists_append_of_not_mem {one : Char} {chunk rest before after : List Char}
    (absent : one ∉ chunk) (split : chunk ++ rest = before ++ one :: after) :
    ∃ between, before = chunk ++ between ∧ rest = between ++ one :: after := by
  rcases List.append_eq_append_iff.mp split with ⟨between, rfl, same⟩ | ⟨between, rfl, same⟩
  · exact ⟨between, rfl, same⟩
  · cases between with
    | nil => exact ⟨[], by simp, by simpa using same.symm⟩
    | cons first others =>
        rw [List.cons_append, List.cons.injEq] at same
        exact absurd (by simp [same.1]) absent

/-- Each line feed of an indented text begins one of its lines. -/
theorem exists_line (fits : Fits depth pieces) {before after : List Char}
    (split : write lexemes .indented pieces = before ++ '\n' :: after) :
    ∃ front level back, pieces = front ++ .line level :: back ∧
      before = write lexemes .indented front ∧
        after = List.replicate (2 * level) ' ' ++ write lexemes .indented back := by
  induction pieces generalizing depth before with
  | nil => simp at split
  | cons piece pieces ih =>
      cases piece with
      | leaf shape =>
          obtain ⟨between, rfl, rest⟩ :=
            exists_append_of_not_mem fits.1.unbroken (by rw [← split, write_leaf, lexemes_text])
          obtain ⟨front, level, back, rfl, rfl, rfl⟩ := ih fits.2 rest
          exact ⟨.leaf shape :: front, level, back, rfl, by simp, rfl⟩
      | line level =>
          cases before with
          | nil =>
              rw [write_line, Style.line, List.nil_append, List.cons_append,
                List.cons.injEq] at split
              exact ⟨[], level, pieces, rfl, rfl, split.2.symm⟩
          | cons first before =>
              rw [write_line, Style.line, List.cons_append, List.cons_append,
                List.cons.injEq] at split
              have absent : '\n' ∉ List.replicate (2 * level) ' ' := by simp
              obtain ⟨between, rfl, rest⟩ := exists_append_of_not_mem absent split.2
              obtain ⟨front, other, back, rfl, rfl, rfl⟩ := ih fits.2 rest
              refine ⟨.line level :: front, other, back, rfl, ?_, rfl⟩
              simp [Style.line, ← split.1]
      | space =>
          have absent : '\n' ∉ Style.indented.space := by decide
          obtain ⟨between, rfl, rest⟩ :=
            exists_append_of_not_mem absent (by rw [← split, write_space])
          obtain ⟨front, level, back, rfl, rfl, rfl⟩ := ih fits.2 rest
          exact ⟨.space :: front, level, back, rfl, by simp, rfl⟩

def openings (tokens : List Token) : Nat :=
  tokens.countP fun token => token.kind.isOpening

def closings (tokens : List Token) : Nat :=
  tokens.countP fun token => token.kind.isClosing

theorem closings_append_singleton (tokens : List Token) (token : Token) :
    closings (tokens ++ [token]) = closings tokens + token.kind.isClosing.toNat := by
  rw [closings, List.countP_append, List.countP_singleton, ← closings]
  cases token.kind.isClosing <;> rfl

/-- The token behind the beginning of a line stands in as many containers as are open
there, where a closing bracket does not count to its own container. -/
theorem level_of_fits {level : Nat} (fits : Fits depth (front ++ .line level :: back)) :
    ∃ shape more, back = .leaf shape :: more ∧ Scan.Written shape.1 shape.2.toList ∧
      level + closings (placed style start front) + shape.1.isClosing.toNat =
        depth + openings (placed style start front) := by
  induction front generalizing depth start with
  | nil =>
      obtain ⟨⟨shape, more, rfl, inside⟩, leaf, -⟩ := fits
      exact ⟨shape, more, rfl, leaf.written, by simpa [placed, closings, openings] using inside⟩
  | cons piece front ih =>
      cases piece with
      | leaf shape =>
          obtain ⟨leaf, rest⟩ := fits
          obtain ⟨first, more, begins, written, inside⟩ := @ih _ (start + shape.2.length) rest
          refine ⟨first, more, begins, written, ?_⟩
          have closes := leaf.closes
          simp only [placed, closings, openings, List.countP_cons, behind] at inside ⊢
          cases opening : shape.1.isOpening <;> cases closing : shape.1.isClosing <;>
            simp_all <;> omega
      | line other => exact ih fits.2
      | space => exact ih fits.2

/-- A space stands behind each colon of an indented text. -/
theorem getElem?_stop_of_colon (fits : Fits depth pieces) (before : List Char) :
    ∀ token ∈ placed .indented before.length pieces, token.kind = .symbol .colon →
      (before ++ write lexemes .indented pieces)[token.stop]? = some ' ' := by
  induction pieces generalizing depth before with
  | nil => exact List.forall_mem_nil _
  | cons piece pieces ih =>
      cases piece with
      | leaf shape =>
          obtain ⟨leaf, rest⟩ := fits
          refine List.forall_mem_cons.mpr ⟨fun isColon => ?_, ?_⟩
          · obtain ⟨more, rfl⟩ := List.head?_eq_some_iff.mp (leaf.colon.mp isColon)
            simp [Token.stop, Style.space, ← String.length_toList]
          · have later := ih rest (before ++ shape.2.toList)
            rw [List.length_append, String.length_toList] at later
            rwa [write_leaf, lexemes_text, ← List.append_assoc]
      | line level =>
          have later := ih fits.2 (before ++ Style.indented.line level)
          rw [List.length_append] at later
          rwa [write_line, ← List.append_assoc]
      | space =>
          have later := ih fits.2 (before ++ Style.indented.space)
          rw [List.length_append] at later
          rwa [write_space, ← List.append_assoc]

/-! ### Empty containers -/

/-- A closing bracket behind an opening one, with no token between them, stands right
behind it. -/
theorem adjacent_brackets (fits : Fits depth pieces) {earlier later : List Token}
    {opening closing : Token} (opens : opening.kind.isOpening) (closes : closing.kind.isClosing)
    (split : placed style start pieces = earlier ++ opening :: closing :: later) :
    closing.offset = opening.stop ∧
      (opening.raw ++ closing.raw = "[]" ∨ opening.raw ++ closing.raw = "\x7b\x7d") := by
  induction pieces generalizing depth start earlier with
  | nil => simp [placed] at split
  | cons piece pieces ih =>
      cases piece with
      | line level => exact ih fits.2 split
      | space => exact ih fits.2 split
      | leaf shape =>
          obtain ⟨leaf, rest⟩ := fits
          cases earlier with
          | cons first earlier =>
              rw [placed, List.cons_append, List.cons.injEq] at split
              exact ih rest split.2
          | nil =>
              rw [placed, List.nil_append, List.cons.injEq] at split
              obtain ⟨rfl, split⟩ := split
              rcases leaf.opens opens with ⟨other, more, rfl, -, brackets⟩ | ⟨more, rfl⟩
              · rw [placed, List.cons.injEq] at split
                obtain ⟨rfl, -⟩ := split
                exact ⟨rfl, brackets⟩
              · -- The line behind the bracket begins inside of the container.
                obtain ⟨⟨first, others, rfl, inside⟩, -⟩ := rest
                rw [placed, placed, List.cons.injEq] at split
                obtain ⟨rfl, -⟩ := split
                have noBoth : shape.1.isClosing = false := by
                  obtain ⟨kind, text⟩ := shape
                  unfold Token.Kind.isOpening at opens
                  split at opens <;> simp_all [Token.Kind.isClosing]
                simp [behind, opens, noBoth, closes] at inside

/-! ### Without blanks -/

/-- Leaves out each line feed with the spaces behind it, and the characters with the given
offsets.  The flag tells whether only spaces stand between the last line feed and here. -/
def withoutLines (places : List Nat) : (offset : Nat) → (begins : Bool) → List Char → List Char
  | _, _, [] => []
  | offset, begins, character :: rest =>
      if character = '\n' then withoutLines places (offset + 1) true rest
      else if begins && character = ' ' then withoutLines places (offset + 1) true rest
      else if offset ∈ places then withoutLines places (offset + 1) false rest
      else character :: withoutLines places (offset + 1) false rest

/-- The offsets right behind the colons of a text. -/
def behindColons (tokens : List Token) : List Nat :=
  (tokens.filter fun token => token.kind = .symbol .colon).map Token.stop

/-- The offsets of the spaces in an indented text. -/
def spaces : (start : Nat) → List (Piece Shape) → List Nat
  | _, [] => []
  | start, .leaf shape :: rest => spaces (start + shape.2.length) rest
  | start, .line level :: rest => spaces (start + (Style.indented.line level).length) rest
  | start, .space :: rest => start :: spaces (start + 1) rest

theorem le_of_mem_spaces {offset : Nat} (member : offset ∈ spaces start pieces) :
    start ≤ offset := by
  induction pieces generalizing start with
  | nil => cases member
  | cons piece pieces ih =>
      cases piece with
      | leaf shape => exact Nat.le_trans (Nat.le_add_right _ _) (ih member)
      | line level => exact Nat.le_trans (Nat.le_add_right _ _) (ih member)
      | space =>
          rcases List.mem_cons.mp member with rfl | later
          · exact Nat.le_refl _
          · exact Nat.le_trans (Nat.le_add_right _ _) (ih later)

/-- Spaces stand behind colons and nowhere else. -/
theorem spaces_eq (fits : Fits depth pieces) :
    spaces start pieces = (if pieces.head? = some .space then [start] else []) ++
      behindColons (placed .indented start pieces) := by
  induction pieces generalizing depth start with
  | nil => rfl
  | cons piece pieces ih =>
      cases piece with
      | leaf shape =>
          obtain ⟨leaf, rest⟩ := fits
          have colon := leaf.colon
          rw [spaces, ih rest]
          by_cases isColon : shape.1 = .symbol .colon <;>
            simp_all [placed, behindColons, Token.stop]
      | line level =>
          obtain ⟨⟨shape, more, rfl, -⟩, rest⟩ := fits
          rw [spaces, ih rest]
          simp [placed]
      | space =>
          obtain ⟨⟨shape, more, rfl⟩, rest⟩ := fits
          rw [spaces, ih rest]
          simp [placed, Style.space]

section WithoutLines

variable {places : List Nat} {begins : Bool} {chunk rest : List Char}

/-- Characters that are no line feeds stay, unless their places are left out. -/
theorem withoutLines_append (unbroken : '\n' ∉ chunk)
    (kept : ∀ offset, start ≤ offset → offset < start + chunk.length → offset ∉ places) :
    withoutLines places start false (chunk ++ rest) =
      chunk ++ withoutLines places (start + chunk.length) false rest := by
  induction chunk generalizing start with
  | nil => rfl
  | cons first chunk ih =>
      have firstKept := kept start (Nat.le_refl _) (by simp)
      have others := @ih (start + 1) (fun member => unbroken (List.mem_cons_of_mem _ member))
        (fun offset low high => kept offset (by omega) (by rw [List.length_cons]; omega))
      have notFeed : first ≠ '\n' := fun same => unbroken (by simp [same])
      rw [List.cons_append, withoutLines, if_neg notFeed, if_neg (by simp), if_neg firstKept,
        others, List.cons_append, List.length_cons, Nat.add_assoc, Nat.add_comm 1]

/-- The text of a token stays, whether a line begins with it or not. -/
theorem withoutLines_token {first : Char} (notBlank : first ≠ ' ')
    (unbroken : '\n' ∉ first :: chunk)
    (kept : ∀ offset, start ≤ offset → offset < start + (first :: chunk).length → offset ∉ places) :
    withoutLines places start begins (first :: chunk ++ rest) =
      first :: chunk ++ withoutLines places (start + (first :: chunk).length) false rest := by
  rw [← withoutLines_append unbroken kept]
  simp [withoutLines, notBlank]

theorem withoutLines_line (level : Nat) :
    withoutLines places start begins (Style.indented.line level ++ rest) =
      withoutLines places (start + (Style.indented.line level).length) true rest := by
  have blank : ∀ count offset, withoutLines places offset true (List.replicate count ' ' ++ rest) =
      withoutLines places (offset + count) true rest := by
    intro count
    induction count with
    | zero => simp
    | succ count ih =>
        intro offset
        rw [List.replicate_succ, List.cons_append, withoutLines, if_neg (by decide),
          if_pos (by simp), ih, Nat.add_assoc, Nat.add_comm 1]
  rw [Style.line, List.cons_append, withoutLines, if_pos rfl, blank]
  simp [Nat.add_assoc, Nat.add_comm 1]

end WithoutLines

/-- Without its line feeds, the spaces behind them, and the spaces behind its colons, an
indented text is the compact one. -/
theorem withoutLines_write (fits : Fits depth pieces) {places : List Nat} (begins : Bool)
    (known : ∀ offset, start ≤ offset → (offset ∈ places ↔ offset ∈ spaces start pieces)) :
    withoutLines places start begins (write lexemes .indented pieces) =
      write lexemes .compact pieces := by
  induction pieces generalizing depth start begins with
  | nil => rfl
  | cons piece pieces ih =>
      cases piece with
      | leaf shape =>
          obtain ⟨leaf, rest⟩ := fits
          have nonempty := List.length_pos_iff.mp leaf.written.length_pos
          obtain ⟨first, chunk, text⟩ := List.exists_cons_of_ne_nil nonempty
          have length : (first :: chunk).length = shape.2.length := by
            rw [← text, String.length_toList]
          have notBlank : first ≠ ' ' := by
            rintro rfl
            have visible := Lexer.not_blank_of_token (leaf.written.token (leaf.ends .indented)) ' '
            simp [text, Unicode.isJsonBlank] at visible
          have kept : ∀ offset, start ≤ offset → offset < start + (first :: chunk).length →
              offset ∉ places := by
            intro offset low high
            rw [known offset low, spaces]
            intro member
            have behind := le_of_mem_spaces member
            omega
          have others := ih rest false fun offset high => known offset (by omega)
          rw [write_leaf, write_leaf, lexemes_text, text,
            withoutLines_token notBlank (text ▸ leaf.unbroken) kept, length, others]
      | line level =>
          have others := ih fits.2 true fun offset high => known offset (by omega)
          rw [write_line, withoutLines_line, others]
          rfl
      | space =>
          have here : start ∈ places := (known start (Nat.le_refl _)).mpr List.mem_cons_self
          have others := @ih _ (start + 1) fits.2 begins fun offset high => by
            rw [known offset (by omega), spaces, List.mem_cons]
            exact or_iff_right (by omega)
          cases begins <;> simpa [Style.space, withoutLines, here] using others

end TemplatedJson.Layout
