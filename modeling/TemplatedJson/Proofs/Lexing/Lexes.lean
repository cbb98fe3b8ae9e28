import TemplatedJson.Proofs.Lexing.Yields

/-!
# What a piece of text is lexed to

A piece of text lexes to tokens with some property when the lexer yields such
tokens from it wherever it stands, as long as a suitable text follows.  Pieces
are put together, with blanks between them, when each one is suitable to follow
the piece before it.
-/

namespace TemplatedJson

/-- Wherever the text stands before one that ends it, the lexer yields tokens
with the given property from it. -/
def Lexes (text : List Char) (ends : List Char → Prop) (holds : List Token → Prop) : Prop :=
  ∀ ⦃lexer : Lexer⦄ ⦃blanks rest : List Char⦄, lexer.rest = blanks ++ (text ++ rest) →
    Blanks blanks → ends rest →
      ∃ (tokens : List Token) (last : Lexer), lexer.Yields tokens last ∧ last.rest = rest ∧
        holds tokens

namespace Lexes

variable {text more blanks : List Char} {ends endsMore : List Char → Prop}
  {holds holdsMore : List Token → Prop}

theorem written {kind : Token.Kind} {chars : List Char} (written : Scan.Written kind chars) :
    Lexes chars (Scan.EndsBefore kind) fun tokens =>
      ∃ offset, tokens = [⟨kind, String.ofList chars, offset⟩] := by
  intro lexer blanks rest text blank ended
  have read := Lexer.next_of_written text blank written ended
  exact ⟨_, _, .token read written.ne_endOfInput (.none _), rfl, _, rfl⟩

theorem append (first : Lexes text ends holds) (blank : Blanks blanks)
    (second : Lexes more endsMore holdsMore)
    (ended : ∀ rest, endsMore rest → ends (blanks ++ (more ++ rest))) :
    Lexes (text ++ (blanks ++ more)) endsMore fun tokens =>
      ∃ before after, tokens = before ++ after ∧ holds before ∧ holdsMore after := by
  intro lexer leading rest split blankLeading endedMore
  simp only [List.append_assoc] at split
  obtain ⟨before, middle, yields, middleRest, known⟩ := first split blankLeading
    (ended rest endedMore)
  obtain ⟨after, last, yieldsMore, lastRest, knownMore⟩ := second middleRest blank endedMore
  exact ⟨before ++ after, last, yields.append yieldsMore, lastRest, before, after, rfl, known,
    knownMore⟩

theorem mono {weaker : List Token → Prop} (lexes : Lexes text ends holds)
    (follows : ∀ rest, endsMore rest → ends rest)
    (implied : ∀ tokens, holds tokens → weaker tokens) : Lexes text endsMore weaker := by
  intro lexer blanks rest split blank ended
  obtain ⟨tokens, last, yields, lastRest, known⟩ := lexes split blank (follows rest ended)
  exact ⟨tokens, last, yields, lastRest, implied tokens known⟩

theorem symbol (symbol : Symbol) :
    Lexes symbol.text.toList (Scan.EndsBefore (.symbol symbol)) fun tokens =>
      ∃ token : Token, tokens = [token] ∧ token.kind = .symbol symbol := by
  refine mono (written (.symbol symbol)) (fun _ ended => ended) ?_
  rintro tokens ⟨offset, rfl⟩
  exact ⟨_, rfl, rfl⟩

/-- A text that lexes to tokens, as nothing follows it, has these tokens. -/
theorem exists_tokenize {whole : String} (lexes : Lexes whole.toList ends holds) (ended : ends []) :
    ∃ tokens final, tokenize whole = .ok (tokens ++ [final]) ∧ holds tokens := by
  have split : (Lexer.ofText whole).rest = [] ++ (whole.toList ++ []) := by simp [Lexer.ofText]
  obtain ⟨tokens, last, yields, lastRest, known⟩ := lexes split blanks_nil ended
  obtain ⟨final, lexed⟩ := exists_tokenize_iff.mpr ⟨last, yields, by rw [lastRest]; exact blanks_nil⟩
  exact ⟨tokens, final, lexed, known⟩

end Lexes

namespace Scan

theorem stops_nil : Stops [] :=
  ⟨by simp, rfl⟩

theorem stops_cons {first : Char} (notPart : isNamePart first = false) (notPoint : first ≠ '.')
    (rest : List Char) : Stops (first :: rest) := by
  refine ⟨by simpa using notPart, ?_⟩
  unfold fractionWidth
  split <;> simp_all

theorem not_isNameStart_of_stops {rest : List Char} (stops : Stops rest) :
    ∀ next ∈ rest.head?, isNameStart next = false := by
  intro next first
  have notPart := stops.1 next first
  cases starts : isNameStart next with
  | false => rfl
  | true => simp [isNamePart_of_isNameStart starts] at notPart

/-- What continues neither names, numbers nor symbols ends every token. -/
theorem endsBefore_of_stops {rest : List Char} (kind : Token.Kind) (stops : Stops rest)
    (notEqual : rest.head? ≠ some '=') : EndsBefore kind rest := by
  unfold EndsBefore
  split
  · trivial
  · exact not_isNameStart_of_stops stops
  · exact notEqual
  · exact notEqual
  · exact notEqual
  · trivial
  · exact stops

theorem stops_blank {blank : Char} (isBlank : Unicode.isJsonBlank blank) (rest : List Char) :
    Stops (blank :: rest) ∧ blank ≠ '=' := by
  simp only [Unicode.isJsonBlank, Bool.or_eq_true, decide_eq_true_eq] at isBlank
  rcases isBlank with ((rfl | rfl) | rfl) | rfl <;>
    exact ⟨stops_cons (by decide) (by decide) rest, by decide⟩

theorem endsBefore_blank (kind : Token.Kind) {blank : Char} (isBlank : Unicode.isJsonBlank blank)
    (rest : List Char) : EndsBefore kind (blank :: rest) := by
  obtain ⟨stops, notEqual⟩ := stops_blank isBlank rest
  exact endsBefore_of_stops kind stops (by simpa using notEqual)

end Scan

end TemplatedJson
