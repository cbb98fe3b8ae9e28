import TemplatedJson.Node.Parser

/-!
# Where templates occur

The tokens of a document alone tell which of its strings are values: a value comes at the
start, behind the opening bracket or a comma of an array, and behind a colon.  A string in
double quotes that is a value and holds an expression is an occurrence of a template.
-/

namespace TemplatedJson.Template

/-- A string that is a value and holds an expression, inside of `depth` containers. -/
structure Occurrence where
  token : Token
  content : String
  embedded : Embedded
  depth : Nat
  quoted : token.kind = .string content .double
  detected : detect? content = some embedded
deriving DecidableEq

namespace Occurrence

/-- What an observer is told of an occurrence. -/
def sighting (occurrence : Occurrence) : Sighting :=
  ⟨occurrence.embedded.form, occurrence.token.offset⟩

/-- What the string holds, read as an expression inside of the containers around it. -/
def read (maximum : Nat) (occurrence : Occurrence) : Except ParseError Expr :=
  Expr.parseInside maximum occurrence.depth occurrence.embedded.source

/-- An error of the expression, moved to the place in the document that it concerns. -/
def relocated (occurrence : Occurrence) (error : ParseError) : ParseError :=
  error.relocate fun inner =>
    occurrence.token.offset +
      rawIndex occurrence.token.raw (occurrence.embedded.start + inner)

end Occurrence

inductive Container where
  | object
  | array
deriving DecidableEq

/-- What stands before a place in a document: the containers around it, the innermost one
first, and whether a value comes next. -/
structure Setting where
  around : List Container
  awaitsValue : Bool
deriving DecidableEq

namespace Setting

/-- The setting of a document. -/
def surface : Setting :=
  ⟨[], true⟩

/-- The setting behind a token. -/
def next (setting : Setting) : Token.Kind → Setting
  | .symbol .leftBrace => ⟨.object :: setting.around, false⟩
  | .symbol .leftBracket => ⟨.array :: setting.around, true⟩
  | .symbol .rightBrace => ⟨setting.around.tail, false⟩
  | .symbol .rightBracket => ⟨setting.around.tail, false⟩
  | .symbol .colon => ⟨setting.around, true⟩
  | .symbol .comma => ⟨setting.around, setting.around.head? = some .array⟩
  | _ => ⟨setting.around, false⟩

/-- The setting behind some tokens. -/
def after (setting : Setting) (tokens : List Token) : Setting :=
  tokens.foldl (fun setting token => setting.next token.kind) setting

/-- The template that a token is an occurrence of, if it is one. -/
def occurrence? (setting : Setting) (token : Token) : Option Occurrence :=
  match quoted : token.kind with
  | .string content .double =>
      match detected : detect? content with
      | some embedded =>
          if setting.awaitsValue then
            some ⟨token, content, embedded, setting.around.length, quoted, detected⟩
          else none
      | none => none
  | _ => none

/-- The occurrences of templates among some tokens, in their order. -/
def occurrences : Setting → List Token → List Occurrence
  | _, [] => []
  | setting, token :: tokens =>
      (setting.occurrence? token).toList ++ (setting.next token.kind).occurrences tokens

variable {setting : Setting} {token : Token} {tokens : List Token} {occurrence : Occurrence}

theorem occurrence?_of_awaitsValue (awaits : setting.awaitsValue = true) :
    setting.occurrence? occurrence.token = some { occurrence with depth := setting.around.length } := by
  obtain ⟨token, content, embedded, depth, quoted, detected⟩ := occurrence
  unfold occurrence?
  split
  · next other quotedOther =>
      obtain ⟨rfl, -⟩ := Token.Kind.string.inj (quoted.symm.trans quotedOther)
      split
      · next found detectedOther =>
          obtain rfl := Option.some.inj (detected.symm.trans detectedOther)
          rw [if_pos awaits]
      · next missing => cases detected.symm.trans missing
  · next notString => exact absurd quoted (notString content)

/-- Every occurrence is a string of double quotes in value position. -/
theorem token_of_occurrence? (found : setting.occurrence? token = some occurrence) :
    occurrence.token = token ∧ setting.awaitsValue = true := by
  unfold occurrence? at found
  split at found
  · split at found
    · split at found
      · next awaits =>
          obtain rfl := Option.some.inj found
          exact ⟨rfl, awaits⟩
      · cases found
    · cases found
  · cases found

/-- Where no value comes next, or where the token is no string that holds an expression,
there is no occurrence. -/
theorem occurrence?_eq_none
    (absent : setting.awaitsValue = true → ∀ content, token.kind = .string content .double →
      detect? content = none) : setting.occurrence? token = none := by
  cases found : setting.occurrence? token with
  | none => rfl
  | some occurrence =>
      obtain ⟨rfl, awaits⟩ := token_of_occurrence? found
      cases occurrence.detected.symm.trans (absent awaits _ occurrence.quoted)

theorem after_append (setting : Setting) (tokens others : List Token) :
    setting.after (tokens ++ others) = (setting.after tokens).after others :=
  List.foldl_append

theorem occurrences_append (setting : Setting) (tokens others : List Token) :
    setting.occurrences (tokens ++ others) =
      setting.occurrences tokens ++ (setting.after tokens).occurrences others := by
  induction tokens generalizing setting with
  | nil => rfl
  | cons token tokens ih =>
      rw [List.cons_append, occurrences, occurrences, ih, List.append_assoc]
      rfl

/-- Occurrences come in the order of their tokens. -/
theorem occurrences_sublist (setting : Setting) (tokens : List Token) :
    ((setting.occurrences tokens).map Occurrence.token).Sublist tokens := by
  induction tokens generalizing setting with
  | nil => exact .refl _
  | cons token tokens ih =>
      unfold occurrences
      cases found : setting.occurrence? token with
      | none => exact .cons token (ih _)
      | some occurrence =>
          obtain ⟨rfl, -⟩ := token_of_occurrence? found
          exact .cons_cons occurrence.token (ih _)

end Setting

end TemplatedJson.Template
