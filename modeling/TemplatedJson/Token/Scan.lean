import TemplatedJson.ParseError
import TemplatedJson.Token.Basic
import TemplatedJson.Unicode.Alphabetic
import TemplatedJson.Unicode.Numeric

/-!
# The token at the start of a text

Scanning looks at a text that begins with no blank and finds the kind of the
token there and the number of characters that it takes.  The text of the token
is then the prefix of that length, so a token never holds anything but what it
was read from.
-/

namespace TemplatedJson.Scan

/-- A failed scan: its cause, the character it concerns, and how many characters
were passed before it failed.  Both counts start at the scanned text. -/
structure Fault where
  cause : ParseError.Cause
  place : Nat
  passed : Nat
deriving DecidableEq, Repr

/-- The kind of a token and how many characters it takes, or a fault. -/
abbrev Result := Except Fault (Token.Kind × Nat)

/-- A character that can begin a name. -/
def isNameStart (character : Char) : Bool :=
  Unicode.isAlphabetic character || character = '_'

/-- A character that can continue a name. -/
def isNamePart (character : Char) : Bool :=
  Unicode.isAlphabetic character || Unicode.isNumeric character || character = '_'

def name (input : List Char) : List Char :=
  input.takeWhile isNamePart

/-- How many ASCII digits a text begins with. -/
def digitsWidth (input : List Char) : Nat :=
  (input.takeWhile Char.isDigit).length

/-- The width of a point and the digits after it.  A point without a digit is
no fraction. -/
def fractionWidth : List Char → Nat
  | '.' :: rest => if digitsWidth rest = 0 then 0 else digitsWidth rest + 1
  | _ => 0

/-- The width of the sign of an exponent. -/
def signWidth : List Char → Nat
  | '+' :: _ => 1
  | '-' :: _ => 1
  | _ => 0

/-- The width of an exponent.  A mark without a digit is no exponent. -/
def exponentWidth : List Char → Nat
  | mark :: rest =>
      let digits := digitsWidth (rest.drop (signWidth rest))
      if (mark = 'e' || mark = 'E') && digits ≠ 0 then 1 + signWidth rest + digits else 0
  | [] => 0

/-- The width of the number at the start of a text: digits, then a fraction and
an exponent if there are any. -/
def numberWidth (input : List Char) : Nat :=
  let whole := digitsWidth input
  let fraction := fractionWidth (input.drop whole)
  whole + fraction + exponentWidth (input.drop (whole + fraction))

/-- Scans a string whose opening quote has just been passed. -/
def string (quote : Quote) (inside : List Char) : Result :=
  let (content, ending) := quote.content inside
  let width := Quote.contentWidth content + 1
  match ending with
  | .closed => .ok (.string (String.ofList (content.map Prod.fst)) quote, width + 1)
  | .control character => .error ⟨.unexpectedCharacter character, width, width⟩
  | .badEscape sequence passed =>
      .error ⟨.invalidEscape (String.ofList sequence), width, width + passed⟩
  | .unterminated => .error ⟨.unterminatedString, 0, inside.length + 1⟩

/-- Scans a dollar sign: a name right after it makes it a named scope. -/
def dollar (afterDollar : List Char) : Token.Kind × Nat :=
  match afterDollar with
  | first :: _ =>
      if isNameStart first then
        let name := name afterDollar
        (.scope (String.ofList name), name.length + 1)
      else (.symbol .dollar, 1)
  | [] => (.symbol .dollar, 1)

/-- Scans the token at the start of a text that begins with no blank. -/
def token : List Char → Result
  | [] => .ok (.endOfInput, 0)
  | first :: rest =>
      match Quote.ofCharacter? first with
      | some quote => string quote rest
      | none =>
          if first = '$' then .ok (dollar rest)
          else if isNameStart first then
            let name := name (first :: rest)
            .ok (Token.Kind.ofWord (String.ofList name), name.length)
          else if first.isDigit then .ok (.number, numberWidth (first :: rest))
          else
            match Symbol.scan? (first :: rest) with
            | some symbol => .ok (.symbol symbol, symbol.text.length)
            | none => .error ⟨.unexpectedCharacter first, 0, 0⟩

theorem isNamePart_of_isNameStart {character : Char} (starts : isNameStart character) :
    isNamePart character := by
  simp only [isNameStart, Bool.or_eq_true] at starts
  rcases starts with alphabetic | underscore
  · simp [isNamePart, alphabetic]
  · simp [isNamePart, underscore]

theorem string_width_pos {quote : Quote} {inside : List Char} {kind : Token.Kind} {width : Nat}
    (scanned : string quote inside = .ok (kind, width)) :
    0 < width ∧ kind ≠ .endOfInput := by
  unfold string at scanned
  dsimp only at scanned
  split at scanned
  · simp only [Except.ok.injEq, Prod.mk.injEq] at scanned
    obtain ⟨rfl, rfl⟩ := scanned
    exact ⟨by omega, by simp⟩
  all_goals simp at scanned

theorem dollar_width_pos (afterDollar : List Char) :
    0 < (dollar afterDollar).2 ∧ (dollar afterDollar).1 ≠ .endOfInput := by
  unfold dollar
  split
  · split <;> simp
  · simp

theorem digitsWidth_pos {first : Char} {rest : List Char} (digit : first.isDigit) :
    0 < digitsWidth (first :: rest) := by
  simp [digitsWidth, digit]

/-- Whatever begins a text, its token takes at least one character and does not
mark the end. -/
theorem token_cons {first : Char} {rest : List Char} {kind : Token.Kind} {width : Nat}
    (scanned : token (first :: rest) = .ok (kind, width)) :
    0 < width ∧ kind ≠ .endOfInput := by
  unfold token at scanned
  dsimp only at scanned
  split at scanned
  · exact string_width_pos scanned
  · split at scanned
    · have bounds := dollar_width_pos rest
      simp only [Except.ok.injEq] at scanned
      simpa [scanned] using bounds
    · split at scanned
      · rename_i starts
        simp only [Except.ok.injEq, Prod.mk.injEq] at scanned
        obtain ⟨rfl, rfl⟩ := scanned
        exact ⟨by simp [name, isNamePart_of_isNameStart starts],
          Token.Kind.ofWord_ne_endOfInput _⟩
      · split at scanned
        · rename_i digit
          simp only [Except.ok.injEq, Prod.mk.injEq] at scanned
          obtain ⟨rfl, rfl⟩ := scanned
          have positive : 0 < digitsWidth (first :: rest) := digitsWidth_pos digit
          exact ⟨by simp only [numberWidth]; omega, by simp⟩
        · split at scanned
          · simp only [Except.ok.injEq, Prod.mk.injEq] at scanned
            obtain ⟨rfl, rfl⟩ := scanned
            exact ⟨Symbol.text_length_pos _, by simp⟩
          · simp at scanned

end TemplatedJson.Scan
