/-!
# Quotes and the spelling of characters between them

A string stands between two quotes of one of three styles.  Between them every
character is spelled either by itself or by an escape, and a string is read one
spelling at a time.  Reading stops at the closing quote or at the first fault.
-/

namespace TemplatedJson

/-- The style of the quotes around a string. -/
inductive Quote where
  | double
  | single
  | back
deriving DecidableEq, Repr

namespace Quote

def character : Quote → Char
  | double => '\x22'
  | single => '\x27'
  | back => '\x60'

/-- The style that a character opens. -/
def ofCharacter? (opening : Char) : Option Quote :=
  if opening = double.character then some double
  else if opening = single.character then some single
  else if opening = back.character then some back
  else none

end Quote

/-- The value of a hexadecimal digit of either case. -/
def hexDigit? (digit : Char) : Option Nat :=
  if '0' ≤ digit && digit ≤ '9' then some (digit.toNat - 0x30)
  else if 'a' ≤ digit && digit ≤ 'f' then some (digit.toNat - 0x61 + 10)
  else if 'A' ≤ digit && digit ≤ 'F' then some (digit.toNat - 0x41 + 10)
  else none

/-- The values of the hexadecimal digits at the start of a text, at most
`count` of them. -/
def hexDigits : (count : Nat) → List Char → List Nat
  | 0, _ => []
  | _ + 1, [] => []
  | count + 1, character :: rest =>
      match hexDigit? character with
      | some digit => digit :: hexDigits count rest
      | none => []

/-- The number that hexadecimal digits denote. -/
def hexValue (digits : List Nat) : Nat :=
  digits.foldl (fun value digit => value * 16 + digit) 0

/-- The first unit of a surrogate pair. -/
def isHighSurrogate (unit : Nat) : Bool :=
  0xD800 ≤ unit && unit < 0xDC00

/-- The second unit of a surrogate pair. -/
def isLowSurrogate (unit : Nat) : Bool :=
  0xDC00 ≤ unit && unit < 0xE000

/-- The character that a surrogate pair encodes. -/
def pairedCharacter (high low : Nat) : Char :=
  Char.ofNat (0x10000 + (high - 0xD800) * 0x400 + (low - 0xDC00))

/-- Reads what follows `\u`: four digits, or a surrogate pair written as two
escapes.  The result is the character and how many characters spell it after
`\u`, or how many were read before the fault. -/
def unicodeEscape (input : List Char) : Except Nat (Char × Nat) :=
  let first := hexDigits 4 input
  let unit := hexValue first
  if first.length < 4 then .error first.length
  else if isLowSurrogate unit then .error 4
  else if !isHighSurrogate unit then .ok (Char.ofNat unit, 4)
  else
    match input.drop 4 with
    | '\\' :: 'u' :: rest =>
        let second := hexDigits 4 rest
        if second.length < 4 then .error (6 + second.length)
        else if isLowSurrogate (hexValue second) then
          .ok (pairedCharacter unit (hexValue second), 10)
        else .error 10
    | _ => .error 4

/-- How the inside of a string ends. -/
inductive Ending where
  | closed
  /-- A control character that must be escaped. -/
  | control (character : Char)
  /-- A backslash followed by a sequence that is no escape.  The lexer stays
  `width` characters after the backslash began. -/
  | badEscape (sequence : List Char) (width : Nat)
  | unterminated
deriving DecidableEq, Repr

/-- What stands at a place inside a string. -/
inductive Spelling where
  /-- A character and the number of characters that spell it. -/
  | character (value : Char) (width : Nat)
  | ending (ending : Ending)
deriving DecidableEq, Repr

namespace Quote

/-- The character that a backslash and one more character stand for.  Only the
quote that delimits the string can be escaped. -/
def shortEscape? (quote : Quote) (mark : Char) : Option Char :=
  if mark = quote.character then some mark
  else if mark = '\\' then some '\\'
  else if mark = '/' then some '/'
  else if mark = 'b' then some '\x08'
  else if mark = 'f' then some '\x0c'
  else if mark = 'n' then some '\n'
  else if mark = 'r' then some '\r'
  else if mark = 't' then some '\t'
  else none

/-- Reads one spelling inside a string.  Only strings in double quotes refuse
control characters below space. -/
def spelling (quote : Quote) : List Char → Spelling
  | [] => .ending .unterminated
  | '\\' :: [] => .ending .unterminated
  | '\\' :: 'u' :: rest =>
      match unicodeEscape rest with
      | .ok (value, width) => .character value (width + 2)
      | .error read => .ending (.badEscape ('u' :: rest.take read) (read + 2))
  | '\\' :: mark :: _ =>
      match quote.shortEscape? mark with
      | some value => .character value 2
      | none => .ending (.badEscape [mark] 1)
  | value :: _ =>
      if value = quote.character then .ending .closed
      else if quote = double && value < ' ' then .ending (.control value)
      else .character value 1

/-- A spelling takes at least one character. -/
theorem spelling_width_pos {quote : Quote} {input : List Char} {value : Char} {width : Nat}
    (read : quote.spelling input = .character value width) : 0 < width := by
  unfold spelling at read
  split at read
  · simp at read
  · simp at read
  · split at read
    · simp only [Spelling.character.injEq] at read
      omega
    · simp at read
  · split at read
    · simp only [Spelling.character.injEq] at read
      omega
    · simp at read
  · split at read
    · simp at read
    · split at read
      · simp at read
      · simp only [Spelling.character.injEq] at read
        omega

theorem spelling_shortens {quote : Quote} {input : List Char} {value : Char} {width : Nat}
    (read : quote.spelling input = .character value width) :
    (input.drop width).length < input.length := by
  have nonempty : input ≠ [] := by
    rintro rfl
    simp [spelling] at read
  have inputPositive := List.length_pos_iff.mpr nonempty
  have widthPositive := spelling_width_pos read
  simp only [List.length_drop]
  omega

/-- Reads the inside of a string up to its ending: the characters it holds,
each with the width of its spelling. -/
def content (quote : Quote) (input : List Char) : List (Char × Nat) × Ending :=
  match _ : quote.spelling input with
  | .ending ending => ([], ending)
  | .character value width =>
      let (more, ending) := quote.content (input.drop width)
      ((value, width) :: more, ending)
termination_by input.length
decreasing_by exact spelling_shortens (by assumption)

theorem content_of_ending {quote : Quote} {input : List Char} {ending : Ending}
    (read : quote.spelling input = .ending ending) :
    quote.content input = ([], ending) := by
  rw [content]
  split <;> simp_all

theorem content_of_character {quote : Quote} {input : List Char} {value : Char} {width : Nat}
    (read : quote.spelling input = .character value width) :
    quote.content input =
      ((value, width) :: (quote.content (input.drop width)).1,
        (quote.content (input.drop width)).2) := by
  rw [content]
  split <;> simp_all

def contentWidth : List (Char × Nat) → Nat
  | [] => 0
  | (_, width) :: rest => width + contentWidth rest

end Quote

end TemplatedJson
