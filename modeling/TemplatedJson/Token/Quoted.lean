import TemplatedJson.Token.Quote
import TemplatedJson.Unicode.Blank
import TemplatedJson.Unicode.Escape

/-!
# Writing strings

Strings that are printed anew stand in double quotes.  Quotes, backslashes and
control characters are escaped and all other characters are written as they
are, so the lexer reads the same string back.
-/

namespace TemplatedJson.Quoted

/-- The spelling of a character between double quotes. -/
def escapeCharacter (character : Char) : List Char :=
  if character = '\x22' then ['\\', '\x22']
  else if character = '\\' then ['\\', '\\']
  else if character = '\n' then ['\\', 'n']
  else if character = '\r' then ['\\', 'r']
  else if character = '\t' then ['\\', 't']
  else if Unicode.isControl character then Unicode.escape character
  else [character]

/-- The spelling of a text between double quotes. -/
def escape (content : String) : String :=
  String.ofList (content.toList.flatMap escapeCharacter)

def quote (content : String) : String :=
  "\x22" ++ escape content ++ "\x22"

end TemplatedJson.Quoted
