import TemplatedJson.Token.Quote

/-!
# Tokens

A token is a piece of text together with its kind and its place.  Operators
and delimiters have one fixed spelling each; the kinds of the other tokens
carry what the text stands for.
-/

namespace TemplatedJson

/-- The operators and delimiters, each with one spelling. -/
inductive Symbol where
  | dollar
  | plus
  | minus
  | star
  | slash
  | percent
  | equal
  | notEqual
  | less
  | lessOrEqual
  | greater
  | greaterOrEqual
  | and
  | or
  | exclamation
  | question
  | colon
  | leftBrace
  | rightBrace
  | leftBracket
  | rightBracket
  | leftParenthesis
  | rightParenthesis
  | comma
  | dot
deriving DecidableEq, Repr

namespace Symbol

def text : Symbol → String
  | dollar => "$"
  | plus => "+"
  | minus => "-"
  | star => "*"
  | slash => "/"
  | percent => "%"
  | equal => "=="
  | notEqual => "!="
  | less => "<"
  | lessOrEqual => "<="
  | greater => ">"
  | greaterOrEqual => ">="
  | and => "&&"
  | or => "||"
  | exclamation => "!"
  | question => "?"
  | colon => ":"
  | leftBrace => "\x7b"
  | rightBrace => "\x7d"
  | leftBracket => "["
  | rightBracket => "]"
  | leftParenthesis => "("
  | rightParenthesis => ")"
  | comma => ","
  | dot => "."

def quoted (symbol : Symbol) : String :=
  "'" ++ symbol.text ++ "'"

/-- The delimiters, as opposed to the operators. -/
def isDelimiter : Symbol → Bool
  | leftBrace | rightBrace | leftBracket | rightBracket | leftParenthesis | rightParenthesis
  | comma | dot | colon => true
  | _ => false

/-- The longest symbol at the start of a text. -/
def scan? : List Char → Option Symbol
  | '=' :: '=' :: _ => some equal
  | '!' :: '=' :: _ => some notEqual
  | '<' :: '=' :: _ => some lessOrEqual
  | '>' :: '=' :: _ => some greaterOrEqual
  | '&' :: '&' :: _ => some and
  | '|' :: '|' :: _ => some or
  | '$' :: _ => some dollar
  | '+' :: _ => some plus
  | '-' :: _ => some minus
  | '*' :: _ => some star
  | '/' :: _ => some slash
  | '%' :: _ => some percent
  | '<' :: _ => some less
  | '>' :: _ => some greater
  | '!' :: _ => some exclamation
  | '?' :: _ => some question
  | ':' :: _ => some colon
  | '{' :: _ => some leftBrace
  | '}' :: _ => some rightBrace
  | '[' :: _ => some leftBracket
  | ']' :: _ => some rightBracket
  | '(' :: _ => some leftParenthesis
  | ')' :: _ => some rightParenthesis
  | ',' :: _ => some comma
  | '.' :: _ => some dot
  | _ => none

theorem text_length_pos (symbol : Symbol) : 0 < symbol.text.length := by
  cases symbol <;> decide

end Symbol

namespace Token

inductive Kind where
  /-- A number.  Its value is read from the text of the token. -/
  | number
  /-- A string with its escapes decoded. -/
  | string (value : String) (quote : Quote)
  | boolean (value : Bool)
  | null
  | identifier (name : String)
  /-- A named scope; the name excludes the dollar sign. -/
  | scope (name : String)
  | symbol (symbol : Symbol)
  | endOfInput
deriving DecidableEq, Repr

namespace Kind

/-- A short description for error messages. -/
def describe : Kind → String
  | number => "number"
  | string _ _ => "string"
  | boolean true => "'true'"
  | boolean false => "'false'"
  | null => "null"
  | identifier name => "identifier '" ++ name ++ "'"
  | scope name => "scope '$" ++ name ++ "'"
  | symbol sign => sign.quoted
  | endOfInput => "end of input"

/-- The spelling of an operator or delimiter; empty for all other kinds. -/
def symbolText : Kind → String
  | symbol sign => sign.text
  | _ => ""

/-- The class of tokens that a listing shows for a kind. -/
def className : Kind → String
  | number => "Number"
  | string _ _ => "String"
  | boolean _ => "Boolean"
  | null => "Null"
  | identifier _ => "Identifier"
  | scope _ => "Scope"
  | symbol .dollar => "Dollar"
  | symbol sign => if sign.isDelimiter then "Punctuation" else "Operator"
  | endOfInput => "Eof"

/-- The kind of a name: four names are keywords. -/
def ofWord (name : String) : Kind :=
  if name = "true" then boolean true
  else if name = "false" then boolean false
  else if name = "null" || name = "nil" then null
  else identifier name

theorem ofWord_ne_endOfInput (name : String) : ofWord name ≠ endOfInput := by
  unfold ofWord
  split
  · simp
  · split
    · simp
    · split <;> simp

end Kind

end Token

/-- A token: its kind, its exact text and the offset of its first character. -/
structure Token where
  kind : Token.Kind
  raw : String
  offset : Nat
deriving DecidableEq, Repr

namespace Token

/-- The offset one past the last character of a token. -/
def stop (token : Token) : Nat :=
  token.offset + token.raw.length

def padLeft (width : Nat) (text : String) : String :=
  String.ofList (List.replicate (width - text.length) ' ') ++ text

def padRight (width : Nat) (text : String) : String :=
  text ++ String.ofList (List.replicate (width - text.length) ' ')

/-- The line that a listing shows for a token: offset, class and text. -/
def line (token : Token) : String :=
  let offset := padLeft 5 (toString token.offset) ++ "  "
  match token.kind with
  | .endOfInput => offset ++ "Eof"
  | kind => offset ++ padRight 12 kind.className ++ " " ++ token.raw

end Token

end TemplatedJson
