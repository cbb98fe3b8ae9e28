import TemplatedJson.Json.Tree

/-!
# Commands

Four commands work on a text: one shows the outcome of parsing, one only checks
that the text parses, one writes the text in canonical form, and one lists its
tokens.
-/

namespace TemplatedJson.Command

/-- Why a command has nothing to show. -/
inductive Failure where
  | parse (error : ParseError)
  | notText
  /-- There is neither a text nor an input to read it from. -/
  | noInput
deriving DecidableEq, Repr

def Failure.message : Failure → String
  | .parse error => "Parse error: " ++ error.message
  | .notText => "IO error: stream did not contain valid UTF-8"
  | .noInput => "No input provided. Pass the text as an argument or pipe it to stdin."

structure Settings where
  text : String
  mode : Mode
  pretty : Bool
  options : ParseOptions
deriving DecidableEq, Repr

structure Shown where
  json : String
  success : Bool
deriving DecidableEq, Repr

/-- The text of plain JSON, indented or not. -/
def jsonText (pretty : Bool) (json : Json) : String :=
  if pretty then json.pretty else json.compact

/-- Parses the text of the settings in their mode and collects the events. -/
def Settings.observed (settings : Settings) : Observed Tree :=
  match settings.mode with
  | .document => (observeDocument settings.text settings.options).map .document
  | .expression => (observeExpression settings.text settings.options).map .expression

/-- The record that parsing gives to every command. -/
def Settings.outcome (settings : Settings) : Outcome Tree :=
  .ofExcept settings.observed.result

theorem Settings.toExcept_outcome (settings : Settings) :
    settings.outcome.toExcept = settings.observed.result :=
  Outcome.toExcept_ofExcept settings.observed.result

def parse (settings : Settings) : Shown :=
  ⟨jsonText settings.pretty (settings.outcome.toJson Tree.toJson), settings.outcome.success⟩

def check (settings : Settings) : Except Failure Unit :=
  match settings.outcome.toExcept with
  | .ok _ => .ok ()
  | .error error => .error (.parse error)

/-- Writes a text in canonical form.  Only documents can be indented. -/
def format (settings : Settings) : Except Failure String :=
  match settings.outcome.toExcept with
  | .ok tree => .ok (tree.source settings.pretty)
  | .error error => .error (.parse error)

/-- Lists the tokens of a text, one after the other. -/
def tokens (text : String) : Except Failure String :=
  match tokenize text with
  | .ok tokens => .ok (String.intercalate "\n" (tokens.map Token.line))
  | .error error => .error (.parse error)

end TemplatedJson.Command
