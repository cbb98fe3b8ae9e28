import TemplatedJson.Command.Basic

/-!
# The command line

A command line names one command after the options of the whole program, and
before the options of that command.  At each of these two levels an option may
be given once.  The greatest depth can be set at both levels and in the
environment; the setting nearest to the command counts.
-/

namespace TemplatedJson.Command

inductive Action where
  | parse
  | check
  | format
  | tokens
deriving DecidableEq, Repr

namespace Action

def ofName? (name : String) : Option Action :=
  if name = "parse" then some parse
  else if name = "check" then some check
  else if name = "format" then some format
  else if name = "tokens" then some tokens
  else none

def takesResolver (action : Action) : Bool :=
  action ≠ tokens

def takesPretty (action : Action) : Bool :=
  action = parse || action = format

end Action

inductive Argument where
  | word (text : String)
  /-- Two dashes alone: everything after them is a word. -/
  | separator
  | long (name : String) (value : Option String)
  | short (letters : List Char)
deriving DecidableEq, Repr

/-- The shape of an argument.  A lone dash is a word. -/
def Argument.ofText (text : String) : Argument :=
  match text.toList with
  | ['-', '-'] => .separator
  | '-' :: '-' :: option =>
      let name := String.ofList (option.takeWhile (· ≠ '='))
      match option.dropWhile (· ≠ '=') with
      | [] => .long name none
      | _ :: value => .long name (some (String.ofList value))
  | ['-'] => .word text
  | '-' :: letters => .short letters
  | _ => .word text

/-- A depth as it is written in options and in the environment: ASCII digits,
perhaps after a plus sign, that denote a number below `2 ^ 64`. -/
def depth? (text : String) : Option Nat :=
  let digits :=
    match text.toList with
    | '+' :: digits => digits
    | digits => digits
  (Number.natural? digits).filter (· < 0x10000000000000000)

structure Given where
  text : Option String := none
  resolver : Bool := false
  pretty : Bool := false
  maxDepth : Option Nat := none
deriving DecidableEq, Repr

namespace Given

/-- Adds the text, which can be given only once. -/
def addText (given : Given) (text : String) : Option Given :=
  match given.text with
  | none => some { given with text := some text }
  | some _ => none

def addResolver (action : Action) (given : Given) : Option Given :=
  if action.takesResolver && !given.resolver then some { given with resolver := true } else none

def addPretty (action : Action) (given : Given) : Option Given :=
  if action.takesPretty && !given.pretty then some { given with pretty := true } else none

def addLetter (action : Action) (given : Given) (letter : Char) : Option Given :=
  if letter = 'r' then addResolver action given
  else if letter = 'p' then addPretty action given
  else none

def addName (action : Action) (given : Given) (name : String) : Option Given :=
  if name = "resolver" then addResolver action given
  else if name = "pretty" then addPretty action given
  else none

end Given

/-- Sets a depth that has not been set at the same level. -/
def setDepth (earlier : Option Nat) (text : String) : Option Nat :=
  match earlier with
  | none => depth? text
  | some _ => none

/-- Reads the arguments after the name of a command.  There is no result if they
are not used as the command asks. -/
def readGiven (action : Action) : Given → List String → Option Given
  | given, [] => some given
  | given, argument :: rest =>
      match Argument.ofText argument with
      | .word text =>
          match given.addText text with
          | some more => readGiven action more rest
          | none => none
      | .separator => rest.foldlM Given.addText given
      | .short letters =>
          match letters.foldlM (Given.addLetter action) given with
          | some more => readGiven action more rest
          | none => none
      | .long "max-depth" (some value) =>
          match setDepth given.maxDepth value with
          | some depth => readGiven action { given with maxDepth := some depth } rest
          | none => none
      | .long "max-depth" none =>
          match rest with
          | value :: others =>
              match setDepth given.maxDepth value with
              | some depth => readGiven action { given with maxDepth := some depth } others
              | none => none
          | [] => none
      | .long name none =>
          match given.addName action name with
          | some more => readGiven action more rest
          | none => none
      | .long _ (some _) => none

/-- A command with everything it needs but the text, which may have to be read
from the input. -/
structure Invocation where
  action : Action
  text : Option String
  mode : Mode
  pretty : Bool
  options : ParseOptions
deriving DecidableEq, Repr

inductive Line where
  | version
  /-- Nothing, because it is not used as the program asks. -/
  | misuse
  | invocation (invocation : Invocation)
deriving DecidableEq, Repr

/-- The depth that counts, if the settings make sense.  The environment is
looked at unless the depth is set at both levels. -/
def effectiveDepth (outer inner : Option Nat) (environment : Option String) : Option Nat :=
  let fromEnvironment :=
    match environment with
    | some text => depth? text
    | none => some ({} : ParseOptions).maxDepth
  match outer, inner with
  | some _, some depth => some depth
  | none, some depth => fromEnvironment.map fun _ => depth
  | some depth, none => fromEnvironment.map fun _ => depth
  | none, none => fromEnvironment

/-- The command line that names an action and gives it arguments. -/
def Line.ofGiven (action : Action) (outer : Option Nat) (environment : Option String)
    (given : Given) : Line :=
  match effectiveDepth outer given.maxDepth environment with
  | some depth =>
      .invocation
        { action
          text := given.text
          mode := if given.resolver then .expression else .document
          pretty := given.pretty
          options := ⟨depth⟩ }
  | none => .misuse

/-- Reads the arguments of the program, given the depth set so far. -/
def Line.read (environment : Option String) : Option Nat → List String → Line
  | _, [] => .misuse
  | outer, argument :: rest =>
      match Argument.ofText argument with
      | .long "version" none => .version
      | .short ('V' :: _) => .version
      | .long "max-depth" (some value) =>
          match setDepth outer value with
          | some depth => Line.read environment (some depth) rest
          | none => .misuse
      | .long "max-depth" none =>
          match rest with
          | value :: others =>
              match setDepth outer value with
              | some depth => Line.read environment (some depth) others
              | none => .misuse
          | [] => .misuse
      | .word name =>
          match Action.ofName? name with
          | some action =>
              match readGiven action {} rest with
              | some given => Line.ofGiven action outer environment given
              | none => .misuse
          | none => .misuse
      | _ => .misuse

def Line.ofArguments (arguments : List String) (environment : Option String) : Line :=
  Line.read environment none arguments

structure Exit where
  status : Nat
  output : String
  errors : String
deriving DecidableEq, Repr

def Exit.version : Exit :=
  ⟨0, "mapx 0.1.0\n", ""⟩

def Exit.misuse : Exit :=
  ⟨2, "", ""⟩

def Exit.ofResult : Except Failure String → Exit
  | .ok shown => ⟨0, shown ++ "\n", ""⟩
  | .error failure => ⟨1, "", failure.message ++ "\n"⟩

def inputText (bytes : ByteArray) : Except Failure String :=
  match String.fromUTF8? bytes with
  | some text => .ok text
  | none => .error .notText

namespace Invocation

/-- Carries out a command on a text.  Showing a failed outcome is no failure of
the command, but its status tells. -/
def runOn (invocation : Invocation) (text : String) : Exit :=
  let settings : Settings := ⟨text, invocation.mode, invocation.pretty, invocation.options⟩
  match invocation.action with
  | .parse =>
      let shown := parse settings
      ⟨if shown.success then 0 else 1, shown.json ++ "\n", ""⟩
  | .check => Exit.ofResult ((check settings).map fun _ => "ok")
  | .format => Exit.ofResult (format settings)
  | .tokens => Exit.ofResult (tokens text)

def run (invocation : Invocation) (text : Except Failure String) : Exit :=
  match text with
  | .ok text => invocation.runOn text
  | .error failure => Exit.ofResult (.error failure)

end Invocation

end TemplatedJson.Command
