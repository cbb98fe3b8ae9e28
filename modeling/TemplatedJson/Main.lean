import TemplatedJson.Command.Line

/-!
# The program

The program reads its arguments, the environment and, if no text is among the
arguments, the standard input.
-/

namespace TemplatedJson.Command

/-- The text of a command: an argument, or else all of the standard input. -/
def findText (invocation : Invocation) : IO (Except Failure String) := do
  match invocation.text with
  | some text => return .ok text
  | none =>
      let input ← IO.getStdin
      if ← input.isTty then return .error .noInput
      else return inputText (← input.readBinToEnd)

def carryOut : Line → IO Exit
  | .version => return Exit.version
  | .misuse => return Exit.misuse
  | .invocation invocation => return invocation.run (← findText invocation)

end TemplatedJson.Command

open TemplatedJson.Command in
def main (arguments : List String) : IO UInt32 := do
  let environment ← IO.getEnv "MAPX_MAX_DEPTH"
  let exit ← carryOut (Line.ofArguments arguments environment)
  IO.print exit.output
  IO.eprint exit.errors
  return exit.status.toUInt32
