import Sentry.Arena

/-! The arena on the command line. It runs with the settings in the file named by
the first argument, if there is one, and ends with exit code one if they are
refused. -/
namespace Sentry

open Enemy

/-- What is said about settings that are refused: the fault itself, and what caused it. -/
def refusal (headline : String) (cause : Option String) : String :=
  "Error: " ++ headline ++ (cause.map ("\n\nCaused by:\n    " ++ ·)).getD ""

def readBytes (path : String) : IO (Option ByteArray) := do
  try
    return some (← IO.FS.readBinFile path)
  catch _ =>
    return none

/-- Prints the lines of a run, or what is wrong with its settings. -/
def play (config : Enemy.Config) : IO UInt32 := do
  match Arena.report config with
  | .ok lines =>
    for line in lines do
      IO.println line
    return 0
  | .error fault =>
    IO.eprintln (refusal (ReadFault.invalid fault).message none)
    return 1

end Sentry

open Sentry Enemy in
def main (args : List String) : IO UInt32 := do
  match args with
  | [] => play Arena.standard
  | path :: _ =>
    match Config.load (← readBytes path) with
    | .ok config => play config
    | .error fault =>
      let cause := match fault with
        | .unreadable => none
        | .refused inner => some inner.message
      IO.eprintln (refusal (fault.message path) cause)
      return 1
