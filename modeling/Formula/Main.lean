import Formula.CommandLine.Response
import Formula.Host.Generator

set_option relaxedAutoImplicit false
set_option autoImplicit false

/-!
# The program

Reads the command line, the file it names and the clock, and writes the answer.
-/

namespace Formula.CommandLine

/-- The text of a file, or why it cannot be read. -/
def readText (path : String) : IO (Except FileFault String) := do
  try
    return .ok (← IO.FS.readFile path)
  catch
    | .noFileOrDirectory .. => return .error .missing
    | .inappropriateType _ 20 _ => return .error .notDirectory
    | .inappropriateType .. => return .error .directory
    | error => return .error (.other (toString error))

/-- The file that a request names. -/
def readConfig : Request → IO (Except FileFault String)
  | .evaluate ⟨_, _, some path, _, _, false⟩ => readText path
  | _ => return .error .missing

end Formula.CommandLine

open Formula Formula.CommandLine

/-- Answers a command line. -/
def main (words : List String) : IO UInt32 := do
  let start ← IO.monoNanosNow
  let request := Request.ofWords words
  let config ← readConfig request
  let seconds := ((← IO.monoNanosNow) - start).toFloat / 1000000000.0
  let around : Surroundings Generator :=
    ⟨fun _ => config, Clock.fixed (Tick.elapsed seconds), RandomSource.generator⟩
  let response := Response.of around (← IO.monoNanosNow).toUInt64 request
  IO.print response.output
  IO.eprint response.errors
  return response.code.toUInt32
