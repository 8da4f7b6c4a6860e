import ScenarioScript.Command.Run
import ScenarioScript.Regex.Engine

/-!
# The program

Reads its arguments and the file that they name, runs the command, and prints what it leaves behind.
-/

namespace ScenarioScript

/-- What an error of the file system means for the command. -/
def ReadFault.ofError : IO.Error → ReadFault
  | .noFileOrDirectory .. => .notFound
  | .inappropriateType _ code _ => if code = 21 then .isDirectory else .notDirectory
  | error => .other error.toString

/-- The content of the file that the arguments name. -/
def readNamedFile (argv : List String) : IO (Except ReadFault ByteArray) := do
  match Arguments.parse argv with
  | .ok ⟨_, _, _, .file path⟩ =>
    try return .ok (← IO.FS.readBinFile path)
    catch error => return .error (.ofError error)
  | _ => return .error .notFound

end ScenarioScript

open ScenarioScript in
def main (argv : List String) : IO UInt32 := do
  let content ← readNamedFile argv
  match Command.run Regex.engine argv fun _ => content with
  | .ok report =>
    IO.print report.output
    IO.eprint report.errors
    return UInt32.ofNat report.status.toNat
  | .error .unorderedBounds =>
    IO.eprintln "clamp: the bounds have no order"
    return 101
