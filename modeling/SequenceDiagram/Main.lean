import SequenceDiagram.CommandLine.Run

/-! The program: reads its input, runs, prints and ends. -/

namespace SequenceDiagram.CommandLine

/-- The failure that the system reported. -/
def ReadError.ofSystem : IO.Error → ReadError
  | .noFileOrDirectory .. => .notFound
  | .permissionDenied .. => .denied
  | .inappropriateType _ 20 _ => .notDirectory
  | .inappropriateType _ 21 _ => .isDirectory
  | .noSuchThing _ number details => .other details number.toNat
  | .resourceExhausted _ number details => .other details number.toNat
  | .invalidArgument _ number details => .other details number.toNat
  | .otherError number details => .other details number.toNat
  | e => .other e.toString 5

/-- Reads all that a source holds. -/
def readSource (source : Source) : IO (Except ReadError Text) := do
  try
    let bytes ← match source with
      | .standardInput => do (← IO.getStdin).readBinToEnd
      | .file path => IO.FS.readBinFile (String.ofList path)
    return decode bytes
  catch e => return .error (.ofSystem e)

/-- Runs on arguments, prints and gives the exit code. -/
def perform (args : List String) : IO UInt32 := do
  let terminal ← (← IO.getStdin).isTty
  let exit ← run terminal readSource (args.map String.toList)
  (← IO.getStdout).putStr exit.stdout
  (← IO.getStderr).putStr exit.stderr
  return exit.code.toUInt32

end SequenceDiagram.CommandLine

/-- Runs the program on its arguments. -/
def main (args : List String) : IO UInt32 := SequenceDiagram.CommandLine.perform args
