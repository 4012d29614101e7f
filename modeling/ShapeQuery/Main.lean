/-
This file runs the program.
-/
import ShapeQuery.CommandLine.Run

namespace ShapeQuery.CommandLine

/-- The content of a file that can be read. -/
def readFile (path : String) : IO (Option String) := do
  try return some (← IO.FS.readFile path) catch _ => return none

/-- The rest of a stream. -/
partial def readAll (stream : IO.FS.Stream) (before : String) : IO String := do
  let line ← stream.getLine
  if line.isEmpty then return before else readAll stream (before ++ line)

/-- The files and the standard input of the process. -/
def sources : Sources IO where
  file := readFile
  input := do readAll (← IO.getStdin) ""

end ShapeQuery.CommandLine

open ShapeQuery.CommandLine in
/-- Writes the query of a command line, or what keeps it from being written. -/
def main (words : List String) : IO UInt32 := do
  let outcome ← run sources words
  match outcome with
  | .success text => IO.print text
  | .failure failure => IO.eprintln ("Error: " ++ failure.message)
  | .misuse => IO.eprintln "error: the arguments are not understood"
  | .defect defect => IO.eprintln (defect.message?.getD "The query cannot be written.")
  return outcome.code.toUInt32
