import FrenchTarot.CommandLine.Script

/-!
# The program

Carries out the script of the command line.
-/

namespace FrenchTarot.CommandLine

/-- The text of a file, if it can be read. -/
def readText (path : String) : IO (Option String) := do
  try return some (← IO.FS.readFile path) catch _ => return none

/-- Writes a file; tells whether that succeeded. -/
def writeText (path text : String) : IO Bool := do
  try
    IO.FS.writeFile path text
    return true
  catch _ => return false

/-- Carries out a script and gives the exit code. -/
def carryOut : Script → IO UInt32
  | .done => return 0
  | .fail code message => do
    IO.eprintln message
    return code.toUInt32
  | .print text next => do
    IO.println text
    carryOut (next ())
  | .load path next => do carryOut (next (← readText path))
  | .save path text next => do carryOut (next (← writeText path text))

end FrenchTarot.CommandLine

/-- Runs the program; without a seed in the arguments, a fresh one is drawn. -/
def main (args : List String) : IO UInt32 := do
  let bytes ← IO.getRandomBytes 8
  let seed := bytes.toList.foldl (fun n b => n * 256 + UInt64.ofNat b.toNat) (0 : UInt64)
  FrenchTarot.CommandLine.carryOut (.ofArguments args seed)
