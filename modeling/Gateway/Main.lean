import Gateway.Command.Run

/-!
# The program

Reads the files that a command names, runs the command, and prints what it says. Fresh ids are
random UUIDs of version 4.
-/

namespace Gateway

/-- The text of a file, if it can be read. -/
def readFile? (path : String) : IO (Option String) := do
  try
    return some (← IO.FS.readFile path)
  catch _ => return none

/-- The texts of some files. -/
def readFiles (paths : List String) : IO Files := do
  let texts ← paths.mapM fun p => return (p, ← readFile? p)
  return fun p => (texts.lookup p).join

/-- Fresh ids that start at a random place. -/
def randomIds : IO IdSupply := do
  let bytes ← IO.getRandomBytes 16
  return .fromSeed (bytes.toList.foldl (fun n b => 256 * n + b.toNat) 0)

/-- Print lines. -/
def printLines (stream : IO.FS.Stream) (lines : List String) : IO Unit :=
  lines.forM fun line => stream.putStrLn line

/-- Run the command that the arguments make; the result is the exit status. -/
def runProgram (arguments : List String) : IO UInt32 := do
  match Command.parse arguments with
  | .error e =>
    printLines (← if e.status == 0 then IO.getStdout else IO.getStderr) [e.message]
    return e.status.toUInt32
  | .ok command =>
    let (status, transcript) := command.run (← readFiles command.paths) (← randomIds)
    printLines (← IO.getStdout) transcript.output
    printLines (← IO.getStderr) transcript.remarks
    return status.toUInt32

end Gateway

/-- The program. -/
def main (arguments : List String) : IO UInt32 := Gateway.runProgram arguments
