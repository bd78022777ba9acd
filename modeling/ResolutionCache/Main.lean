import ResolutionCache.CommandLine

/-!
# The program

Runs a load test as the command line says and shows on the standard error stream what happened. The
exit code is two for a command line that makes no sense, one for a load test that went wrong and 101
for a fault outside the mutators.
-/

open ResolutionCache

/-- Reads the command line, runs the load test and shows what happened. -/
def main (arguments : List String) : IO UInt32 := do
  match CommandLine.parse arguments with
  | .error e =>
    IO.eprintln e.message
    return 2
  | .ok .help =>
    IO.println CommandLine.usage
    return 0
  | .ok (.run o verbose) =>
    if o.ids = 0 then
      IO.eprintln "ERROR --ids must be at least 1"
      return 2
    let (outcome, journal) := LoadTest.run o
    for e in journal do
      if CommandLine.isShown verbose e then IO.eprintln e.line
    match outcome with
    | .ok () => return 0
    | .error (.fault f) =>
      IO.eprintln f.message
      return 101
    | .error e =>
      IO.eprintln ("ERROR " ++ e.message)
      return 1
