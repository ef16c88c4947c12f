import ClassDump.Disk

/-! The program: prunes a class dump down to the classes of the local build. -/

open ClassDump

/-- The world of a run that asks about no files. -/
def emptyWorld : World :=
  { root := .dir [], workingDir := ⟨[], []⟩, home := "/" }

def main (args : List String) : IO UInt32 := do
  let debug := ((← IO.getEnv "DEBUG").getD "") ≠ ""
  let (ending, world) ←
    match CommandLine.Arguments.parse args with
    | .error stop => pure (CommandLine.stopped stop emptyWorld)
    | .ok arguments => Disk.carryOut arguments debug (← Disk.readWorld arguments) 0
  let events := world.events.toList
  (← IO.getStdout).putStr (CommandLine.stdout events)
  (← IO.getStderr).putStr (CommandLine.stderr (CommandLine.isVerbose args) events)
  match ending with
  | .exit code => return UInt32.ofNat code
  | .raised failure => throw (IO.userError failure.message)
