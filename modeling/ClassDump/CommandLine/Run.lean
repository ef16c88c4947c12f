import ClassDump.CommandLine.Arguments
import ClassDump.CommandLine.Usage
import ClassDump.Failure
import ClassDump.Pipeline

/-! A run from the command line: the arguments are checked against the files, the pipeline runs, and the outcome is
told. It ends with the numbers of the run, with an exit code after a message, or with a failure nobody expected. The
texts on the standard output and the error output are those of its events. -/

namespace ClassDump.Event

def outText : Event → String
  | .out text => text
  | _ => ""

def errText (verbose : Bool) : Event → String
  | .err text => text
  | .progress state => state.text?.getD ""
  | .log level source message => if verbose || level = .error then logLine level source message else ""
  | .out _ | .changed _ => ""

end ClassDump.Event

namespace ClassDump.CommandLine

def stdout (events : List Event) : String :=
  String.join (events.map Event.outText)

def stderr (verbose : Bool) (events : List Event) : String :=
  String.join (events.map (Event.errText verbose))

/-- The text on the error output for progress; a share that cannot be shown is a failure. -/
def progressText (states : List Progress) : Except Failure String := do
  let texts ← states.mapM fun state =>
    match state.text? with
    | some text => .ok text
    | none => .error .shareTooLarge
  return String.join texts

/-- Why a run ends without numbers: a message told the user, or no message was prepared for the failure. -/
inductive Halt where
  | exit (code : Nat)
  | unexpected (failure : Failure)
deriving DecidableEq, Repr

/-- A step of a run answers with the world after it. -/
abbrev Step (α : Type) := Except Halt α × World

def printLine (text : String) (world : World) : World :=
  world.report (.out (text ++ "\n"))

/-- The world after a warning, which a quiet run does not give. -/
def warn (quiet : Bool) (text : String) (world : World) : World :=
  if quiet then world else world.report (.err ("⚠️  " ++ text ++ "\n"))

def refuse {α : Type} (text : String) (world : World) : Step α :=
  (.error (.exit 1), world.report (.err ("❌ Error: " ++ text ++ "\n")))

def halt {α : Type} (failure : Failure) (world : World) : Step α :=
  (.error (.unexpected failure), world)

/-- Warns of an entry of the classpath that is no directory. -/
def checkEntry (quiet : Bool) (entry : String) (world : World) : Step Unit :=
  let path := Path.ofText entry
  match world.pathExists path, world.isDir path with
  | .error error, _ => halt (.ofOs error) world
  | .ok false, _ => (.ok (), warn quiet ("Classpath entry not found: " ++ entry) world)
  | .ok true, .error error => halt (.ofOs error) world
  | .ok true, .ok false =>
    (.ok (), warn quiet ("Classpath entry is not a directory, it will not be scanned: " ++ entry) world)
  | .ok true, .ok true => (.ok (), world)

def checkEntries (quiet : Bool) : List String → World → Step Unit
  | [], world => (.ok (), world)
  | entry :: rest, world =>
    match checkEntry quiet entry world with
    | (.ok (), world) => checkEntries quiet rest world
    | halted => halted

def checkClassdump (arguments : Arguments) (world : World) : Step Unit :=
  match arguments.classdump with
  | .nothing => halt .classdumpNotGiven world
  | .text text =>
    match world.resolve (Path.ofText text) with
    | .error error => halt (.file error) world
    | .ok classdump =>
      match world.pathExists classdump, world.isDir classdump with
      | .error error, _ => halt (.ofOs error) world
      | .ok false, _ => refuse ("Classdump directory not found: " ++ text) world
      | .ok true, .error error => halt (.ofOs error) world
      | .ok true, .ok false => refuse ("Classdump path is not a directory: " ++ text) world
      | .ok true, .ok true => (.ok (), world)

/-- The exclusion directory, if one is named, must not be there. -/
def checkExclusion (arguments : Arguments) (world : World) : Step Unit :=
  match arguments.exclusion? with
  | none => (.ok (), world)
  | some exclusion =>
    match world.pathExists (Path.ofText exclusion) with
    | .error error => halt (.ofOs error) world
    | .ok true => refuse ("Exclusion directory already exists: " ++ exclusion) world
    | .ok false => (.ok (), world)

/-- Checks the arguments against the files. -/
def validate (arguments : Arguments) (world : World) : Step Unit :=
  if arguments.quiet && arguments.verbose then refuse "--quiet and --verbose cannot be used together" world
  else
    match checkClassdump arguments world with
    | (.ok (), world) =>
      match checkExclusion arguments world with
      | (.ok (), world) => checkEntries arguments.quiet arguments.entries world
      | halted => halted
    | halted => halted

/-- The real path behind a written one, as text. -/
def realText (world : World) (text : String) : Except Failure String :=
  match world.resolve (Path.ofText text) with
  | .ok path => .ok path.text
  | .error error => .error (.file error)

/-- The settings that arguments ask for, with the real paths of the class dump and the exclusion directory. -/
def settingsOf (arguments : Arguments) (world : World) : Except Failure Settings :=
  match arguments.classdump with
  | .nothing => .error .classdumpNotGiven
  | .text text => do
    let classdump ← realText world text
    let exclusion ← arguments.exclusion?.mapM (realText world)
    Settings.make world (some classdump) arguments.entries exclusion arguments.dryRun

/-- The settings that arguments ask for; values that are wrong in themselves are refused with a message. -/
def configure (arguments : Arguments) (world : World) : Step Settings :=
  match settingsOf arguments world with
  | .ok settings => (.ok settings, world)
  | .error failure =>
    if failure.isInvalidValue then refuse ("Parameter error: " ++ failure.message) world else halt failure world

/-- The reports after which the user interrupts the program, if there are any. -/
abbrev Cancel := Progress → Bool

/-- The receiver of progress reports only shows them; at any of them the user may interrupt the program. -/
def Cancel.listener (cancel : Cancel) : Listener :=
  fun state => if cancel state then some .interrupted else none

/-- Runs the pipeline; the failures that it announces are told. -/
def prune (settings : Settings) (verbose : Bool) (world : World) (cancel : Cancel := fun _ => false) : Step Stats :=
  match ({} : Pipeline.Command).execute settings verbose world cancel.listener with
  | (.error failure, _, world) => if failure.isPipeline then refuse failure.message world else halt failure world
  | (.ok stats, _, world) => (.ok stats, if verbose then world.report (.err "\n") else world)

def outcomeLine (settings : Settings) (stats : Stats) : String :=
  if settings.dryRun then
    "Dry run: " ++ toString stats.pruned ++ " of " ++ toString stats.total ++
      " classdump files would be moved to " ++ settings.exclusion
  else
    "✅ Kept " ++ toString stats.kept ++ " classdump files, moved " ++ toString stats.pruned ++ " to " ++
      settings.exclusion

/-- Tells the outcome of a run. A quiet run tells nothing. -/
def tellOutcome (settings : Settings) (stats : Stats) (quiet verbose : Bool) (world : World) : World :=
  if quiet then world
  else
    let world := if verbose then printLine "" (printLine stats.summary (printLine "" world)) else world
    let world := printLine (outcomeLine settings stats) world
    if stats.skipped = 0 then world
    else
      warn quiet (toString stats.skipped ++ " classdump entries could not be read and were left in place") world

def run (arguments : Arguments) (world : World) (cancel : Cancel := fun _ => false) : Step Stats :=
  match validate arguments world with
  | (.error stop, world) => (.error stop, world)
  | (.ok (), world) =>
    match configure arguments world with
    | (.error stop, world) => (.error stop, world)
    | (.ok settings, world) =>
      let world :=
        if arguments.quiet then world else printLine ("Pruning classdump: " ++ settings.classdump) world
      match prune settings arguments.verbose world cancel with
      | (.error stop, world) => (.error stop, world)
      | (.ok stats, world) =>
        let world := tellOutcome settings stats arguments.quiet arguments.verbose world
        (.ok stats, if arguments.verbose then printLine "\n✅ Completed in 0.00 seconds" world else world)

/-- How the program ends: with an exit code, or with a failure that is handed on to whoever debugs the program. -/
inductive Ending where
  | exit (code : Nat)
  | raised (failure : Failure)
deriving DecidableEq, Repr

/-- The end of the program after a run: an interruption is told, and so is an unexpected failure, or it is handed on in
debugging. -/
def conclude (debug : Bool) : Step Stats → Ending × World
  | (.ok _, world) => (.exit 0, world)
  | (.error (.exit code), world) => (.exit code, world)
  | (.error (.unexpected .interrupted), world) =>
    (.exit 130, printLine "\n⚠️  Operation cancelled by user (Ctrl+C)" world)
  | (.error (.unexpected failure), world) =>
    if debug then (.raised failure, world)
    else (.exit 1, world.report (.err ("❌ Unexpected error: " ++ failure.message ++ "\n")))

/-- The end of the program when the arguments lead to no run. -/
def stopped (stop : Arguments.Stop) (world : World) : Ending × World :=
  match stop with
  | .help => (.exit 0, world.report (.out Usage.help))
  | .misuse misuse =>
    (.exit 2, world.report (.err (Usage.usage ++ programName ++ ": error: " ++ misuse.message ++ "\n")))

/-- The whole program: the arguments are parsed and the run is concluded. -/
def program (texts : List String) (debug : Bool) (world : World) (cancel : Cancel := fun _ => false) :
    Ending × World :=
  match Arguments.parse texts with
  | .error stop => stopped stop world
  | .ok arguments => conclude debug (run arguments world cancel)

def isVerbose (texts : List String) : Bool :=
  match Arguments.parse texts with
  | .ok arguments => arguments.verbose
  | .error _ => false

end ClassDump.CommandLine
