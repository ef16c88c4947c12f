import ClassDump.Reference
import ClassDump.Relocation
import ClassDump.Stats

/-! Pruning a class dump by a reference set. Every dumped class whose relative path is a key of the set stays where it
is, and every other one goes to the same relative path in the exclusion tree. Other files are left alone. An entry
that cannot be visited is skipped and counted, and the scan goes on. -/

namespace ClassDump.Reconcile

/-- What a class dump is pruned by. Progress is reported after every `interval` classes, if at all. -/
structure Task where
  classdump : Path
  references : ReferenceSet
  exclusion : Path
  dryRun : Bool := false
  interval : Option Nat := none

/-- The state of a scan of the class dump. -/
structure Scan where
  world : World
  kept : Nat := 0
  pruned : Nat := 0
  skipped : Nat := 0

def stage : String := "reconcile"

/-- Progress is reported after every so many classes, unless asked otherwise. -/
def defaultInterval : Nat := 5000

namespace Scan

def log (scan : Scan) (level : Level) (source : Source) (message : String) : Scan :=
  { scan with world := scan.world.log level source message }

def total (scan : Scan) : Nat :=
  scan.kept + scan.pruned

def progress (scan : Scan) : Progress :=
  ⟨stage, scan.total, none⟩

def reportProgress (scan : Scan) : Scan :=
  { scan with world := scan.world.report (.progress scan.progress) }

/-- The end of the visit of a class: progress is reported, if it is due, and the walk goes on, unless the listener raises
something. -/
def proceed (interval : Option Nat) (scan : Scan) (listener : Listener := .mute) :
    Except (Raised Failure) VisitAction × Scan :=
  match Progress.due? interval scan.total with
  | none => (.error (.own .zeroInterval), scan)
  | some due => (Reference.verdict listener due scan.progress, if due then scan.reportProgress else scan)

end Scan

/-- The visit of a dumped class: it is kept if it is referenced, and else moved, unless this is a dry run. -/
def decideOn (task : Task) (file : Path) (relative : String) (scan : Scan) (listener : Listener := .mute) :
    Except (Raised Failure) VisitAction × Scan :=
  if task.references.contains relative then
    let scan := scan.log .debug .reconciler ("Keeping classdump for " ++ relative)
    { scan with kept := scan.kept + 1 }.proceed task.interval listener
  else
    let scan := scan.log .debug .reconciler ("Removing classdump for " ++ relative ++ ": " ++ file.text)
    if task.dryRun then { scan with pruned := scan.pruned + 1 }.proceed task.interval listener
    else
      match Relocation.relocate scan.world file relative task.exclusion with
      | (.ok _, world) => { scan with world := world, pruned := scan.pruned + 1 }.proceed task.interval listener
      | (.error (.os error), world) => (.error (.os error), { scan with world := world })
      | (.error error, world) => (.error (.own (.file error)), { scan with world := world })

/-- The visit of an entry: a class file is decided on, anything else passed over. -/
def visit (task : Task) (file : Path) (scan : Scan) (listener : Listener := .mute) :
    Except (Raised Failure) VisitAction × Scan :=
  if isClassFile file then
    match file.relativeTo? task.classdump with
    | some relative => decideOn task file relative.text scan listener
    | none => (.error (.own (.notBelow ⟨file, task.classdump⟩)), scan)
  else (.ok .proceed, scan)

def skip (path : Path) (error : OsError) (scan : Scan) : Scan :=
  let scan := scan.log .debug .reconciler ("Skipping classdump entry " ++ path.text ++ ": " ++ error.message)
  { scan with skipped := scan.skipped + 1 }

def visitor (task : Task) (listener : Listener := .mute) : Visitor Scan Failure where
  world := Scan.world
  log message scan := scan.log .debug .walk message
  visit file scan := visit task file scan listener
  onError := some skip

/-- The exclusion directory, with all links followed, is the class dump or lies in it. -/
def isInside (task : Task) (world : World) : Except FileError Bool := do
  let exclusion ← world.resolve task.exclusion
  let classdump ← world.resolve task.classdump
  return exclusion = classdump || exclusion.isBelow classdump

def prepare (task : Task) (world : World) : Except Failure Unit × World :=
  match Relocation.createRoot world task.exclusion with
  | (.ok (), world) =>
    (.ok (), world.log .info .reconciler ("Putting pruned classdump contents into " ++ task.exclusion.text))
  | (.error (.os error), world) => (.error (.configuration (.exclusionNotMade task.exclusion error)), world)
  | (.error error, world) => (.error (.file error), world)

def scanDump (task : Task) (world : World) (listener : Listener := .mute) : Except Failure Stats × World :=
  match Walk.run (visitor task listener) task.classdump ⟨world, 0, 0, 0⟩ with
  | (.error raised, scan) => (.error (Reference.failureOf raised), scan.world)
  | (.ok _, scan) =>
    match Progress.open? task.interval scan.total with
    | none => (.error .zeroInterval, scan.world)
    | some isOpen =>
      let reported := if isOpen then scan.reportProgress else scan
      match listener.answer isOpen scan.progress with
      | some failure => (.error failure, reported.world)
      | none =>
        let verb := Stats.verb task.dryRun
        let scan := reported.log .info .reconciler (verb ++ " " ++ toString scan.pruned ++ " files from classdump")
        let scan := scan.log .info .reconciler ("Kept " ++ toString scan.kept ++ " files from classdump")
        (.ok
          { kept := scan.kept
            pruned := scan.pruned
            skipped := scan.skipped
            referenceSize := task.references.size
            dryRun := task.dryRun },
          scan.world)

/-- Prunes a class dump. The exclusion tree must lie outside it. -/
def run (task : Task) (world : World) (listener : Listener := .mute) : Except Failure Stats × World :=
  match isInside task world with
  | .error error => (.error (.file error), world)
  | .ok true => (.error (.configuration (.exclusionInside task.exclusion task.classdump)), world)
  | .ok false =>
    if task.dryRun then scanDump task world listener
    else
      match prepare task world with
      | (.error failure, world) => (.error failure, world)
      | (.ok (), world) => scanDump task world listener

end ClassDump.Reconcile
