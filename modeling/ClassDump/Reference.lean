import ClassDump.ClassKey
import ClassDump.Classpath.Entry
import ClassDump.ReferenceSet
import ClassDump.Walk

/-! Building the reference set: every class file below the local directories is keyed by the bytes that the source of
class bytes has for it. Where that is a look-up along the whole classpath, a class shadowed by an earlier entry is keyed
by the bytes that would be loaded. -/

namespace ClassDump

/-- The binary name of a class file by its path and that of its class directory. -/
def binaryName (file root : Path) : Except Failure String :=
  match file.relativeTo? root with
  | some relative => .ok (binaryNameOf relative.text)
  | none => .error (.notBelow ⟨file, root⟩)

def isClassFile (path : Path) : Bool :=
  Text.endsWith path.name classSuffix

namespace Reference

/-- How a reference set is built. `read` is where class bytes come from, with a state of its own and a look at the
world, and `classId` is what identifies a class. -/
structure Task (ρ : Type) where
  read : ρ → World → String → Except Failure (Option Bytes) × ρ × World
  classId : Bytes → Int
  interval : Option Nat := none

/-- The state of a reference scan. -/
structure Scan (ρ : Type) where
  world : World
  source : ρ
  keys : ReferenceSet := .empty
  processed : Nat := 0

def stage : String := "reference"

/-- Progress is reported after every so many classes, unless asked otherwise. -/
def defaultInterval : Nat := 1000

/-- The identity that the coverage agent gives to a class, as an integer. -/
def agentId (data : Bytes) : Int :=
  (ClassId.ofBytes data).toNat

variable {ρ : Type}

namespace Scan

def log (scan : Scan ρ) (source : Source) (message : String) : Scan ρ :=
  { scan with world := scan.world.log .debug source message }

def progress (scan : Scan ρ) : Progress :=
  ⟨stage, scan.processed, none⟩

def reportProgress (scan : Scan ρ) : Scan ρ :=
  { scan with world := scan.world.report (.progress scan.progress) }

end Scan

/-- The key of a class file, by the bytes that the source has for it. -/
def keyFor (task : Task ρ) (file root : Path) (scan : Scan ρ) : Except Failure ClassKey × Scan ρ :=
  match file.relativeTo? root with
  | none => (.error (.notBelow ⟨file, root⟩), scan)
  | some relative =>
    let name := binaryNameOf relative.text
    let scan := scan.log .reference ("Got local class: " ++ file.text ++ " " ++ name)
    let (found, source, world) := task.read scan.source scan.world relative.text
    let scan := { scan with source := source, world := world }
    match found with
    | .error failure =>
      match failure.refusal? with
      | some refusal => (.error (.consistency name refusal), scan)
      | none => (.error failure, scan)
    | .ok none => (.error (.consistency name "no classpath entry provides it"), scan)
    | .ok (some data) =>
      match ClassKey.of name (task.classId data) with
      | .error error => (.error (.key error), scan)
      | .ok key =>
        (.ok key, scan.log .reference ("Got class id " ++ key.path ++ " for class " ++ name))

/-- The end of a visit: what the listener raises at the report, if there is one, or the walk goes on. -/
def verdict (listener : Listener) (due : Bool) (state : Progress) : Except (Raised Failure) VisitAction :=
  match listener.answer due state with
  | none => .ok .proceed
  | some (.file (.os error)) => .error (.os error)
  | some failure => .error (.own failure)

@[simp] theorem verdict_mute (due : Bool) (state : Progress) : verdict .mute due state = .ok .proceed := by
  unfold verdict
  rw [Listener.answer_mute]

/-- The visit of an entry: a class file is keyed, anything else passed over. Progress is reported at every multiple of
the interval. -/
def visit (task : Task ρ) (root file : Path) (scan : Scan ρ) (listener : Listener := .mute) :
    Except (Raised Failure) VisitAction × Scan ρ :=
  if isClassFile file then
    match keyFor task file root scan with
    | (.error failure, scan) => (.error (.own failure), scan)
    | (.ok key, scan) =>
      let scan := { scan with keys := scan.keys.insert key.path, processed := scan.processed + 1 }
      match Progress.due? task.interval scan.processed with
      | none => (.error (.own .zeroInterval), scan)
      | some due => (verdict listener due scan.progress, if due then scan.reportProgress else scan)
  else (.ok .proceed, scan)

/-- The visitor of the class files below a root. A directory that cannot be listed is passed over. -/
def visitor (task : Task ρ) (root : Path) (listener : Listener := .mute) : Visitor (Scan ρ) Failure where
  world := Scan.world
  log message scan := scan.log .walk message
  visit file scan := visit task root file scan listener
  onError := none

def failureOf : Raised Failure → Failure
  | .os error => .ofOs error
  | .nul => .file .nul
  | .own failure => failure

def scanRoots (task : Task ρ) (roots : List Path) (scan : Scan ρ) (listener : Listener := .mute) :
    Except Failure Unit × Scan ρ :=
  match roots with
  | [] => (.ok (), scan)
  | root :: rest =>
    let scan := scan.log .reference ("Checking local classes: " ++ root.text)
    match Walk.run (visitor task root listener) root scan with
    | (.error raised, scan) => (.error (failureOf raised), scan)
    | (.ok _, scan) => scanRoots task rest scan listener

/-- The set of the keys of all classes below the roots; that there are none is an error. -/
def build (task : Task ρ) (roots : List Path) (source : ρ) (world : World) (listener : Listener := .mute) :
    Except Failure ReferenceSet × ρ × World :=
  match scanRoots task roots { world := world, source := source } listener with
  | (.error failure, scan) => (.error failure, scan.source, scan.world)
  | (.ok (), scan) =>
    match Progress.open? task.interval scan.processed with
    | none => (.error .zeroInterval, scan.source, scan.world)
    | some isOpen =>
      let reported := if isOpen then scan.reportProgress else scan
      match listener.answer isOpen scan.progress with
      | some failure => (.error failure, reported.source, reported.world)
      | none =>
        let scan :=
          reported.log .reference ("Fingerprinted " ++ toString scan.processed ++ " local classes in 0.00 seconds")
        if scan.keys.isEmpty then (.error (.emptyReferenceSet), scan.source, scan.world)
        else (.ok scan.keys, scan.source, scan.world)

end Reference
end ClassDump
