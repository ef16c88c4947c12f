import ClassDump.Classpath.Lookup
import ClassDump.Reconcile
import ClassDump.Settings

/-! The pruning pipeline: the classpath is resolved, the reference set built, the class dump pruned, and the counts
reported. The first two stages change no file, so that a failure in them leaves everything as it was. -/

namespace ClassDump.Pipeline

/-- A pipeline that may run many times, with the reference set that was built last. -/
structure Command where
  referenceSet : Option ReferenceSet := none
deriving DecidableEq, Repr

/-- The entries and the local directories of the classpath; the class dump must be a directory. -/
def resolveClasspath (settings : Settings) (world : World) :
    Except Failure (List Path × List Classpath.Root) × World :=
  let classdump := Path.ofText settings.classdump
  match world.isDir classdump with
  | .error error => (.error (.ofOs error), world)
  | .ok false => (.error (.configuration (.classdumpMissing classdump)), world)
  | .ok true =>
    match Classpath.resolveEntries world (settings.classpath.map .text) with
    | .error failure => (.error failure, world)
    | .ok entries =>
      match Classpath.resolveRoots world (entries.map .path) with
      | (.error failure, world) => (.error failure, world)
      | (.ok roots, world) =>
        (.ok (entries, roots),
          world.log .info .pipeline
            ("Using reference classes from local build classpath: " ++ Text.quoteList (entries.map Path.text)))

/-- The task of keying the local classes by what the whole classpath has for them. -/
def referenceTask (progress : Bool) : Reference.Task Classpath.Lookup where
  read := Classpath.Lookup.readResource
  classId := Reference.agentId
  interval := if progress then some Reference.defaultInterval else none

def buildReferenceSet (entries : List Path) (roots : List Classpath.Root) (progress : Bool) (world : World)
    (listener : Listener := .mute) : Except Failure ReferenceSet × World :=
  match Reference.build (referenceTask progress) (roots.map (·.path)) (.along entries) world listener with
  | (.error failure, _, world) => (.error failure, world)
  | (.ok references, _, world) =>
    (.ok references, world.log .debug .pipeline ("Keeping classes: " ++ Text.quoteList references.keys))

def pruneTask (settings : Settings) (references : ReferenceSet) (progress : Bool) : Reconcile.Task where
  classdump := Path.ofText settings.classdump
  references := references
  exclusion := Path.ofText settings.exclusion
  dryRun := settings.dryRun
  interval := if progress then some Reconcile.defaultInterval else none

/-- The numbers of a run after its stages were recorded. A run reads no clock, so every stage takes no time. -/
def recordStages (stats : Stats) : Stats :=
  ((stats.record .resolveClasspath .zero).record .buildReferenceSet .zero).record .reconcileClassdump stats.totalTime

/-- Runs the pipeline, with or without reports of progress to a listener. -/
def Command.execute (command : Command) (settings : Settings) (progress : Bool) (world : World)
    (listener : Listener := .mute) : Except Failure Stats × Command × World :=
  let world :=
    world.log .info .pipeline ("Pruning Jacoco classdump at: " ++ (Path.ofText settings.classdump).text)
  match resolveClasspath settings world with
  | (.error failure, world) => (.error failure, command, world)
  | (.ok (entries, roots), world) =>
    match buildReferenceSet entries roots progress world listener with
    | (.error failure, world) => (.error failure, command, world)
    | (.ok references, world) =>
      match Reconcile.run (pruneTask settings references progress) world listener with
      | (.error failure, world) => (.error failure, ⟨some references⟩, world)
      | (.ok stats, world) => (.ok (recordStages stats), ⟨some references⟩, world)

end ClassDump.Pipeline
