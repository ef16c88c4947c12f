import ClassDump.Pipeline

/-! Pruning as a step of a build. Whatever stops the run is reported once, as a failure of the step with its cause. Only
an interruption by the user goes on as it is. -/

namespace ClassDump.BuildStep

/-- Prunes the class dump that the properties of a build name. -/
def attempt (properties : List (String × Option String)) (world : World) (listener : Option Listener := none) :
    Except Failure Stats × World :=
  match Settings.ofProperties world properties with
  | .error failure => (.error failure, world)
  | .ok settings =>
    match ({} : Pipeline.Command).execute settings listener.isSome world (listener.getD .mute) with
    | (result, _, world) => (result, world)

def run (properties : List (String × Option String)) (world : World) (listener : Option Listener := none) :
    Except Failure Stats × World :=
  match attempt properties world listener with
  | (.error .interrupted, world) => (.error .interrupted, world)
  | (.error cause, world) =>
    let failure := Failure.buildStep cause
    (.error failure, world.log .error .buildStep failure.message)
  | (.ok stats, world) =>
    (.ok stats,
      world.log .info .buildStep
        ("Classdump pruning finished: kept " ++ toString stats.kept ++ ", pruned " ++ toString stats.pruned))

end ClassDump.BuildStep
