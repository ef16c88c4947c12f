import ClassDump.Classpath.Entry
import ClassDump.Store.World

/-! The settings of a pruning run, checked when they are made: there is a class dump and a classpath, and where no
exclusion directory is configured it stands beside the class dump. Build tools hand them over as properties. -/

namespace ClassDump

/-- The settings of a run. -/
structure Settings where
  classdump : String
  classpath : List String
  exclusion : String
  dryRun : Bool
deriving DecidableEq, Repr

namespace Settings

def defaultExclusionName : String := "exclclassdump"

/-- The exclusion directory for a class dump where none is configured: beside it, by the letter of its absolute path. -/
def defaultExclusion (world : World) (classdump : String) : Except Failure String :=
  match world.absolute (Path.ofText classdump) with
  | .ok path => .ok (path.parent.child defaultExclusionName).text
  | .error error => .error (.ofOs error)

def make (world : World) (classdump : Option String) (classpath : List String) (exclusion : Option String)
    (dryRun : Bool) : Except Failure Settings :=
  let classdump := classdump.getD ""
  if Text.allBlank classdump then .error (.settings .noClassdump)
  else if classpath.isEmpty then .error (.settings .noClasspath)
  else
    match exclusion with
    | some exclusion => .ok ⟨classdump, classpath, exclusion, dryRun⟩
    | none =>
      match defaultExclusion world classdump with
      | .ok exclusion => .ok ⟨classdump, classpath, exclusion, dryRun⟩
      | .error failure => .error failure

/-- The settings with a classpath in one text, cut at a separator. -/
def makeDelimited (world : World) (classdump : Option String) (separator classpath : String)
    (exclusion : Option String) (dryRun : Bool) : Except Failure Settings :=
  match Classpath.splitBy separator classpath with
  | .error failure => .error failure
  | .ok entries => make world classdump entries exclusion dryRun

def classdumpProperty : String := "jacoco.classdump.dir"

/-- The property that holds the classpath, with commas. -/
def classpathProperty : String := "build.classes.main"

def exclusionProperty : String := "jacoco.exclusion.dir"

/-- The value of a property, if it has one that is not empty. -/
def property? (properties : List (String × Option String)) (name : String) : Option String :=
  match properties.lookup name with
  | some (some value) => if value = "" then none else some value
  | _ => none

/-- The settings from the properties of a build. -/
def ofProperties (world : World) (properties : List (String × Option String)) : Except Failure Settings :=
  match property? properties classdumpProperty, property? properties classpathProperty with
  | none, _ => .error (.configuration (.propertyMissing classdumpProperty))
  | some _, none => .error (.configuration (.propertyMissing classpathProperty))
  | some classdump, some classpath =>
    match make world classdump (Classpath.split classpath) (property? properties exclusionProperty) false with
    | .error (.settings error) => .error (.configuration (.settings error))
    | result => result

end Settings
end ClassDump
