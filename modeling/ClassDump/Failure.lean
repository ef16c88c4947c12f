import ClassDump.Archive.Error
import ClassDump.ClassKey
import ClassDump.Store.RealPath

/-! What can stop a run, by cause, with the wording of each cause. -/

namespace ClassDump

/-- Why settings are refused before a run. -/
inductive SettingsError where
  | noClassdump
  | noClasspath
deriving DecidableEq, Repr

namespace SettingsError

def message : SettingsError → String
  | .noClassdump => "Classdump directory cannot be empty"
  | .noClasspath => "Classpath cannot be empty"

end SettingsError

/-- How the configuration of a run is unusable. -/
inductive ConfigurationError where
  | entryNotPath (shown : String)
  | entryBlank (shown : String)
  | entryNul (text : String)
  | entryNotAbsolute (text : String) (cause : OsError)
  | classdumpMissing (path : Path)
  | exclusionInside (exclusion classdump : Path)
  | exclusionNotMade (exclusion : Path) (cause : OsError)
  | propertyMissing (name : String)
  | settings (cause : SettingsError)
  | other (text : String)
deriving DecidableEq, Repr

namespace ConfigurationError

def message : ConfigurationError → String
  | .entryNotPath shown => "Classpath entry is not a path: " ++ shown
  | .entryBlank shown => "Classpath entry is not a usable path: " ++ shown
  | .entryNul text => "Classpath entry contains a NUL byte: " ++ Text.quote text
  | .entryNotAbsolute text cause =>
    "Cannot convert classpath entry " ++ Text.quote text ++ ": " ++ cause.message
  | .classdumpMissing path => "Classdump directory not found: " ++ path.text
  | .exclusionInside exclusion classdump =>
    "Exclusion directory " ++ exclusion.text ++ " must be outside classdump " ++ classdump.text
  | .exclusionNotMade exclusion cause =>
    "Cannot create exclusion directory " ++ exclusion.text ++ ": " ++ cause.message
  | .propertyMissing name => "Missing build property: " ++ name
  | .settings cause => cause.message
  | .other text => text

end ConfigurationError

/-- The wording that stands for an empty reference set, unless another is given. -/
def nothingToKeep : String := "Could not find any classes to keep. Have you run a build?"

/-- What stops an operation of the library. `raised` is what the receiver of progress reports raises for reasons of its
own. -/
inductive Failure where
  | file (error : FileError)
  | archive (error : Archive.Error)
  | lookupClosed
  | key (error : ClassKeyError)
  | notBelow (error : NotBelow)
  | classdumpNotGiven
  | emptySeparator
  | zeroInterval
  | shareTooLarge
  | raised (text : String)
  | interrupted
  | settings (error : SettingsError)
  | configuration (error : ConfigurationError)
  | consistency (binaryName detail : String)
  | emptyReferenceSet (text : String := nothingToKeep)
  | buildStep (cause : Failure)
deriving DecidableEq, Repr

namespace Failure

def message : Failure → String
  | .file error => error.message
  | .archive error => error.message
  | .lookupClosed => "Resolver is closed"
  | .key error => error.message
  | .notBelow error =>
    let ancestor := error.ancestor.anchor.text ++ "/".intercalate error.ancestor.parts
    Text.quote error.path.text ++ " is not in the subpath of " ++ Text.quote ancestor ++
      " OR one path is relative and the other is absolute."
  | .classdumpNotGiven => "expected str, bytes or os.PathLike object, not list"
  | .emptySeparator => "empty separator"
  | .zeroInterval => "integer modulo by zero"
  | .shareTooLarge => "integer division result too large for a float"
  | .raised text => text
  | .interrupted => ""
  | .settings error => error.message
  | .configuration error => error.message
  | .consistency binaryName detail =>
    "Cannot read class bytes for " ++ binaryName ++ " through the configured classpath" ++
      (if detail = "" then "" else ": " ++ detail)
  | .emptyReferenceSet text => text
  | .buildStep cause => "Classdump pruning failed: " ++ cause.message

/-- The failure is one of those that the pipeline announces. -/
def isPipeline : Failure → Bool
  | .configuration _ | .consistency _ _ | .emptyReferenceSet _ => true
  | _ => false

/-- The wording of a failure of input or output: the system refused something, or what was read is no block-sorted
data. -/
def refusal? : Failure → Option String
  | .file (.os error) => some error.message
  | .archive (.os error) => some error.message
  | .archive (.blockSorted fault) => some fault.text
  | _ => none

/-- The failure says that a given value is wrong in itself. -/
def isInvalidValue : Failure → Bool
  | .file .nul | .archive (.encoding _) | .key _ | .notBelow _ | .emptySeparator | .settings _ => true
  | _ => false

def ofOs (error : OsError) : Failure :=
  .file (.os error)

end Failure

/-- Whoever receives the progress reports of a run: what it raises at a report, if anything. -/
abbrev Listener := Progress → Option Failure

namespace Listener

def mute : Listener := fun _ => none

/-- What is raised at a report, if there is one. -/
def answer (listener : Listener) (due : Bool) (state : Progress) : Option Failure :=
  if due then listener state else none

def Raises (listener : Listener) (stage : String) (failure : Failure) : Prop :=
  ∃ state, state.stage = stage ∧ listener state = some failure

theorem raises_of_answer {listener : Listener} {due : Bool} {state : Progress} {failure : Failure} {stage : String}
    (h : listener.answer due state = some failure) (hstage : state.stage = stage) : listener.Raises stage failure := by
  cases due with
  | true => exact ⟨state, hstage, h⟩
  | false => cases h

@[simp] theorem answer_mute (due : Bool) (state : Progress) : mute.answer due state = none := by
  cases due <;> rfl

end Listener
end ClassDump
