import ClassDump.Decimal.Numeral
import ClassDump.Path

/-! What a run reports while it works: log records, progress, its changes of the files, and text for the two output
channels, all in the order in which they arise. Which of them are shown is decided afterwards. -/

namespace ClassDump

/-- How much a log record matters. -/
inductive Level where
  | debug
  | info
  | error
deriving DecidableEq, Repr

namespace Level

def text : Level → String
  | .debug => "DEBUG"
  | .info => "INFO"
  | .error => "ERROR"

def rank : Level → Nat
  | .debug => 0
  | .info => 1
  | .error => 2

end Level

/-- The part of the program that a log record comes from. -/
inductive Source where
  | pipeline
  | buildStep
  | classpath
  | lookup
  | reference
  | reconciler
  | walk
deriving DecidableEq, Repr

namespace Source

/-- The name of the logger of a part. -/
def logger : Source → String
  | .pipeline => "classprune.commands"
  | .buildStep => "classprune.build_step"
  | .classpath => "classprune.core.classpath"
  | .lookup => "classprune.core.resolver"
  | .reference => "classprune.core.reference"
  | .reconciler => "classprune.core.reconciler"
  | .walk => "classprune.core.walker"

end Source

/-- The progress of a scan: how many classes it has processed, and of how many, where that is known. -/
structure Progress where
  stage : String
  current : Int
  total : Option Int
deriving DecidableEq, Repr

namespace Progress

/-- Whether progress that is reported after every so many classes, if at all, is due at this count. For a report after
every zero classes there is no answer. -/
def due? (interval : Option Nat) (count : Nat) : Option Bool :=
  match interval with
  | none => some false
  | some 0 => none
  | some every => some (count % every = 0)

/-- Whether progress that is reported after every so many classes, if at all, is still to be reported at the final
count. -/
def open? (interval : Option Nat) (count : Nat) : Option Bool :=
  match interval with
  | none => some false
  | some 0 => none
  | some every => some (count % every ≠ 0)

/-- The progress on the console, which overwrites the line before it. A total that is not positive counts as none; a
share of the total that is too large for a number cannot be shown. -/
def text? (progress : Progress) : Option String :=
  let start := "\r  [" ++ progress.stage ++ "] " ++ toString progress.current
  match progress.total with
  | some (.ofNat (total + 1)) =>
    match Decimal.Binary64.ofRatio progress.current (total + 1) with
    | .infinite _ => none
    | share => some (start ++ "/" ++ toString (total + 1) ++ " (" ++ Decimal.fixed 1 (share.scale 100) ++ "%)")
  | _ => some (start ++ " classes processed...")

end Progress

/-- A change of the files that a run made: a directory, or what was at one path went to another. -/
inductive Change where
  | made (path : Path)
  | moved (source target : Path)
deriving DecidableEq, Repr

/-- One thing that a run reports. `out` and `err` are texts for the standard output and the error output. -/
inductive Event where
  | log (level : Level) (source : Source) (message : String)
  | progress (state : Progress)
  | changed (change : Change)
  | out (text : String)
  | err (text : String)
deriving DecidableEq, Repr

namespace Event

/-- A log record as a line: the level and the logger's name padded on the right, and the message. -/
def logLine (level : Level) (source : Source) (message : String) : String :=
  let pad (width : Nat) (text : String) := text ++ String.ofList (List.replicate (width - text.length) ' ')
  pad 8 level.text ++ " | " ++ pad 25 source.logger ++ " | " ++ message ++ "\n"

end Event
end ClassDump
