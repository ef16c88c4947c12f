import ClassDump.Decimal.Numeral

/-! The outcome of a pruning run in numbers: what became of the entries of the class dump, and how long each stage took.
Durations are in seconds. -/

namespace ClassDump

/-- A stage of the pipeline. -/
inductive Stage where
  | resolveClasspath
  | buildReferenceSet
  | reconcileClassdump
  | report
deriving DecidableEq, Repr

namespace Stage

def all : List Stage :=
  [.resolveClasspath, .buildReferenceSet, .reconcileClassdump, .report]

def title : Stage → String
  | .resolveClasspath => "Resolve classpath"
  | .buildReferenceSet => "Build reference set"
  | .reconcileClassdump => "Reconcile classdump"
  | .report => "Report"

end Stage

/-- The durations of the stages recorded so far, in the order in which they were first recorded. -/
abbrev StageTimes := List (Stage × Decimal.Binary64)

namespace StageTimes

/-- The durations after one more of a stage, which is added to what the stage has. -/
def record (stage : Stage) (seconds : Decimal.Binary64) : StageTimes → StageTimes
  | [] => [(stage, Decimal.Binary64.zero.add seconds)]
  | (other, before) :: rest =>
    if other = stage then (other, before.add seconds) :: rest else (other, before) :: record stage seconds rest

def agree (times others : StageTimes) : Bool :=
  times.length = others.length &&
    times.all fun (stage, seconds) =>
      match others.lookup stage with
      | some other => seconds.agree other
      | none => false

end StageTimes

/-- The numbers of a run. Entries that could not be visited are neither kept nor pruned. -/
structure Stats where
  kept : Int := 0
  pruned : Int := 0
  skipped : Int := 0
  referenceSize : Int := 0
  dryRun : Bool := false
  totalTime : Decimal.Binary64 := .zero
  stageTimes : StageTimes := []
deriving DecidableEq, Repr

namespace Stats

def total (stats : Stats) : Int :=
  stats.kept + stats.pruned

/-- The numbers after one more duration of a stage. -/
def record (stats : Stats) (stage : Stage) (seconds : Decimal.Binary64) : Stats :=
  { stats with stageTimes := stats.stageTimes.record stage seconds }

def agree (stats other : Stats) : Bool :=
  stats.kept = other.kept && stats.pruned = other.pruned && stats.skipped = other.skipped &&
    stats.referenceSize = other.referenceSize && stats.dryRun = other.dryRun &&
    stats.totalTime.agree other.totalTime && stats.stageTimes.agree other.stageTimes

/-- A duration to the millisecond. -/
def showSeconds (seconds : Decimal.Binary64) : String :=
  Decimal.fixed 3 seconds ++ "s"

/-- What a run does with a class that it does not keep. -/
def verb (dryRun : Bool) : String :=
  if dryRun then "Would prune" else "Pruned"

/-- The lines of the summary. The line on skipped entries is there only if there are any, and those on stages only
for the recorded ones, in the order of a run. -/
def summaryLines (stats : Stats) : List String :=
  ["📊 Pruning Statistics:",
    "Total Execution Time: " ++ showSeconds stats.totalTime ++ "\n",
    "📚 Reference classes: " ++ toString stats.referenceSize,
    "✅ Kept: " ++ toString stats.kept,
    "📦 " ++ verb stats.dryRun ++ ": " ++ toString stats.pruned] ++
  (if stats.skipped = 0 then [] else ["⚠️ Skipped (unreadable): " ++ toString stats.skipped]) ++
  Stage.all.filterMap fun stage =>
    (stats.stageTimes.lookup stage).map fun seconds => stage.title ++ ": " ++ showSeconds seconds

def summary (stats : Stats) : String :=
  "\n".intercalate stats.summaryLines

end Stats
end ClassDump
