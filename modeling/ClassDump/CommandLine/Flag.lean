import ClassDump.Text.Split

/-! The options of the command line, with what the help says about them. -/

namespace ClassDump.CommandLine

def programName : String := "classprune"

def defaultClassdump : String := "build/jacoco/classdump"

inductive Switch where
  | help
  | dryRun
  | quiet
  | verbose
deriving DecidableEq, Repr

inductive Setting where
  | classdump
  | classpath
  | exclusion
deriving DecidableEq, Repr

inductive Flag where
  | switch (switch : Switch)
  | setting (setting : Setting)
deriving DecidableEq, Repr

namespace Flag

/-- The options in the order of the help. -/
def all : List Flag :=
  [.switch .help, .setting .classdump, .setting .classpath, .setting .exclusion, .switch .dryRun, .switch .quiet,
    .switch .verbose]

def names : Flag → List String
  | .switch .help => ["-h", "--help"]
  | .setting .classdump => ["--classdump", "-d"]
  | .setting .classpath => ["--classpath", "-c"]
  | .setting .exclusion => ["--exclusion-dir", "-e"]
  | .switch .dryRun => ["--dry-run"]
  | .switch .quiet => ["--quiet", "-q"]
  | .switch .verbose => ["--verbose", "-v"]

def isRequired (flag : Flag) : Bool :=
  flag = .setting .classpath

/-- What stands for the value of an option in the help, if it has one. -/
def placeholder? : Flag → Option String
  | .setting .classdump => some "CLASSDUMP"
  | .setting .classpath => some "DIRS"
  | .setting .exclusion => some "EXCLUSION_DIR"
  | .switch _ => none

def description : Flag → List String
  | .switch .help => ["show this help message and exit"]
  | .setting .classdump =>
    ["Classdump directory written by the coverage agent. Default: " ++ defaultClassdump]
  | .setting .classpath =>
    ["Local build output directories that define the classes to keep.",
      "Comma-separated, may be repeated. Archive entries are consulted",
      "when reading class bytes but are never scanned.",
      "Example:",
      "  " ++ programName ++ " -c build/classes/main,build/classes/thrift"]
  | .setting .exclusion =>
    ["Directory receiving pruned classdump files.",
      "Must not exist yet. Default: <classdump parent>/exclclassdump"]
  | .switch .dryRun => ["Classify classdump files without moving anything"]
  | .switch .quiet => ["Suppress non-essential output"]
  | .switch .verbose => ["Show detailed statistics, progress and per-class decisions"]

/-- All spellings with their options. -/
def spellings : List (String × Flag) :=
  all.flatMap fun flag => flag.names.map fun name => (name, flag)

def named? (name : String) : Option Flag :=
  spellings.lookup name

def title (flag : Flag) : String :=
  "/".intercalate flag.names

/-- A spelling followed by what stands for the value. -/
def written (flag : Flag) (name : String) : String :=
  match flag.placeholder? with
  | some placeholder => name ++ " " ++ placeholder
  | none => name

end Flag
end ClassDump.CommandLine
