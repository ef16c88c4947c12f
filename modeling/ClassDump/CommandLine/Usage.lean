import ClassDump.CommandLine.Flag

/-! The usage line and the help. The usage breaks before an option that would not fit, and what the help says on an
option starts in one column. -/

namespace ClassDump.CommandLine

namespace Usage

def width : Nat := 78

/-- What the help says on options starts after so many columns. -/
def column : Nat := 24

def blanks (count : Nat) : String :=
  String.ofList (List.replicate count ' ')

/-- Puts parts on lines of at most the given width, one blank between them, after those on the line that is open; a part
that is too long has a line of its own. -/
def wrap (width : Nat) (line : String) : List String → List String
  | [] => [line]
  | part :: rest =>
    if line.length + 1 + part.length ≤ width then wrap width (line ++ " " ++ part) rest
    else line :: wrap width part rest

/-- How the usage shows an option: its first spelling, in brackets unless it must be given. -/
def part (flag : Flag) : String :=
  let shown := flag.written (flag.names.headD "")
  if flag.isRequired then shown else "[" ++ shown ++ "]"

def lines : List String :=
  let start := "usage: " ++ programName
  let indent := start.length + 1
  let parts := Flag.all.map part
  match wrap (width - indent) (parts.headD "") parts.tail with
  | first :: rest => (start ++ " " ++ first) :: rest.map (blanks indent ++ ·)
  | [] => [start]

def entry (flag : Flag) : List String :=
  let head := "  " ++ ", ".intercalate (flag.names.map flag.written)
  let described := flag.description.map (blanks column ++ ·)
  if head.length + 2 ≤ column then
    (head ++ blanks (column - head.length) ++ flag.description.headD "") :: described.tail
  else head :: described

/-- What the help says at its end. -/
def examples : List String :=
  ["Examples:",
    "  Prune the default classdump against the main build output",
    "  " ++ programName ++ " -c build/classes/main",
    "",
    "  Several build output directories, explicit classdump and exclusion tree",
    "  " ++ programName ++
      " -d build/jacoco/classdump -c build/classes/main,build/classes/stress -e build/jacoco/excluded",
    "",
    "  Only report what would be pruned",
    "  " ++ programName ++ " -c build/classes/main --dry-run",
    "",
    "Pruned files are moved, never deleted: move them back to restore the classdump."]

def unlines (lines : List String) : String :=
  String.join (lines.map (· ++ "\n"))

def usage : String :=
  unlines lines

def help : String :=
  unlines
    (lines ++ ["", programName ++ " — prune a JaCoCo classdump down to the locally built classes", "", "options:"] ++
      Flag.all.flatMap entry ++ [""] ++ examples)

end Usage
end ClassDump.CommandLine
