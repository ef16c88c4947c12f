import ClassDump.Classpath.Entry
import ClassDump.CommandLine.Flag
import ClassDump.Text.Digit
import ClassDump.Text.Quoted

/-! The arguments of the command line. A long option may be shortened as far as one option is meant, its value follows
it or an equals sign. Short options may stand together after one dash, and the value of the last one may follow it at
once. All arguments are told apart before the first option takes effect. -/

namespace ClassDump.CommandLine

/-- What an option with a value was given. A value attached to its option counts as none when it is only the mark that
ends the options. -/
inductive Given where
  | text (text : String)
  | nothing
deriving DecidableEq, Repr

namespace Given

/-- What an option is given by the text attached to it. -/
def ofAttached (value : String) : Given :=
  if value = "--" then .nothing else .text value

def text? : Given → Option String
  | .text value => some value
  | .nothing => none

end Given

structure Arguments where
  classdump : Given := .text defaultClassdump
  classpath : List Given := []
  exclusion : Option Given := none
  dryRun : Bool := false
  quiet : Bool := false
  verbose : Bool := false
deriving DecidableEq, Repr

inductive Misuse where
  | ambiguous (text : String) (names : List String)
  | valueIgnored (flag : Flag) (value : String)
  | valueMissing (setting : Setting)
  | missing (setting : Setting)
  | unrecognized (texts : List String)
deriving DecidableEq, Repr

namespace Misuse

def message : Misuse → String
  | .ambiguous text names => "ambiguous option: " ++ text ++ " could match " ++ ", ".intercalate names
  | .valueIgnored flag value =>
    "argument " ++ flag.title ++ ": ignored explicit argument " ++ Text.quote value
  | .valueMissing setting => "argument " ++ (Flag.setting setting).title ++ ": expected one argument"
  | .missing setting => "the following arguments are required: " ++ (Flag.setting setting).title
  | .unrecognized texts => "unrecognized arguments: " ++ " ".intercalate texts

end Misuse

namespace Arguments

/-- What an argument is by itself: text, the mark after which nothing is an option, or an option, spelled with one dash
or two, and the text attached to it. -/
inductive Reading where
  | value (text : String)
  | terminator
  | option (flag : Flag) (long : Bool) (attached : Option String)
  | unknown (text : String)
deriving DecidableEq, Repr

/-- The text before the first equals sign, and the text after it, if there is one. -/
def cutAtEquals (text : String) : String × Option String :=
  match text.toList.dropWhile (· ≠ '=') with
  | _ :: rest => (String.ofList (text.toList.takeWhile (· ≠ '=')), some (String.ofList rest))
  | [] => (text, none)

def isLong (name : String) : Bool :=
  Text.startsWith name "--"

/-- The options that an argument may mean that is no full spelling: after two dashes those that start with it, and
after one dash the one with its first letter. -/
def candidates (text : String) : List (String × Flag × Option String) :=
  if isLong text then
    let (start, attached) := cutAtEquals text
    (Flag.spellings.filter fun (name, _) => Text.startsWith name start).map
      fun (name, flag) => (name, flag, attached)
  else
    (Flag.spellings.filter fun (name, _) => name.toList = text.toList.take 2).map
      fun (name, flag) => (name, flag, some (String.ofList (text.toList.drop 2)))

/-- Tells what an argument with a leading dash is that is no full spelling. -/
def readShortened (text : String) : Except Misuse Reading :=
  match candidates text with
  | [] => .ok (if Text.looksNegative text || text.toList.contains ' ' then .value text else .unknown text)
  | [(name, flag, attached)] => .ok (.option flag (isLong name) attached)
  | several => .error (.ambiguous text (several.map (·.1)))

def readOne (text : String) : Except Misuse Reading :=
  match Flag.named? text, text.toList with
  | some flag, _ => .ok (.option flag (isLong text) none)
  | none, '-' :: _ :: _ =>
    let (start, attached) := cutAtEquals text
    match attached, Flag.named? start with
    | some attached, some flag => .ok (.option flag (isLong text) (some attached))
    | _, _ => readShortened text
  | none, _ => .ok (.value text)

def readAll : List String → Except Misuse (List Reading)
  | [] => .ok []
  | text :: rest =>
    if text = "--" then .ok (.terminator :: rest.map .value)
    else do
      let reading ← readOne text
      let others ← readAll rest
      return reading :: others

/-- The options that stand together in one argument: those without a value, and after them perhaps one with a value,
with what it is given there. -/
structure Cluster where
  switches : List Switch
  setting : Option (Setting × Option Given)
deriving DecidableEq, Repr

namespace Cluster

def single : Flag → Cluster
  | .switch switch => ⟨[switch], none⟩
  | .setting setting => ⟨[], some (setting, none)⟩

/-- The options after one more in front. -/
def precededBy (switch : Switch) (cluster : Cluster) : Cluster :=
  { cluster with switches := switch :: cluster.switches }

/-- A short option with the text attached to it: its value, or else more short options, of which each letter has to be
one. -/
def ofLetters : Flag → List Char → Except Misuse Cluster
  | .setting setting, chars => .ok ⟨[], some (setting, some (.ofAttached (String.ofList chars)))⟩
  | .switch switch, [] => .error (.valueIgnored (.switch switch) "")
  | .switch switch, c :: rest =>
    match Flag.named? (String.ofList ['-', c]) with
    | none => .error (.valueIgnored (.switch switch) (String.ofList (c :: rest)))
    | some next => (if rest.isEmpty then .ok (single next) else ofLetters next rest).map (precededBy switch)

/-- An option with the text attached to it. Only short options may be followed by more options at once. -/
def ofAttached (flag : Flag) (long : Bool) (text : String) : Except Misuse Cluster :=
  match flag, long with
  | .switch switch, true => .error (.valueIgnored (.switch switch) text)
  | flag, _ => ofLetters flag text.toList

end Cluster

inductive Stop where
  | help
  | misuse (misuse : Misuse)
deriving DecidableEq, Repr

def turnOn (arguments : Arguments) : Switch → Except Stop Arguments
  | .help => .error .help
  | .dryRun => .ok { arguments with dryRun := true }
  | .quiet => .ok { arguments with quiet := true }
  | .verbose => .ok { arguments with verbose := true }

/-- The effect of an option with a value: parts of the classpath add up, and otherwise the last value counts. -/
def set (arguments : Arguments) (given : Given) : Setting → Arguments
  | .classdump => { arguments with classdump := given }
  | .classpath => { arguments with classpath := arguments.classpath ++ [given] }
  | .exclusion => { arguments with exclusion := some given }

/-- Lets the options take effect in order, and collects what means nothing. -/
def apply : List Reading → Arguments → List String → Except Stop (Arguments × List String)
  | [], arguments, others => .ok (arguments, others)
  | .value text :: rest, arguments, others => apply rest arguments (others ++ [text])
  | .terminator :: rest, arguments, others => apply rest arguments (others ++ ["--"])
  | .unknown text :: rest, arguments, others => apply rest arguments (others ++ [text])
  | .option flag long attached :: rest, arguments, others =>
    let cluster :=
      match attached with
      | some text => Cluster.ofAttached flag long text
      | none => .ok (Cluster.single flag)
    match cluster with
    | .error misuse => .error (.misuse misuse)
    | .ok cluster =>
      match cluster.setting, rest with
      | none, rest => do
        apply rest (← cluster.switches.foldlM turnOn arguments) others
      | some (setting, some given), rest => do
        apply rest ((← cluster.switches.foldlM turnOn arguments).set given setting) others
      | some (setting, none), .value text :: rest => do
        apply rest ((← cluster.switches.foldlM turnOn arguments).set (.text text) setting) others
      | some (setting, none), _ => .error (.misuse (.valueMissing setting))

/-- Parses the arguments. The classpath must be given. -/
def parse (texts : List String) : Except Stop Arguments :=
  match readAll texts with
  | .error misuse => .error (.misuse misuse)
  | .ok readings =>
    match apply readings {} [] with
    | .error stop => .error stop
    | .ok (arguments, others) =>
      if arguments.classpath.isEmpty then .error (.misuse (.missing .classpath))
      else if others.isEmpty then .ok arguments
      else .error (.misuse (.unrecognized others))

def entries (arguments : Arguments) : List String :=
  Classpath.splitAll (arguments.classpath.filterMap Given.text?)

/-- The exclusion directory that is named, if it is not the empty text. -/
def exclusion? (arguments : Arguments) : Option String :=
  (arguments.exclusion.bind Given.text?).filter (· ≠ "")

end Arguments
end ClassDump.CommandLine
