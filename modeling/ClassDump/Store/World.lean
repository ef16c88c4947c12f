import ClassDump.Path
import ClassDump.Report
import ClassDump.Store.Resolve

/-! The world that a run works in: the tree of files, the working directory, the home directories, the faults that the
system is about to show, and what has been reported so far. Questions about files leave it as it is. -/

namespace ClassDump

/-- The operations that fail although the tree would let them succeed, by the written path that they are given: moving
in one step, reading a file, listing a directory, and opening an archive. What a path `apart` names is on another device
than all it could be moved to. -/
structure Faults where
  move : List (String × Errno) := []
  read : List (String × Errno) := []
  list : List (String × Errno) := []
  opening : List (String × Errno) := []
  apart : List String := []
deriving Repr

/-- The files and the surroundings of a run, with the home directories of the accounts and what has been reported, in
order. -/
structure World where
  root : Node
  workingDir : Place
  home : String
  accounts : List (String × String) := []
  faults : Faults := {}
  events : Array Event := #[]

namespace World

def report (world : World) (event : Event) : World :=
  { world with events := world.events.push event }

def log (world : World) (level : Level) (source : Source) (message : String) : World :=
  world.report (.log level source message)

/-- The place that a path leads to, over so many links at most. -/
def locateFrom (world : World) (links : Nat) (path : Path) : Except Errno Place :=
  if pathMax ≤ path.byteLength then .error .nameTooLong
  else Place.locate world.root links (if path.isAbsolute then ⟨[], []⟩ else world.workingDir) path.parts

/-- What a path names, with every link followed. -/
def stat (world : World) (path : Path) : Except Errno Node := do
  match (← world.locateFrom linkMax path).node? world.root with
  | some node => .ok node
  | none => .error .noEntry

/-- The place of the directory that the last name of a path is looked up in. -/
def locateParent (world : World) (path : Path) : Except Errno Place :=
  if pathMax ≤ path.byteLength then .error .nameTooLong
  else world.locateFrom linkMax path.parent

/-- What a path names, with a link in the last place not followed. -/
def lstat (world : World) (path : Path) : Except Errno Node :=
  if path.name = "" ∨ path.name = ".." then world.stat path
  else do
    let parent ← world.locateParent path
    if !parent.removed.isEmpty then throw .noEntry
    match world.root.get? parent.location with
    | none => .error .noEntry
    | some (.dir entries) =>
      if nameMax < path.name.utf8ByteSize then .error .nameTooLong
      else
        match entries.lookup path.name with
        | some node => .ok node
        | none => .error .noEntry
    | some _ => .error .notDirectory

/-- The answer to a question about what a path names. Where the path leads nowhere the answer is no; any other refusal
is an error. -/
def ask (world : World) (path : Path) (question : Node → Bool) : Except OsError Bool :=
  if path.hasNul then .ok false
  else
    match world.stat path with
    | .ok node => .ok (question node)
    | .error errno => if errno.meansAbsent then .ok false else .error (.refused errno (some path.text) none)

def pathExists (world : World) (path : Path) : Except OsError Bool :=
  world.ask path fun _ => true

def isDir (world : World) (path : Path) : Except OsError Bool :=
  world.ask path Node.isDir

def isFile (world : World) (path : Path) : Except OsError Bool :=
  world.ask path Node.isFile

def isLink (world : World) (path : Path) : Bool :=
  !path.hasNul &&
    match world.lstat path with
    | .ok node => node.isLink
    | .error _ => false

def readFile (world : World) (path : Path) : Except OsError Bytes :=
  match world.faults.read.lookup path.text with
  | some errno => .error (.refused errno none none)
  | none =>
    match world.stat path with
    | .ok (.file data) => .ok data
    | .ok .special => .error (.refused .noDevice (some path.text) none)
    | .ok _ => .error (.refused .isDirectory (some path.text) none)
    | .error errno => .error (.refused errno (some path.text) none)

/-- An entry of a directory as a scan sees it: its name, and whether it names a directory, with links followed. -/
structure Listed where
  name : String
  isDir : Bool
deriving DecidableEq, Repr

/-- The entries of the directory that a path names, in no order that means anything; `text` is the path as it was
written. -/
def list (world : World) (text : String) (path : Path) : Except OsError (List Listed) :=
  let refuse (errno : Errno) := Except.error (OsError.refused errno (some text) none)
  match world.faults.list.lookup text with
  | some errno => refuse errno
  | none =>
    if pathMax ≤ text.utf8ByteSize then refuse .nameTooLong
    else
      match world.stat path with
      | .error errno => refuse errno
      | .ok (.dir entries) =>
        .ok <| (Node.dir entries).children.map fun (name, node) =>
          match node with
          | .dir _ => ⟨name, true⟩
          | .file _ => ⟨name, false⟩
          | .special => ⟨name, false⟩
          | .link _ =>
            match world.stat (path.child name) with
            | .ok node => ⟨name, node.isDir⟩
            | .error _ => ⟨name, false⟩
      | .ok _ => refuse .notDirectory

/-- The location of the working directory; a removed one has none. -/
def currentDir (world : World) : Except OsError Location :=
  if world.workingDir.removed.isEmpty then .ok world.workingDir.location
  else .error (.refused .noEntry none none)

/-- The absolute form of a path, by the letter. -/
def absolute (world : World) (path : Path) : Except OsError Path :=
  if path.isAbsolute then .ok (path.absolute [])
  else do return path.absolute (← world.currentDir)

end World
end ClassDump
