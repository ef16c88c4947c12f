import ClassDump.Store.RealPath

/-! The operations that change the tree of files: making a directory or a link, writing a file, moving a file or
directory to another path, and the placing and removing of things by whoever prepares the world. Each says where it
fails, and then the tree is as before. -/

namespace ClassDump

namespace World

/-- What an operation that changes the tree answers, with the world after it. -/
abbrev Changed (α : Type) := Except FileError α × World

/-- The place that the last name of a path stands for: the location of the directory, the name in it, and what the name
stands for now. -/
structure Slot where
  parent : Location
  name : String
  node : Option Node

def Slot.location (slot : Slot) : Location :=
  slot.parent ++ [slot.name]

/-- The directory that the last name of a path is looked up in, with its entries. A removed directory is nowhere and
has none. -/
structure Holder where
  location : Option Location
  entries : List (String × Node)

/-- The path ends in no name that something could be given. -/
def isNameless (path : Path) : Bool :=
  path.name = "" || path.name = ".."

/-- The directory that the last name of a path is looked up in. -/
def holder (world : World) (path : Path) : Except Errno Holder :=
  if path.name = "" then .ok ⟨none, []⟩
  else do
    let parent ← world.locateParent path
    if !parent.removed.isEmpty then return ⟨none, []⟩
    match world.root.get? parent.location with
    | some (.dir entries) => .ok ⟨some parent.location, entries⟩
    | some _ => .error .notDirectory
    | none => .error .noEntry

/-- The slot with the last name of a path in a directory, its last link not followed. A path without such a name is
refused with the given error number. -/
def Holder.slot (holder : Holder) (path : Path) (nameless : Errno) : Except Errno Slot :=
  if isNameless path then .error nameless
  else
    match holder.location with
    | none => .error .noEntry
    | some parent =>
      if nameMax < path.name.utf8ByteSize then .error .nameTooLong
      else .ok ⟨parent, path.name, holder.entries.lookup path.name⟩

def slot (world : World) (path : Path) (nameless : Errno) : Except Errno Slot := do
  (← world.holder path).slot path nameless

/-- Makes a directory where nothing is yet, not even a link, in a directory that is there. -/
def makeDir (world : World) (path : Path) : Changed Unit :=
  if path.hasNul then (.error .nul, world)
  else
    let refuse (errno : Errno) : Changed Unit := (.error (.os (.refused errno (some path.text) none)), world)
    match world.slot path .fileExists with
    | .error errno => refuse errno
    | .ok slot =>
      match slot.node with
      | some _ => refuse .fileExists
      | none => (.ok (), { world with root := world.root.put slot.location (.dir []) })

def makeLink (world : World) (goal : String) (path : Path) : Changed Unit :=
  let refuse (errno : Errno) : Changed Unit := (.error (.os (.refused errno (some goal) (some path.text))), world)
  match world.slot path .fileExists with
  | .error errno => refuse errno
  | .ok slot =>
    match slot.node with
    | some _ => refuse .fileExists
    | none => (.ok (), { world with root := world.root.put slot.location (.link goal) })

/-- The location at which a file is written: what the path leads to, or the free name at which it ends. -/
def writeLocation (world : World) (path : Path) : Except Errno Location :=
  match world.locateFrom linkMax path with
  | .ok place => if place.removed.isEmpty then .ok place.location else .error .isDirectory
  | .error errno => do
    if errno ≠ .noEntry then throw errno
    let slot ← world.slot path .isDirectory
    match slot.node with
    | some (.link target) =>
      world.root.vacancy linkMax (Node.targetStart target slot.parent) (Node.targetComponents target)
    | _ => .ok slot.location

/-- Writes a file, over what it held before. Where a link leads to a file that is not there, the file is made. -/
def writeFile (world : World) (path : Path) (data : Bytes) : Changed Unit :=
  let refuse (errno : Errno) : Changed Unit := (.error (.os (.refused errno (some path.text) none)), world)
  match world.writeLocation path with
  | .error errno => refuse errno
  | .ok location =>
    match world.root.get? location with
    | some (.dir _) => refuse .isDirectory
    | some .special => (.error (.os (.pipe path.text)), world)
    | _ => (.ok (), { world with root := world.root.put location (.file data) })

/-- Makes a directory and those above it that are missing; a directory that is already there is as good. The names
still to be made are counted, so that the way up ends. -/
def makeDirsUpTo : Nat → World → Path → Changed Unit
  | levels, world, path =>
    match world.makeDir path with
    | (.error (.os (.refused ⟨2⟩ shown other)), world) =>
      match levels with
      | 0 => (.error (.os (.refused ⟨2⟩ shown other)), world)
      | above + 1 =>
        match makeDirsUpTo above world path.parent with
        | (.error error, world) => (.error error, world)
        | (.ok (), world) => settle path (world.makeDir path)
    | result => settle path result
where
  settle (path : Path) : Changed Unit → Changed Unit
    | (.error (.os error), world) =>
      match world.isDir path with
      | .ok true => (.ok (), world)
      | .ok false => (.error (.os error), world)
      | .error other => (.error (.os other), world)
    | result => result

def makeDirs (world : World) (path : Path) : Changed Unit :=
  makeDirsUpTo path.parts.length world path

/-- Why the system refuses to put a node of one slot into another: a directory only takes the place of an empty one,
a directory does not go below itself, and nothing takes the place of a directory around it. -/
def moveRefusal (source target : Slot) (node : Node) : Option Errno :=
  let same := source.location = target.location
  if !same && source.location.isPrefixOf target.location then some .invalid
  else if !same && target.location.isPrefixOf source.location then some .notEmpty
  else
    match node, target.node with
    | _, none => none
    | .dir _, some (.dir entries) => if same || entries.isEmpty then none else some .notEmpty
    | .dir _, some _ => some .notDirectory
    | _, some (.dir _) => some .isDirectory
    | _, some _ => none

/-- The world after the node of a slot has gone to another slot; a working directory in it goes with it, and one that it
takes the place of is gone. -/
def transfer (world : World) (source target : Slot) (node : Node) : World :=
  if source.location = target.location then world
  else
    { world with
      root := (world.root.erase source.location).put target.location node
      workingDir := (world.workingDir.removedAt target.location).moved source.location target.location }

/-- Moves what a path names, links not followed, to another path, in one step and over what may be there. Both
directories are found before any name is looked up. -/
def rename (world : World) (source target : Path) : Changed Unit :=
  if source.hasNul || target.hasNul then (.error .nul, world)
  else
    let refuse (errno : Errno) : Changed Unit :=
      (.error (.os (.refused errno (some source.text) (some target.text))), world)
    match world.holder source, world.holder target with
    | .error errno, _ => refuse errno
    | .ok _, .error errno => refuse errno
    | .ok oldHolder, .ok newHolder =>
      if isNameless source || isNameless target then refuse .busy
      else
        match oldHolder.slot source .busy with
        | .error errno => refuse errno
        | .ok old =>
          match old.node, newHolder.slot target .busy with
          | none, _ => refuse .noEntry
          | some _, .error errno => refuse errno
          | some node, .ok new =>
            match moveRefusal old new node with
            | some errno => refuse errno
            | none => (.ok (), world.transfer old new node)

/-- Removes what stands at a location with all below it; a working directory in it is gone. -/
def removeAt (world : World) (location : Location) : World :=
  { world with root := world.root.erase location, workingDir := world.workingDir.removedAt location }

/-- Removes all that the directory at a place holds; a removed one holds nothing. -/
def clear (world : World) (place : Place) : World :=
  if place.removed.isEmpty then
    { world with
      root := world.root.put place.location (.dir [])
      workingDir := world.workingDir.clearedBelow place.location }
  else world

/-- Removes what a path names, links not followed, with all below it; where nothing is, nothing happens. -/
def remove (world : World) (path : Path) : World :=
  match world.slot path .busy with
  | .ok ⟨parent, name, some _⟩ => world.removeAt (parent ++ [name])
  | _ => world

/-- Puts a new node at a path, over what was there; missing directories above it are made. -/
def place (world : World) (path : Path) (node : Node) : World :=
  let world := (world.makeDirs path.parent).2.remove path
  match world.slot path .busy with
  | .ok slot => { world with root := world.root.put slot.location node }
  | .error _ => world

end World
end ClassDump
