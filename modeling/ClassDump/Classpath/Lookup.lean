import ClassDump.Archive.Member
import ClassDump.Failure

/-! Looking up the bytes of a class along the classpath: the first entry that has the name answers. A directory answers
with the file that it has now, an archive with the contents that it had when it was first needed. -/

namespace ClassDump.Classpath

/-- A look-up along a classpath, with the archives that were needed so far; one that could not be opened is none from
then on. -/
structure Lookup where
  entries : List Path
  archives : List (Path × Option Archive) := []
  closed : Bool := false

namespace Lookup

def along (entries : List Path) : Lookup :=
  { entries := entries }

/-- An operation of a look-up answers with the look-up and the world after it. -/
abbrev Answer (α : Type) := Except Failure α × Lookup × World

/-- The name of the path ends as that of an archive, in letters of either case. -/
def isArchiveName (path : Path) : Bool :=
  let suffix := path.suffix.toList.map Char.toLower
  suffix = ".jar".toList || suffix = ".zip".toList

/-- The archive that the contents of the file at a path make, unless the system refuses to open it. -/
def openFile (path : Path) (data : Bytes) (world : World) : Except Archive.Error Archive :=
  match world.faults.opening.lookup path.text with
  | some errno => .error (.os (.refused errno (some path.text) none))
  | none => Archive.open data

/-- The archive opened from a file's contents; contents that are none, or that the system refuses, are logged and
answer with nothing. -/
def openData (path : Path) (data : Bytes) (world : World) : Except Failure (Option Archive) × World :=
  let ignore (message : String) : Except Failure (Option Archive) × World :=
    (.ok none,
      world.log .debug .lookup ("Ignoring unreadable archive on classpath " ++ path.text ++ ": " ++ message))
  match openFile path data world with
  | .ok archive => (.ok (some archive), world)
  | .error (.malformed reason) => ignore reason.message
  | .error (.os error) => ignore error.message
  | .error error => (.error (.archive error), world)

/-- The archive at a path, opened now or before. -/
def archiveAt (lookup : Lookup) (world : World) (path : Path) : Answer (Option Archive) :=
  match lookup.archives.lookup path with
  | some known => (.ok known, lookup, world)
  | none =>
    let (opened, world) : Except Failure (Option Archive) × World :=
      match world.isFile path, world.stat path with
      | .error error, _ => (.error (.ofOs error), world)
      | .ok true, .ok (.file data) => openData path data world
      | _, _ => (.ok none, world)
    match opened with
    | .error error => (.error error, lookup, world)
    | .ok archive => (.ok archive, { lookup with archives := lookup.archives ++ [(path, archive)] }, world)

/-- The answer of the first of the entries that has the resource. -/
def readFrom (resource : String) : List Path → Lookup → World → Answer (Option Bytes)
  | [], lookup, world => (.ok none, lookup, world)
  | entry :: rest, lookup, world =>
    match world.isDir entry with
    | .error error => (.error (.ofOs error), lookup, world)
    | .ok true =>
      let candidate := entry.below (Text.splitAt '/' resource)
      match world.isFile candidate with
      | .error error => (.error (.ofOs error), lookup, world)
      | .ok false => readFrom resource rest lookup world
      | .ok true =>
        match world.readFile candidate with
        | .error error => (.error (.ofOs error), lookup, world)
        | .ok data => (.ok (some data), lookup, world)
    | .ok false =>
      if isArchiveName entry then
        match lookup.archiveAt world entry with
        | (.error error, lookup, world) => (.error error, lookup, world)
        | (.ok none, lookup, world) => readFrom resource rest lookup world
        | (.ok (some archive), lookup, world) =>
          match archive.read resource with
          | .error error => (.error (.archive error), lookup, world)
          | .ok none => readFrom resource rest lookup world
          | .ok (some data) => (.ok (some data), lookup, world)
      else readFrom resource rest lookup world

def readResource (lookup : Lookup) (world : World) (resource : String) : Answer (Option Bytes) :=
  if lookup.closed then (.error .lookupClosed, lookup, world)
  else readFrom resource lookup.entries lookup world

def read (lookup : Lookup) (world : World) (binaryName : String) : Answer (Option Bytes) :=
  lookup.readResource world (resourceName binaryName)

/-- The look-up without its archives; it answers no more. -/
def close (lookup : Lookup) : Lookup :=
  { lookup with archives := [], closed := true }

end Lookup
end ClassDump.Classpath
