import ClassDump.Store.Change

/-! Setting files aside. A file goes to the same relative path in the exclusion tree, with the directories it needs, and
nothing there is ever overwritten. The root of the exclusion tree is made anew, so that no two runs share one. -/

namespace ClassDump

namespace World

/-- The two paths lead to one and the same thing. -/
def sameThing (world : World) (first second : Path) : Bool :=
  match world.locateFrom linkMax first, world.locateFrom linkMax second with
  | .ok place, .ok other => place = other
  | _, _ => false

/-- By the letter of the absolute forms, the second path is the first or lies below it. -/
def surrounds (world : World) (outer inner : Path) : Except OsError Bool := do
  let outer := (← world.absolute outer).text
  let inner := (← world.absolute inner).text
  let closed (text : String) := if Text.endsWith text "/" then text else text ++ "/"
  return Text.startsWith (closed inner) (closed outer)

/-- Why the system refuses to remove a directory by a path without a name. -/
def namelessRefusal (world : World) (path : Path) : Errno :=
  match world.locateParent path with
  | .error errno => errno
  | .ok _ => if path.name = ".." then .notEmpty else if path.isAbsolute then .busy else .invalid

/-- Removes a directory with all that it holds. A path without a name has its directory emptied, and then the system
refuses to remove it. -/
def removeTree (world : World) (path : Path) : Changed Unit :=
  if isNameless path then
    let refuse (errno : Errno) (world : World) : Changed Unit :=
      (.error (.os (.refused errno (some path.text) none)), world)
    match world.locateFrom linkMax path with
    | .error errno => refuse errno world
    | .ok place =>
      let emptied := world.clear place
      refuse (emptied.namelessRefusal path) emptied
  else (.ok (), world.remove path)

/-- Copies a directory, which is not to be moved into `given`, to a free path and removes it. -/
def copyTree (world : World) (source target given : Path) : Changed Unit :=
  match world.surrounds source given, world.list source.text source, world.stat source with
  | .error error, _, _ => (.error (.os error), world)
  | .ok true, _, _ => (.error (.os (.moveIntoItself source.text given.text)), world)
  | .ok false, .error error, _ => (.error (.os error), world)
  | .ok false, .ok _, .error errno => (.error (.os (.refused errno (some source.text) none)), world)
  | .ok false, .ok _, .ok node =>
    match world.makeDir target with
    | (.error error, world) => (.error error, world)
    | (.ok (), world) => (world.place target node).removeTree source

/-- Copies a file, with links followed. -/
def copyFile (world : World) (source target : Path) : Changed Unit :=
  if world.sameThing source target then (.error (.os (.sameFile source.text target.text)), world)
  else
    match world.stat source with
    | .ok (.file data) => world.writeFile target data
    | .ok .special => (.error (.os (.pipe source.text)), world)
    | .ok _ => (.error (.os (.refused .isDirectory (some source.text) none)), world)
    | .error errno => (.error (.os (.refused errno (some source.text) none)), world)

/-- Removes what was copied, once the copying has succeeded. -/
def removing (source : Path) : Changed Unit → Changed Unit
  | (.ok (), copied) => (.ok (), copied.remove source)
  | failed => failed

/-- Moves what a path names, to a path that names no directory, by copying it and removing it then: a link as a link, a
directory with all that it holds. -/
def copyAndRemove (world : World) (source target given : Path) : Changed Unit :=
  match world.lstat source, world.isDir source with
  | .ok (.link goal), _ => removing source (world.makeLink goal target)
  | _, .ok true => world.copyTree source target given
  | _, _ => removing source (world.copyFile source target)

/-- A move would lead to another device; that is found out once both directories are found. -/
def crosses (world : World) (source target : Path) : Bool :=
  world.faults.apart.contains source.text && !source.hasNul && !target.hasNul && (world.holder source).isOk &&
    (world.holder target).isOk

/-- Moves in one step within one device. -/
def renameWithin (world : World) (source target : Path) : Changed Unit :=
  if world.crosses source target then
    (.error (.os (.refused .crossDevice (some source.text) (some target.text))), world)
  else world.rename source target

/-- Moves what a path names to another device, for which `given` was named: in one step, or where that is refused by
copying and removing. -/
def copyOver (world : World) (source target given : Path) : Changed Unit :=
  match world.renameWithin source target with
  | (.error (.os (.refused _ _ _)), _) => world.copyAndRemove source target given
  | result => result

/-- Moves to another device, and into the target where that is a directory by now. -/
def moveAcross (world : World) (source target : Path) : Changed Unit :=
  let taken (path : String) : Changed Unit := (.error (.os (.destinationTaken path)), world)
  match world.isDir target with
  | .ok true =>
    if world.sameThing source target then world.renameWithin source target
    else if isNameless source then taken (target.text ++ "/" ++ (Text.splitAt '/' source.text).getLastD "")
    else
      let inner := target.child source.name
      match world.pathExists inner with
      | .ok true => taken inner.text
      | _ => world.copyOver source inner target
  | _ => world.copyOver source target target

/-- Moves what a path names to a free path, on the same device or another. -/
def moveAside (world : World) (source target : Path) : Changed Unit :=
  match world.faults.move.lookup source.text with
  | none => if world.crosses source target then world.moveAcross source target else world.rename source target
  | some errno =>
    if errno = .crossDevice then world.moveAcross source target
    else (.error (.os (.refused errno none none)), world)

end World

namespace Relocation

/-- Makes the root of an exclusion tree, which must not be there yet, in a directory that is. -/
def createRoot (world : World) (exclusion : Path) : World.Changed Unit :=
  match world.makeDir exclusion with
  | (.ok (), world) => (.ok (), world.report (.changed (.made exclusion)))
  | failed => failed

/-- The path in the exclusion tree for a relative path. -/
def targetOf (exclusion : Path) (relative : String) : Path :=
  exclusion.below (Text.splitAt '/' relative)

/-- Moves a file to its relative path in the exclusion tree and answers with the new path. -/
def relocate (world : World) (source : Path) (relative : String) (exclusion : Path) : World.Changed Path :=
  let target := targetOf exclusion relative
  match world.pathExists source, world.pathExists target with
  | .error error, _ => (.error (.os error), world)
  | .ok false, _ => (.error (.os (.sourceMissing source.text)), world)
  | .ok true, .error error => (.error (.os error), world)
  | .ok true, .ok true => (.error (.os (.targetExists target.text)), world)
  | .ok true, .ok false =>
    match world.makeDirs target.parent with
    | (.error error, world) => (.error error, world)
    | (.ok (), world) =>
      match world.moveAside source target with
      | (.error error, world) => (.error error, world)
      | (.ok (), world) => (.ok target, world.report (.changed (.moved source target)))

end Relocation
end ClassDump
