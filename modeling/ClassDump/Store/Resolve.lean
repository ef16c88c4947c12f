import ClassDump.Path
import ClassDump.Store.Errno
import ClassDump.Store.Node

/-! How the system finds what a path names: component by component, through directories, with every symbolic link on
the way replaced by its target, forty links at most. The location found is physical: it leads down from the root
through directories only. A run may stand in a directory that was removed, from which only double dots lead on. -/

namespace ClassDump

/-- The most symbolic links that one look-up follows. -/
def linkMax : Nat := 40

def nameMax : Nat := 255

/-- A written path of this many bytes or more is refused. -/
def pathMax : Nat := 4096

namespace Node

/-- The components of a link's target. A slash at the end asks for a directory, as a single dot does. -/
def targetComponents (target : String) : List String :=
  let components := (Text.splitAt '/' target).filter (· ≠ "")
  if Text.endsWith target "/" then components ++ ["."] else components

/-- The directory at which a link's target starts: the root, or the one that the link stands in. -/
def targetStart (target : String) (here : Location) : Location :=
  if Text.startsWith target "/" then [] else here

/-- Follows the components from a location on. Where a link stands in the way, `expand` goes on from the start of its
target along the target's components and the remaining ones. -/
def follow (root : Node) (expand : Location → List String → Except Errno Location) :
    Location → List String → Except Errno Location
  | here, [] => .ok here
  | here, component :: rest =>
    match root.get? here with
    | none => .error .noEntry
    | some (.file _) => .error .notDirectory
    | some (.link _) => .error .notDirectory
    | some .special => .error .notDirectory
    | some (.dir entries) =>
      if component = "." then follow root expand here rest
      else if component = ".." then follow root expand here.dropLast rest
      else if nameMax < component.utf8ByteSize then .error .nameTooLong
      else
        match entries.lookup component with
        | none => .error .noEntry
        | some (.link target) => expand (targetStart target here) (targetComponents target ++ rest)
        | some _ => follow root expand (here ++ [component]) rest

/-- The location that components lead to from another, over so many links at most. -/
def locate (root : Node) : Nat → Location → List String → Except Errno Location
  | 0 => follow root fun _ _ => .error .tooManyLinks
  | links + 1 => follow root (locate root links)

/-- The location of the free name that components end at where they lead to nothing: their own last name, or the one that
the link of that name ends at, over so many links at most. -/
def vacancy (root : Node) : Nat → Location → List String → Except Errno Location
  | 0, _, _ => .error .tooManyLinks
  | links + 1, here, components => do
    let parent ← root.locate linkMax here components.dropLast
    let name := components.getLastD ""
    if !Path.isProper name || name = ".." then throw .isDirectory
    match root.get? parent with
    | some (.dir entries) =>
      match entries.lookup name with
      | some (.link target) => vacancy root links (targetStart target parent) (targetComponents target)
      | _ => return parent ++ [name]
    | _ => throw .notDirectory

end Node

/-- A directory that a run stands in or has found, even one that was removed under its feet: the nearest directory above
that is still there, and the names that led on from it. A removed directory is empty and stays so. -/
structure Place where
  location : Location
  removed : List String := []
deriving DecidableEq, Repr

namespace Place

def node? (root : Node) (place : Place) : Option Node :=
  if place.removed.isEmpty then root.get? place.location else some (.dir [])

/-- The place that components lead to from another, over so many links at most. From a removed directory they only lead
up. -/
def locate (root : Node) (links : Nat) : Place → List String → Except Errno Place
  | ⟨location, []⟩, components => (⟨·, []⟩) <$> root.locate links location components
  | place, [] => .ok place
  | ⟨location, removed⟩, ".." :: rest => locate root links ⟨location, removed.dropLast⟩ rest
  | _, _ :: _ => .error .noEntry

/-- The place after all that lies below a location was removed. -/
def clearedBelow (kept : Location) (place : Place) : Place :=
  if kept.isPrefixOf place.location then
    ⟨kept, place.location.drop kept.length ++ place.removed⟩
  else place

/-- The place after what was at a location was removed. -/
def removedAt (location : Location) (place : Place) : Place :=
  if location.isPrefixOf place.location then place.clearedBelow location.dropLast else place

/-- The place after what was at one location went to another. -/
def moved (source target : Location) (place : Place) : Place :=
  if source.isPrefixOf place.location then
    { place with location := target ++ place.location.drop source.length }
  else place

end Place
end ClassDump
