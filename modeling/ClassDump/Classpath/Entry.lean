import ClassDump.Classpath.Value
import ClassDump.Failure
import ClassDump.Text.Blank

/-! Classpath entries as they are configured, and their conversion to absolute paths. In one text, the pieces between the
separators are the entries, without the blanks around them; blank pieces are none. A home directory in front is filled in
and double dots are taken away by the letter. Of the paths, those that name directories are roots: they are scanned for
classes, the others only looked up in. -/

namespace ClassDump.Classpath

def items (pieces : List String) : List String :=
  (pieces.filter fun piece => !Text.allBlank piece).map Text.trim

def split (text : String) : List String :=
  items (Text.splitAt ',' text)

/-- The entries of a classpath with a separator of one's own, which must not be empty unless the classpath is. -/
def splitBy (separator text : String) : Except Failure (List String) :=
  if text = "" then .ok []
  else if separator = "" then .error .emptySeparator
  else .ok (items (Text.split separator text))

/-- The entries of several classpaths with commas, one after the other. -/
def splitAll (texts : List String) : List String :=
  texts.flatMap split

/-- A classpath entry as it is configured. An `object` stands for a path: it has the text that it is shown with and the
path as it writes it, unless it writes it in bytes. Bytes by themselves are not taken for a path. -/
inductive Entry where
  | text (text : String)
  | path (path : Path)
  | object (shown : String) (written : Option String)
  | bytes (data : Bytes)
  | value (value : Value)

/-- The absolute path of a written one, with `shown` for messages about it. -/
def absoluteOf (world : World) (text shown : String) : Except Failure Path :=
  if Text.allBlank text then .error (.configuration (.entryBlank shown))
  else if text.toList.contains '\x00' then .error (.configuration (.entryNul text))
  else
    match world.absolute (Path.ofText (Path.expandHome world.home world.accounts text)) with
    | .ok path => .ok path
    | .error error => .error (.configuration (.entryNotAbsolute text error))

def resolveEntry (world : World) : Entry → Except Failure Path
  | .text text => absoluteOf world text (Text.quote text)
  | .path path => absoluteOf world path.text ("PosixPath(" ++ Text.quote path.text ++ ")")
  | .object shown (some text) => absoluteOf world text shown
  | .object shown none => .error (.configuration (.entryBlank shown))
  | .bytes data => .error (.configuration (.entryNotPath (Text.quoteBytes data)))
  | .value value => .error (.configuration (.entryNotPath value.shown))

/-- The absolute paths of entries, in their order; the first unusable entry is an error. -/
def resolveEntries (world : World) (entries : List Entry) : Except Failure (List Path) :=
  entries.mapM (resolveEntry world)

/-- A local directory of classes, with its place on the classpath. -/
structure Root where
  path : Path
  index : Nat
deriving DecidableEq, Repr

/-- Those of the paths, counted from `index`, that name directories. -/
def rootsFrom : Nat → List Path → World → Except Failure (List Root) × World
  | _, [], world => (.ok [], world)
  | index, path :: rest, world =>
    match world.isDir path with
    | .error error => (.error (.ofOs error), world)
    | .ok true =>
      match rootsFrom (index + 1) rest world with
      | (.ok roots, world) => (.ok (⟨path, index⟩ :: roots), world)
      | failed => failed
    | .ok false =>
      rootsFrom (index + 1) rest
        (world.log .debug .classpath ("Not a local class directory, skipping for reference scan: " ++ path.text))

def resolveRoots (world : World) (entries : List Entry) : Except Failure (List Root) × World :=
  match resolveEntries world entries with
  | .error error => (.error error, world)
  | .ok paths =>
    match rootsFrom 0 paths world with
    | (.error error, world) => (.error error, world)
    | (.ok roots, world) =>
      (.ok roots,
        world.log .debug .classpath ("Local classes: " ++ Text.quoteList (roots.map fun root => root.path.text)))

end ClassDump.Classpath
