import ClassDump.Text.Split

/-! Paths in normal form: an anchor and the names below it. Repeated slashes, single dots and a slash at the end leave no
trace; double dots stay, since what they mean depends on links. Two leading slashes are an anchor of their own, three and
more are one. In an absolute path, by the letter, a relative one is put below the working directory, and then double dots
take the name before them away without asking any link. A tilde at the start stands for a home directory. -/

namespace ClassDump

/-- Where a path starts: in the working directory, at the root, or at the root that is written with two slashes. -/
inductive Anchor where
  | here
  | root
  | doubleRoot
deriving DecidableEq, Repr

namespace Anchor

def text : Anchor → String
  | .here => ""
  | .root => "/"
  | .doubleRoot => "//"

/-- The anchor of a written path, by the number of its leading slashes. -/
def ofText (text : String) : Anchor :=
  match (text.toList.takeWhile (· = '/')).length with
  | 0 => .here
  | 2 => .doubleRoot
  | _ => .root

def isAbsolute (anchor : Anchor) : Bool :=
  anchor ≠ .here

end Anchor

/-- A path in normal form: where it starts and the names on the way, none of them empty or a single dot. -/
structure Path where
  anchor : Anchor
  parts : List String
deriving DecidableEq, Repr

namespace Path

/-- The component says something: it is neither empty nor a single dot. -/
def isProper (part : String) : Bool :=
  part ≠ "" && part ≠ "."

/-- The normal form of a written path. -/
def ofText (text : String) : Path :=
  ⟨Anchor.ofText text, (Text.splitAt '/' text).filter isProper⟩

/-- The written form of a path; the empty relative path is a single dot. -/
def text (path : Path) : String :=
  let written := path.anchor.text ++ "/".intercalate path.parts
  if written = "" then "." else written

def child (path : Path) (name : String) : Path :=
  { path with parts := path.parts ++ [name] }

/-- The path further down along the proper ones of some components. -/
def below (path : Path) (components : List String) : Path :=
  { path with parts := path.parts ++ components.filter isProper }

/-- The path without its last name; one without names is its own parent. -/
def parent (path : Path) : Path :=
  { path with parts := path.parts.dropLast }

def name (path : Path) : String :=
  path.parts.getLastD ""

/-- The ending of a name from its last dot on; a dot at either end of the name starts none. -/
def suffixOf (name : List Char) : List Char :=
  let reversed := name.reverse
  let ending := reversed.takeWhile (· ≠ '.')
  if ending.isEmpty ∨ name.length ≤ ending.length + 1 then [] else '.' :: ending.reverse

def suffix (path : Path) : String :=
  String.ofList (suffixOf path.name.toList)

/-- The path lies properly below the other. -/
def isBelow (path ancestor : Path) : Bool :=
  path.anchor = ancestor.anchor && ancestor.parts.isPrefixOf path.parts && path.parts ≠ ancestor.parts

/-- What leads from the ancestor down to the path, where the path's names start with the ancestor's. -/
def relativeTo? (path ancestor : Path) : Option Path :=
  if path.anchor = ancestor.anchor && ancestor.parts.isPrefixOf path.parts then
    some ⟨.here, path.parts.drop ancestor.parts.length⟩
  else none

def isAbsolute (path : Path) : Bool :=
  path.anchor.isAbsolute

def hasNul (path : Path) : Bool :=
  path.parts.any fun part => part.toList.contains '\x00'

def byteLength (path : Path) : Nat :=
  path.text.utf8ByteSize

@[simp] theorem parts_child (path : Path) (name : String) :
    (path.child name).parts = path.parts ++ [name] := rfl

@[simp] theorem anchor_child (path : Path) (name : String) : (path.child name).anchor = path.anchor := rfl

theorem relativeTo?_below (path : Path) (components : List String) :
    (path.below components).relativeTo? path = some ⟨.here, components.filter isProper⟩ := by
  simp [relativeTo?, below]

end Path

/-- The refusal to express one path relative to another. -/
structure NotBelow where
  path : Path
  ancestor : Path
deriving DecidableEq, Repr

end ClassDump

namespace ClassDump.Path

/-- The names of an absolute path after one more component: a double dot takes the last one away, and at the root it
changes nothing. -/
def step (names : List String) (component : String) : List String :=
  if component = ".." then names.dropLast else names ++ [component]

/-- The names left when double dots take the name before them away. -/
def collapse (components : List String) : List String :=
  components.foldl step []

/-- The path from the root, without double dots, by the working directory. -/
def absolute (workingDir : List String) (path : Path) : Path :=
  match path.anchor with
  | .here => ⟨.root, collapse (workingDir ++ path.parts)⟩
  | anchor => ⟨anchor, collapse path.parts⟩

/-- The text of a path without the slashes at its end. -/
def dropEndSlashes (text : List Char) : List Char :=
  (text.reverse.dropWhile (· = '/')).reverse

/-- A leading tilde, alone or with the name of an account, gives way to that home directory; an account without one
is left as it stands. -/
def expandHome (home : String) (accounts : List (String × String)) (text : String) : String :=
  match text.toList with
  | '~' :: rest =>
    let account := String.ofList (rest.takeWhile (· ≠ '/'))
    let found := if account = "" then some home else accounts.lookup account
    match found with
    | none => text
    | some directory =>
      let expanded := dropEndSlashes directory.toList ++ rest.dropWhile (· ≠ '/')
      if expanded.isEmpty then "/" else String.ofList expanded
  | _ => text

/-- The home directories in a table of accounts, whose lines have the name first and the home directory sixth, with
colons between. -/
def homesOf (table : String) : List (String × String) :=
  (Text.splitAt '\n' table).filterMap fun line =>
    match Text.splitAt ':' line with
    | name :: _ :: _ :: _ :: _ :: home :: _ => some (name, home)
    | _ => none

end ClassDump.Path
