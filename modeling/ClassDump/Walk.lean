import ClassDump.Store.RealPath

/-! Walking a directory tree. Every entry that is not a directory is handed to a visitor, the names of a directory in
ascending order and before what lies in its directories. The listing of a directory is taken when it is entered, so
the visitor may change the tree while the walk goes on. A path that is too long cannot be listed, which bounds the
depth of every walk. -/

namespace ClassDump

inductive VisitAction where
  | proceed
  | terminate
deriving DecidableEq, Repr

/-- What stops a walk: an error of the system, a NUL in the root, or an error of the visitor's own. -/
inductive Raised (ε : Type) where
  | os (error : OsError)
  | nul
  | own (error : ε)
deriving DecidableEq, Repr

/-- A visitor with a state of its own, which contains the world that is walked. `log` takes a record of the walk, and
`onError`, where there is one, a directory that cannot be listed or a visit that met an error of the system. -/
structure Visitor (σ ε : Type) where
  world : σ → World
  log : String → σ → σ
  visit : Path → σ → Except (Raised ε) VisitAction × σ
  onError : Option (Path → OsError → σ → σ)
  followLinks : Bool := false

namespace Walk

/-- The state of a walk: the visitor's, and the number of entries handed to it. -/
structure State (σ : Type) where
  inner : σ
  visited : Nat

/-- How a part of a walk ended. -/
inductive Flow (ε : Type) where
  | onward
  | ended
  | stopped (raised : Raised ε)
deriving DecidableEq, Repr

/-- A directory on the walk: its path as it is written for the system, and its path in normal form. -/
structure Place where
  text : String
  path : Path
deriving DecidableEq, Repr

def Place.child (place : Place) (name : String) : Place :=
  ⟨if Text.endsWith place.text "/" then place.text ++ name else place.text ++ "/" ++ name, place.path.child name⟩

def Place.ofPath (path : Path) : Place :=
  ⟨path.text, path⟩

variable {σ ε : Type}

/-- Does the steps for the items of a list in turn until one does not go on. -/
def each {α : Type} (step : α → State σ → Flow ε × State σ) : List α → State σ → Flow ε × State σ
  | [], state => (.onward, state)
  | item :: rest, state =>
    match step item state with
    | (.onward, state) => each step rest state
    | result => result

/-- Hands one entry to the visitor. An error of the system goes to the handler, if there is one. -/
def hand (visitor : Visitor σ ε) (root path : Path) (state : State σ) : Flow ε × State σ :=
  let count := state.visited + 1
  match visitor.visit path state.inner with
  | (.ok .proceed, inner) => (.onward, ⟨inner, count⟩)
  | (.ok .terminate, inner) =>
    (.ended, ⟨visitor.log ("Walk of " ++ root.text ++ " terminated at " ++ path.text) inner, count⟩)
  | (.error (.os error), inner) =>
    match visitor.onError with
    | some handle => (.onward, ⟨handle path error inner, count⟩)
    | none => (.stopped (.os error), ⟨inner, count⟩)
  | (.error raised, inner) => (.stopped raised, ⟨inner, count⟩)

/-- The state after a directory could not be listed: the failure goes to the handler, or else into the log. -/
def listingFailed (visitor : Visitor σ ε) (path : Path) (error : OsError) (state : State σ) : State σ :=
  match visitor.onError with
  | some handle => { state with inner := handle path error state.inner }
  | none =>
    { state with
      inner := visitor.log ("Skipping unreadable directory " ++ path.text ++ ": " ++ error.message) state.inner }

/-- The names of the listed entries that satisfy a condition, in ascending order. -/
def namesWhere (condition : World.Listed → Bool) (listed : List World.Listed) : List String :=
  ((listed.filter condition).map (·.name)).mergeSort

/-- Enters a directory: hands over its entries and then enters its directories, so many levels down at most. A link to
a directory is entered only where links are followed. -/
def enter (visitor : Visitor σ ε) (root : Path) : Nat → Place → State σ → Flow ε × State σ
  | levels, place, state =>
    match (visitor.world state.inner).list place.text place.path with
    | .error error => (.onward, listingFailed visitor place.path error state)
    | .ok listed =>
      match each (fun name => hand visitor root (place.path.child name)) (namesWhere (!·.isDir) listed) state with
      | (.onward, state) =>
        match levels with
        | 0 => (.onward, state)
        | below + 1 =>
          each
            (fun name state =>
              if !visitor.followLinks && (visitor.world state.inner).isLink (place.path.child name) then
                (.onward, state)
              else enter visitor root below (place.child name) state)
            (namesWhere (·.isDir) listed) state
      | result => result

/-- Walks the tree below a root and counts the entries handed to the visitor. Every level makes the written path
longer, so no directory lies deeper than a path may be long. -/
def run (visitor : Visitor σ ε) (root : Path) (inner : σ) : Except (Raised ε) Nat × σ :=
  if root.hasNul then (.error .nul, inner)
  else
    match enter visitor root pathMax (Place.ofPath root) ⟨inner, 0⟩ with
    | (.stopped raised, state) => (.error raised, state.inner)
    | (_, state) => (.ok state.visited, state.inner)

end Walk
end ClassDump
