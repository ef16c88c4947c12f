import ClassDump.Store.World

/-! The real path behind a path: absolute, with links replaced by their targets as far as they can be found. What is
missing on the way is kept as written, and a double dot after it takes it away. Links that lead in a circle are
left in place; the system's answer to the path that remains tells whether this is an error. -/

namespace ClassDump

inductive FileError where
  | os (error : OsError)
  | nul
  | linkLoop (path : String)
deriving DecidableEq, Repr

namespace FileError

def message : FileError → String
  | .os error => error.message
  | .nul => "embedded null byte"
  | .linkLoop path => "Symlink loop from " ++ Text.quote path

end FileError

namespace RealPath

/-- The links met so far, each with what it resolved to, or with nothing while that is being found out. -/
abbrev Seen := List (Path × Option Path)

/-- A path with its links replaced as far as possible, and whether no circle of links was met. -/
structure Outcome where
  path : Path
  complete : Bool
  seen : Seen

/-- The path one level up, by the letter; above a relative path that has no more names, double dots pile up. -/
def up (path : Path) : Path :=
  match path.parts.getLast?, path.anchor with
  | none, .here => path.child ".."
  | some "..", _ => path.child ".."
  | _, _ => path.parent

/-- The path followed by components as they were written; a slash in front of them starts again at the root. -/
def followedBy (path : Path) (rest : List String) : Path :=
  let text := "/".intercalate rest
  if Text.startsWith text "/" then Path.ofText text else path.below rest

/-- Goes down along written components from a path whose links are replaced. A link's target is pursued by `expand`. -/
def pursue (world : World) (expand : Path → List String → Seen → Outcome) :
    List String → Path → Seen → Outcome
  | [], path, seen => ⟨path, true, seen⟩
  | component :: rest, path, seen =>
    if !Path.isProper component then pursue world expand rest path seen
    else if component = ".." then pursue world expand rest (up path) seen
    else
      let next := path.child component
      match world.lstat next with
      | .ok (.link target) =>
        match seen.lookup next with
        | some (some known) => pursue world expand rest known seen
        | some none => ⟨followedBy next rest, false, seen⟩
        | none =>
          let start := if Text.startsWith target "/" then ⟨.root, []⟩ else path
          let found := expand start (Text.splitAt '/' target) ((next, none) :: seen)
          if found.complete then pursue world expand rest found.path ((next, some found.path) :: found.seen)
          else ⟨followedBy found.path rest, false, found.seen⟩
      | _ => pursue world expand rest next seen

/-- Pursues components through links nested so deep at most; one more counts as a circle. -/
def pursueNested (world : World) : Nat → Path → List String → Seen → Outcome
  | 0, path, components, seen => ⟨followedBy path components, false, seen⟩
  | depth + 1, path, components, seen => pursue world (pursueNested world depth) components path seen

/-- The deepest nesting of links that is pursued. -/
def nestingMax : Nat := 1000

end RealPath

namespace World

def resolve (world : World) (path : Path) : Except FileError Path :=
  if path.hasNul then .error .nul
  else
    let start : Path := if path.isAbsolute then ⟨.root, []⟩ else ⟨.here, []⟩
    let found := RealPath.pursueNested world RealPath.nestingMax start path.parts []
    match world.absolute found.path with
    | .error error => .error (.os error)
    | .ok real =>
      match world.stat real with
      | .error errno => if errno = .tooManyLinks then .error (.linkLoop real.text) else .ok real
      | .ok _ => .ok real

end World
end ClassDump
