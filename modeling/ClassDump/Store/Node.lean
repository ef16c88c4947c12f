import ClassDump.Bytes

/-! The tree of files: a directory has named entries, a file has contents, a symbolic link has a target. Of other
things, such as pipes and devices, only that they are there counts. A location is the list of names that leads down
from the root, through directories only. -/

namespace ClassDump

/-- A file, a symbolic link with the path that it stands for, a directory, or a special file: a pipe, a socket or a
device. Of entries of a directory with one name, the first counts. -/
inductive Node where
  | file (data : Bytes)
  | link (target : String)
  | dir (entries : List (String × Node))
  | special
deriving Inhabited

/-- The names from the root down to a node. -/
abbrev Location := List String

namespace Node

def isDir : Node → Bool
  | .dir _ => true
  | _ => false

def isFile : Node → Bool
  | .file _ => true
  | _ => false

def isLink : Node → Bool
  | .link _ => true
  | _ => false

def isSpecial : Node → Bool
  | .special => true
  | _ => false

/-- The entries of a list with each name's first entry only. -/
def distinct : List (String × Node) → List (String × Node)
  | [] => []
  | entry :: rest => entry :: (distinct rest).filter fun other => other.1 ≠ entry.1

/-- The entries of a directory, each name once. -/
def children : Node → List (String × Node)
  | .dir entries => distinct entries
  | _ => []

def get? : Node → Location → Option Node
  | node, [] => some node
  | .dir entries, name :: rest =>
    match entries.lookup name with
    | some node => node.get? rest
    | none => none
  | _, _ :: _ => none

/-- The entries with a name bound anew, or without it. -/
def assign (name : String) (node : Option Node) (entries : List (String × Node)) : List (String × Node) :=
  let others := entries.filter fun entry => entry.1 ≠ name
  match node with
  | some node => (name, node) :: others
  | none => others

/-- What stands at a location is replaced by its image; where the way there does not lead through directories, all
stays as it is. -/
def alter (change : Option Node → Option Node) : Option Node → Location → Option Node
  | node, [] => change node
  | some (.dir entries), name :: rest =>
    some (.dir (assign name (alter change (entries.lookup name) rest) entries))
  | node, _ :: _ => node

def put (root : Node) (location : Location) (node : Node) : Node :=
  (alter (fun _ => some node) (some root) location).getD root

def erase (root : Node) (location : Location) : Node :=
  (alter (fun _ => none) (some root) location).getD root

mutual

/-- All locations in a tree, with what stands there. -/
def flatten (above : Location) : Node → List (Location × Node)
  | .dir entries => (above, .dir entries) :: flattenEntries above entries
  | node => [(above, node)]

/-- All locations below the entries of a directory. -/
def flattenEntries (above : Location) : List (String × Node) → List (Location × Node)
  | [] => []
  | (name, node) :: rest => node.flatten (above ++ [name]) ++ flattenEntries above rest

end

@[simp] theorem get?_nil (node : Node) : node.get? [] = some node := by
  cases node <;> rfl

theorem lookup_assign_self (name : String) (node : Option Node) (entries : List (String × Node)) :
    (assign name node entries).lookup name = node := by
  have hnone : (entries.filter fun entry => entry.1 ≠ name).lookup name = none := by
    induction entries with
    | nil => rfl
    | cons entry rest ih =>
      obtain ⟨other, found⟩ := entry
      by_cases h : other = name
      · simpa [List.filter, h] using ih
      · have h' : (name == other) = false := by simpa using fun e => h e.symm
        simpa [List.filter, h, List.lookup_cons, h'] using ih
  cases node with
  | none => simpa [assign] using hnone
  | some node => simp [assign]

theorem lookup_assign_of_ne {name other : String} (h : other ≠ name) (node : Option Node)
    (entries : List (String × Node)) : (assign name node entries).lookup other = entries.lookup other := by
  have hrest : (entries.filter fun entry => entry.1 ≠ name).lookup other = entries.lookup other := by
    induction entries with
    | nil => rfl
    | cons entry rest ih =>
      obtain ⟨first, found⟩ := entry
      by_cases hf : first = name
      · have h' : (other == first) = false := by simpa [hf] using h
        simpa [List.filter, hf, List.lookup_cons, h', hf ▸ h'] using ih
      · by_cases ho : other = first
        · simp [List.filter, hf, ho]
        · have h' : (other == first) = false := by simpa using ho
          simpa [List.filter, hf, List.lookup_cons, h'] using ih
  have hne : (other == name) = false := by simpa using h
  cases node with
  | none => simpa [assign] using hrest
  | some node => simpa [assign, List.lookup_cons, hne] using hrest

end Node
end ClassDump
