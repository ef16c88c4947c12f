import ClassDump.ClassKey

/-! The set of class keys that must survive pruning. It keeps its keys in ascending order of code points, each
once, so that equal sets are equal values. -/

namespace ClassDump

/-- A finite set of class keys, in ascending order. -/
structure ReferenceSet where
  keys : List String
deriving DecidableEq, Repr

namespace ReferenceSet

/-- The place of a key in an ascending list that does not have it yet. -/
def insertSorted (key : String) : List String → List String
  | [] => [key]
  | head :: rest =>
    if key = head then head :: rest
    else if key < head then key :: head :: rest
    else head :: insertSorted key rest

def empty : ReferenceSet := ⟨[]⟩

def insert (set : ReferenceSet) (key : String) : ReferenceSet :=
  ⟨insertSorted key set.keys⟩

def ofList (keys : List String) : ReferenceSet :=
  keys.foldl insert empty

def contains (set : ReferenceSet) (key : String) : Bool :=
  set.keys.contains key

def size (set : ReferenceSet) : Nat :=
  set.keys.length

def isEmpty (set : ReferenceSet) : Bool :=
  set.keys.isEmpty

def shown (set : ReferenceSet) : String :=
  s!"<ReferenceSet size={set.size}>"

theorem mem_insertSorted {key other : String} {keys : List String} :
    other ∈ insertSorted key keys ↔ other = key ∨ other ∈ keys := by
  induction keys with
  | nil => simp [insertSorted]
  | cons head rest ih =>
    rw [insertSorted]
    split
    · next h => subst h; simp
    · split
      · simp
      · simp [ih, or_left_comm]

@[simp] theorem mem_keys_insert {set : ReferenceSet} {key other : String} :
    other ∈ (set.insert key).keys ↔ other = key ∨ other ∈ set.keys :=
  mem_insertSorted

end ReferenceSet
end ClassDump
