import ClassDump.Path

/-! Paths further down. Names after a path lead on from it, and a path is no longer than those further down. -/

namespace ClassDump

def Path.descend (path : Path) (names : List String) : Path :=
  { path with parts := path.parts ++ names }

namespace Path

@[simp] theorem descend_nil (path : Path) : path.descend [] = path := by simp [descend]

theorem descend_append (path : Path) (names others : List String) :
    path.descend (names ++ others) = (path.descend names).descend others := by simp [descend]

theorem descend_injective (path : Path) {names others : List String} (h : path.descend names = path.descend others) :
    names = others :=
  List.append_cancel_left (congrArg Path.parts h)

theorem child_eq_descend (path : Path) (name : String) : path.child name = path.descend [name] := rfl

@[simp] theorem anchor_descend (path : Path) (names : List String) : (path.descend names).anchor = path.anchor := rfl

@[simp] theorem parts_descend (path : Path) (names : List String) :
    (path.descend names).parts = path.parts ++ names := rfl

@[simp] theorem name_child (path : Path) (name : String) : (path.child name).name = name := by
  simp [Path.name]

@[simp] theorem parent_child (path : Path) (name : String) : (path.child name).parent = path := by
  simp [Path.parent]

theorem byteLength_eq_max (path : Path) :
    path.byteLength = max 1 (path.anchor.text ++ "/".intercalate path.parts).utf8ByteSize := by
  rw [byteLength, text]
  split
  · next hempty =>
    rw [hempty]
    rfl
  · next hne =>
    rw [← String.utf8ByteSize_eq_zero_iff] at hne
    omega

theorem utf8ByteSize_intercalate_le (names : List String) (name : String) :
    ("/".intercalate names).utf8ByteSize ≤ ("/".intercalate (names ++ [name])).utf8ByteSize := by
  cases names with
  | nil => exact Nat.zero_le _
  | cons first rest =>
      rw [String.intercalate_append_of_ne_nil (List.cons_ne_nil _ _) (List.cons_ne_nil _ _)]
      simp only [String.utf8ByteSize_append]
      omega

theorem byteLength_le_child (path : Path) (name : String) : path.byteLength ≤ (path.child name).byteLength := by
  have hnames := utf8ByteSize_intercalate_le path.parts name
  rw [byteLength_eq_max, byteLength_eq_max, anchor_child, parts_child]
  simp only [String.utf8ByteSize_append]
  omega

theorem byteLength_le_descend (path : Path) (names : List String) :
    path.byteLength ≤ (path.descend names).byteLength := by
  induction names generalizing path with
  | nil => simp
  | cons name rest ih =>
      have hchild := byteLength_le_child path name
      have hrest := ih (path.child name)
      rw [child_eq_descend, ← descend_append] at hrest
      exact Nat.le_trans hchild hrest

theorem relativeTo?_descend (path : Path) (names : List String) :
    (path.descend names).relativeTo? path = some ⟨.here, names⟩ := by
  simp [relativeTo?, descend]

theorem parent_descend (path : Path) (names : List String) (name : String) :
    (path.descend (names ++ [name])).parent = path.descend names := by
  simp [parent, descend, ← List.append_assoc]

theorem name_descend (path : Path) (names : List String) (name : String) :
    (path.descend (names ++ [name])).name = name := by
  simp [Path.name, descend]

theorem child_name_parent {path : Path} (h : path.name ≠ "") : path.parent.child path.name = path := by
  have hparts : path.parts ≠ [] := by
    intro hnil
    exact h (by simp [Path.name, hnil])
  have hname : path.name = path.parts.getLast hparts := by
    rw [Path.name, List.getLastD_eq_getLast?, List.getLast?_eq_some_getLast hparts, Option.getD_some]
  rw [Path.child, Path.parent, hname]
  simp only [List.dropLast_concat_getLast]

theorem name_mem_parts {path : Path} (h : path.name ≠ "") : path.name ∈ path.parts := by
  have hparts := congrArg Path.parts (child_name_parent h)
  rw [← hparts]
  exact List.mem_append_right _ List.mem_cons_self

end Path
end ClassDump
