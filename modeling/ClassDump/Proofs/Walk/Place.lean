import ClassDump.Proofs.Store.Legal
import ClassDump.Walk

/-! The directories that a walk enters. The written path of a directory grows with every name, and it is never shorter
than the path in normal form. -/

namespace ClassDump

theorem Text.endsWith_slash_append (start : String) {name : String} (hne : name ≠ "") (hslash : '/' ∉ name.toList) :
    Text.endsWith (start ++ name) "/" = false := by
  obtain ⟨before, last, hname⟩ := (List.eq_nil_or_concat name.toList).resolve_left (by simpa using hne)
  rw [List.concat_eq_append] at hname
  rw [Bool.eq_false_iff]
  intro h
  rw [endsWith, List.isSuffixOf_iff_suffix, String.toList_append, hname, ← List.append_assoc] at h
  obtain ⟨rest, hrest⟩ := h
  have hlast := List.append_inj_right' hrest rfl
  rw [hname] at hslash
  exact hslash (by rw [← hlast]; simp)

theorem Path.exists_text_eq {path : Path} (h : path.parts ≠ []) :
    ∃ start, path.anchor.text ++ "/".intercalate path.parts = start ++ path.parts.getLast h := by
  have hparts := List.dropLast_concat_getLast h
  generalize path.parts.getLast h = last at hparts
  rw [← hparts]
  by_cases hinit : path.parts.dropLast = []
  · exact ⟨path.anchor.text, by simp [hinit]⟩
  · refine ⟨path.anchor.text ++ ("/".intercalate path.parts.dropLast ++ "/"), ?_⟩
    rw [String.intercalate_append_of_ne_nil hinit (List.cons_ne_nil _ _)]
    simp [String.append_assoc]

namespace Walk.Place

def descend (place : Place) (names : List String) : Place :=
  names.foldl child place

@[simp] theorem descend_nil (place : Place) : place.descend [] = place := rfl

theorem descend_concat (place : Place) (names : List String) (name : String) :
    place.descend (names ++ [name]) = (place.descend names).child name := by
  rw [descend, List.foldl_append]
  rfl

@[simp] theorem path_descend (place : Place) (names : List String) :
    (place.descend names).path = place.path.descend names := by
  induction names generalizing place with
  | nil => rw [descend_nil, Path.descend_nil]
  | cons name rest ih =>
      have hrest := ih (place.child name)
      rw [show (place.child name).path = place.path.child name from rfl, Path.child_eq_descend,
        ← Path.descend_append] at hrest
      exact hrest

theorem path_descend_ofPath (root : Path) (relative : Location) :
    ((ofPath root).descend relative).path = root.descend relative :=
  path_descend _ _

theorem child_descend_ofPath (root : Path) (relative : Location) (name : String) :
    ((ofPath root).descend relative).path.child name = root.descend (relative ++ [name]) := by
  rw [path_descend_ofPath, Path.child_eq_descend, Path.descend_append]

/-- The text of a place stands for its path: it is at least as long, and a slash ends it at the root only. -/
structure Spelled (place : Place) : Prop where
  length : place.path.byteLength ≤ place.text.utf8ByteSize
  slash : Text.endsWith place.text "/" = true → place.path.parts = []

theorem spelled_ofPath {path : Path} (h : path.IsNormal) : (ofPath path).Spelled where
  length := Nat.le_refl _
  slash hslash := by
    by_contra hparts
    change ¬path.parts = [] at hparts
    obtain ⟨start, hstart⟩ := Path.exists_text_eq hparts
    obtain ⟨hne, -, hlast⟩ := h _ (List.getLast_mem hparts)
    have hend := Text.endsWith_slash_append start hne hlast
    simp only [ofPath, Path.text] at hslash
    split at hslash
    · exact absurd hslash (by decide)
    · rw [hstart, hend] at hslash
      cases hslash

theorem Spelled.child {place : Place} (h : place.Spelled) {name : String} (hname : LegalName name) :
    (place.child name).Spelled where
  length := by
    have hlength := h.length
    rw [Path.byteLength_eq_max] at hlength
    have hchild : (place.child name).path.byteLength =
        max 1 (place.path.anchor.text ++ "/".intercalate (place.path.parts ++ [name])).utf8ByteSize :=
      Path.byteLength_eq_max _
    have hone : "/".utf8ByteSize = 1 := rfl
    rw [hchild]
    by_cases hparts : place.path.parts = []
    · simp only [hparts, Place.child, List.nil_append, String.intercalate_singleton, String.intercalate_nil,
        String.utf8ByteSize_append] at hlength ⊢
      split <;> simp only [String.utf8ByteSize_append] <;> simp only [hone] at * <;> simp at hlength <;> omega
    · have hslash : Text.endsWith place.text "/" = false := by
        rw [Bool.eq_false_iff]
        exact fun hend => hparts (h.slash hend)
      rw [String.intercalate_append_of_ne_nil hparts (List.cons_ne_nil _ _)]
      simp only [Place.child, hslash, String.utf8ByteSize_append, String.intercalate_singleton] at hlength ⊢
      simp only [Bool.false_eq_true, if_false, String.utf8ByteSize_append, hone]
      omega
  slash hslash := by
    simp only [Place.child] at hslash
    split at hslash <;> rw [Text.endsWith_slash_append _ hname.ne_empty hname.no_slash] at hslash <;> cases hslash

theorem Spelled.descend {place : Place} (h : place.Spelled) {names : List String}
    (hnames : ∀ name ∈ names, LegalName name) : (place.descend names).Spelled := by
  induction names generalizing place with
  | nil => exact h
  | cons name rest ih =>
      exact ih (h.child (hnames name List.mem_cons_self)) fun other hother =>
        hnames other (List.mem_cons_of_mem _ hother)

theorem utf8ByteSize_child (place : Place) {name : String} (hname : name ≠ "") :
    place.text.utf8ByteSize < (place.child name).text.utf8ByteSize := by
  have hpos : 0 < name.utf8ByteSize := Nat.pos_of_ne_zero fun h => hname (String.utf8ByteSize_eq_zero_iff.mp h)
  simp only [Place.child]
  split <;> simp only [String.utf8ByteSize_append] <;> omega

/-- Every name makes the written path longer. -/
theorem utf8ByteSize_descend (place : Place) {names : List String} (hnames : ∀ name ∈ names, name ≠ "") :
    place.text.utf8ByteSize + names.length ≤ (place.descend names).text.utf8ByteSize := by
  induction names generalizing place with
  | nil => exact Nat.le_refl _
  | cons name rest ih =>
      have hchild := utf8ByteSize_child place (hnames name List.mem_cons_self)
      have hrest := ih (place.child name) fun other hother => hnames other (List.mem_cons_of_mem _ hother)
      change _ ≤ ((place.child name).descend rest).text.utf8ByteSize
      rw [List.length_cons]
      omega

end Walk.Place
end ClassDump
