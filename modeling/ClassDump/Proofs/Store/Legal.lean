import ClassDump.Proofs.Store.Leads
import ClassDump.Proofs.Text.Pieces
import ClassDump.Relocation

/-! Trees as a system can have them: every entry has a name that a path can spell, and the working directory is a
directory. A relative path of such names survives being written and cut at its slashes again, so a file is set aside at
the same names below the exclusion directory. -/

namespace ClassDump

/-- A name that an entry of a directory can have. -/
structure LegalName (name : String) : Prop where
  isName : IsName name
  ne_empty : name ≠ ""
  no_slash : '/' ∉ name.toList
  no_nul : '\x00' ∉ name.toList

instance (component : String) : Decidable (IsName component) :=
  inferInstanceAs (Decidable (_ ∧ _ ∧ _))

instance (name : String) : Decidable (LegalName name) :=
  decidable_of_iff (IsName name ∧ name ≠ "" ∧ '/' ∉ name.toList ∧ '\x00' ∉ name.toList)
    ⟨fun h => ⟨h.1, h.2.1, h.2.2.1, h.2.2.2⟩, fun h => ⟨h.1, h.2, h.3, h.4⟩⟩

/-- The path is in normal form: each of its names says something, and none holds a slash. -/
def Path.IsNormal (path : Path) : Prop :=
  ∀ part ∈ path.parts, part ≠ "" ∧ part ≠ "." ∧ '/' ∉ part.toList

/-- All entries of the tree have legal names. -/
def Node.Legal (root : Node) : Prop :=
  ∀ location node, root.bare? location = some node → ∀ name ∈ location, LegalName name

/-- The world is one that a run can find itself in. -/
structure World.Legal (world : World) : Prop where
  root : world.root.Legal
  workingDir : world.root.HasDir world.workingDir.location

theorem World.Legal.names {world : World} (h : world.Legal) {above relative : Location} {node : Node}
    (hnode : world.root.bare? (above ++ relative) = some node) : ∀ name ∈ relative, LegalName name :=
  fun name hname => h.root _ node hnode name (List.mem_append_right above hname)

namespace Node

theorem legal_of_flatten {root : Node} (h : ∀ entry ∈ root.flatten [], ∀ name ∈ entry.1, LegalName name) : root.Legal :=
  fun _ _ hnode => @forall_of_flatten root (fun location _ => ∀ name ∈ location, LegalName name) h _ _ hnode

end Node

namespace Path

variable {names : List String}

theorem isProper_of_legalName {name : String} (h : LegalName name) : isProper name = true := by
  simp [isProper, h.ne_empty, h.isName.1]

theorem text_names (hne : names ≠ []) (h : ∀ name ∈ names, LegalName name) :
    (Path.mk .here names).text = "/".intercalate names := by
  rw [text, if_neg]
  · exact String.empty_append
  · intro hempty
    have hsplit := Text.splitAt_intercalate Text.toList_slash hne fun name hname => (h name hname).no_slash
    rw [show "/".intercalate names = "" from String.empty_append.symm.trans hempty] at hsplit
    have hmem : "" ∈ names := by
      rw [← hsplit]
      decide
    exact (h "" hmem).ne_empty rfl

/-- The components of a written path are in normal form. -/
theorem normal_of_mem_splitAt {text part : String} (h : part ∈ (Text.splitAt '/' text).filter isProper) :
    part ≠ "" ∧ part ≠ "." ∧ '/' ∉ part.toList := by
  obtain ⟨hmem, hproper⟩ := List.mem_filter.mp h
  simp only [isProper, Bool.and_eq_true, decide_eq_true_eq] at hproper
  exact ⟨hproper.1, hproper.2, Text.not_mem_of_mem_splitAt hmem⟩

theorem isNormal_ofText (text : String) : (ofText text).IsNormal :=
  fun _ hpart => normal_of_mem_splitAt hpart

theorem IsNormal.below {path : Path} (h : path.IsNormal) (text : String) :
    (path.below (Text.splitAt '/' text)).IsNormal := by
  intro part hpart
  rcases List.mem_append.mp hpart with hpart | hpart
  · exact h part hpart
  · exact normal_of_mem_splitAt hpart

theorem IsNormal.parts_eq_nil {path : Path} (h : path.IsNormal) (hname : path.name = "") : path.parts = [] := by
  rcases List.eq_nil_or_concat path.parts with hparts | ⟨front, last, hparts⟩
  · exact hparts
  · have hlast : path.name = last := by
      rw [Path.name, hparts]
      simp
    exact absurd (hlast.symm.trans hname) (h last (by simp [hparts])).1

theorem IsNormal.parent {path : Path} (h : path.IsNormal) : path.parent.IsNormal :=
  fun part hpart => h part (List.dropLast_subset _ hpart)

theorem IsNormal.child {path : Path} (h : path.IsNormal) {name : String}
    (hname : name ≠ "" ∧ name ≠ "." ∧ '/' ∉ name.toList) : (path.child name).IsNormal := by
  intro part hpart
  rcases List.mem_append.mp hpart with hpart | hpart
  · exact h part hpart
  · rw [List.mem_singleton.mp hpart]
    exact hname

theorem splitAt_text_names (hne : names ≠ []) (h : ∀ name ∈ names, LegalName name) :
    Text.splitAt '/' (Path.mk .here names).text = names := by
  rw [text_names hne h, Text.splitAt_intercalate Text.toList_slash hne fun name hname => (h name hname).no_slash]

theorem below_eq_descend (path : Path) (h : ∀ name ∈ names, LegalName name) :
    path.below names = path.descend names := by
  rw [below, descend, List.filter_eq_self.mpr fun name hname => isProper_of_legalName (h name hname)]

theorem hasNul_descend {path : Path} (hpath : path.hasNul = false) (h : ∀ name ∈ names, LegalName name) :
    (path.descend names).hasNul = false := by
  simp only [hasNul, parts_descend, List.any_append, Bool.or_eq_false_iff]
  refine ⟨hpath, List.any_eq_false.mpr fun name hname => ?_⟩
  simpa using (h name hname).no_nul

end Path

/-- A file is set aside at its relative path below the exclusion directory. -/
theorem Relocation.targetOf_text (exclusion : Path) {names : List String} (hne : names ≠ [])
    (h : ∀ name ∈ names, LegalName name) :
    targetOf exclusion (Path.mk .here names).text = exclusion.descend names := by
  rw [targetOf, Path.splitAt_text_names hne h, Path.below_eq_descend _ h]

end ClassDump
