import ClassDump.Path
import ClassDump.Proofs.Store.Legal
import ClassDump.Text.Blank

/-! Absolute paths and their written forms. A path that is absolute, in normal form and without double dots is what its
text says, and it is its own absolute form whatever the working directory is. -/

namespace ClassDump

namespace Path

variable {path : Path}

/-- The path starts at the root, is in normal form and never goes up. -/
structure IsResolved (path : Path) : Prop where
  isAbsolute : path.isAbsolute = true
  isNormal : path.IsNormal
  noUp : ".." ∉ path.parts

theorem text_root (parts : List String) : (Path.mk .root parts).text = "/" ++ "/".intercalate parts := by
  rw [text, if_neg]
  · rfl
  · intro hempty
    have hroot : "/" ≠ "" := by decide
    exact hroot (String.append_eq_empty_iff.mp hempty).1

theorem text_doubleRoot (parts : List String) : (Path.mk .doubleRoot parts).text = "//" ++ "/".intercalate parts := by
  rw [text, if_neg]
  · rfl
  · intro hempty
    have hroot : "//" ≠ "" := by decide
    exact hroot (String.append_eq_empty_iff.mp hempty).1

theorem takeWhile_intercalate (h : path.IsNormal) :
    ("/".intercalate path.parts).toList.takeWhile (· = '/') = [] := by
  cases hparts : path.parts with
  | nil => rfl
  | cons first rest =>
      obtain ⟨hne, -, hslash⟩ := h first (by rw [hparts]; exact List.mem_cons_self)
      obtain ⟨c, more, hfirst⟩ : ∃ c more, first.toList = c :: more := by
        cases hlist : first.toList with
        | nil => exact absurd (String.toList_eq_nil_iff.mp hlist) hne
        | cons c more => exact ⟨c, more, rfl⟩
      have hc : c ≠ '/' := by
        rintro rfl
        rw [hfirst] at hslash
        exact hslash List.mem_cons_self
      have hjoined : ∃ others, ("/".intercalate (first :: rest)).toList = c :: others := by
        cases rest with
        | nil => exact ⟨more, by rw [String.intercalate_singleton, hfirst]⟩
        | cons next others =>
            rw [String.intercalate_cons_cons, String.toList_append, String.toList_append, hfirst]
            exact ⟨_, rfl⟩
      obtain ⟨others, hothers⟩ := hjoined
      rw [hothers, List.takeWhile_cons]
      simp [hc]

/-- Joined names come back when they are cut at their slashes, and nothing else does. -/
theorem filter_splitAt_intercalate (h : path.IsNormal) :
    (Text.splitAt '/' ("/".intercalate path.parts)).filter isProper = path.parts := by
  by_cases hparts : path.parts = []
  · rw [hparts]
    rfl
  · rw [Text.splitAt_intercalate Text.toList_slash hparts fun part hpart => (h part hpart).2.2]
    refine List.filter_eq_self.mpr fun part hpart => ?_
    obtain ⟨hne, hdot, -⟩ := h part hpart
    simp [isProper, hne, hdot]

/-- An absolute path in normal form is what its text says. -/
theorem ofText_text (h : path.IsNormal) (habsolute : path.isAbsolute = true) : ofText path.text = path := by
  have hsplit := filter_splitAt_intercalate h
  have htake := takeWhile_intercalate h
  obtain ⟨anchor, parts⟩ := path
  cases anchor with
  | here => cases habsolute
  | root =>
      have hanchor : Anchor.ofText ("/" ++ "/".intercalate parts) = .root := by
        rw [Anchor.ofText, String.toList_append, show "/".toList = ['/'] from rfl, List.singleton_append,
          List.takeWhile_cons, if_pos (by decide), htake]
        rfl
      have hparts : (Text.splitAt '/' ("/" ++ "/".intercalate parts)).filter isProper = parts := by
        rw [show "/" = String.singleton '/' from rfl, Text.splitAt_cons]
        exact hsplit
      rw [text_root, ofText, hanchor, hparts]
  | doubleRoot =>
      have hanchor : Anchor.ofText ("//" ++ "/".intercalate parts) = .doubleRoot := by
        rw [Anchor.ofText, String.toList_append, show "//".toList = ['/', '/'] from rfl, List.cons_append,
          List.singleton_append, List.takeWhile_cons, if_pos (by decide), List.takeWhile_cons, if_pos (by decide),
            htake]
        rfl
      have hparts : (Text.splitAt '/' ("//" ++ "/".intercalate parts)).filter isProper = parts := by
        rw [show "//" = String.singleton '/' ++ String.singleton '/' from rfl, String.append_assoc, Text.splitAt_cons,
          Text.splitAt_cons]
        exact hsplit
      rw [text_doubleRoot, ofText, hanchor, hparts]

theorem foldl_step_eq_append {components : List String} (h : ".." ∉ components) (names : List String) :
    components.foldl step names = names ++ components := by
  induction components generalizing names with
  | nil => exact (List.append_nil names).symm
  | cons component rest ih =>
      rw [List.mem_cons, not_or] at h
      rw [List.foldl_cons, step, if_neg (Ne.symm h.1), ih h.2, List.append_assoc, List.singleton_append]

theorem collapse_eq_self {components : List String} (h : ".." ∉ components) : collapse components = components :=
  foldl_step_eq_append h []

theorem mem_foldl_step {names components : List String} {part : String} (h : part ∈ components.foldl step names) :
    part ∈ names ∨ part ∈ components ∧ part ≠ ".." := by
  induction components generalizing names with
  | nil => exact .inl h
  | cons component rest ih =>
      rw [List.foldl_cons] at h
      rcases ih h with hstep | ⟨hrest, hne⟩
      · rw [step] at hstep
        split at hstep
        · exact .inl (List.dropLast_subset _ hstep)
        · next hup =>
          rcases List.mem_append.mp hstep with hnames | hpart
          · exact .inl hnames
          · obtain rfl := List.mem_singleton.mp hpart
            exact .inr ⟨List.mem_cons_self, hup⟩
      · exact .inr ⟨List.mem_cons_of_mem _ hrest, hne⟩

/-- What double dots leave of components is some of them, and no double dot. -/
theorem mem_collapse {components : List String} {part : String} (h : part ∈ collapse components) :
    part ∈ components ∧ part ≠ ".." :=
  (mem_foldl_step h).resolve_left List.not_mem_nil

theorem isAbsolute_absolute (path : Path) (workingDir : List String) :
    (path.absolute workingDir).isAbsolute = true ∧ ".." ∉ (path.absolute workingDir).parts := by
  obtain ⟨anchor, parts⟩ := path
  cases anchor <;> exact ⟨rfl, fun hup => (mem_collapse hup).2 rfl⟩

/-- The names of an absolute form come from the working directory or from the path. -/
theorem mem_parts_absolute {workingDir : List String} {part : String} (h : part ∈ (path.absolute workingDir).parts) :
    part ∈ workingDir ∨ part ∈ path.parts := by
  obtain ⟨anchor, parts⟩ := path
  cases anchor with
  | here => exact List.mem_append.mp (mem_collapse h).1
  | root => exact .inr (mem_collapse h).1
  | doubleRoot => exact .inr (mem_collapse h).1

/-- The absolute form of a path is resolved. -/
theorem isResolved_absolute {workingDir : List String} (hworking : ∀ name ∈ workingDir, LegalName name)
    (h : path.IsNormal) : (path.absolute workingDir).IsResolved := by
  obtain ⟨habsolute, hup⟩ := isAbsolute_absolute path workingDir
  refine ⟨habsolute, fun part hpart => ?_, hup⟩
  rcases mem_parts_absolute hpart with hdir | hparts
  · exact ⟨(hworking part hdir).ne_empty, (hworking part hdir).isName.1, (hworking part hdir).no_slash⟩
  · exact h part hparts

/-- A resolved path is its own absolute form. -/
theorem IsResolved.absolute_eq (h : path.IsResolved) (workingDir : List String) : path.absolute workingDir = path := by
  obtain ⟨anchor, parts⟩ := path
  cases anchor with
  | here => cases h.isAbsolute
  | root => exact congrArg (Path.mk .root) (collapse_eq_self h.noUp)
  | doubleRoot => exact congrArg (Path.mk .doubleRoot) (collapse_eq_self h.noUp)

theorem exists_text_eq_slash (h : path.isAbsolute = true) : ∃ rest, path.text.toList = '/' :: rest := by
  obtain ⟨anchor, parts⟩ := path
  cases anchor with
  | here => cases h
  | root =>
      rw [text_root, String.toList_append]
      exact ⟨_, rfl⟩
  | doubleRoot =>
      rw [text_doubleRoot, String.toList_append]
      exact ⟨_, rfl⟩

theorem exists_eq_slash_of_ofText {text : String} (h : (ofText text).isAbsolute = true) :
    ∃ rest, text.toList = '/' :: rest := by
  cases htext : text.toList with
  | nil =>
      rw [isAbsolute, ofText, Anchor.ofText, htext] at h
      cases h
  | cons first rest =>
      by_cases hfirst : first = '/'
      · exact ⟨rest, by rw [hfirst]⟩
      · rw [isAbsolute, ofText, Anchor.ofText, htext, List.takeWhile_cons, if_neg (by simpa using hfirst)] at h
        cases h

theorem expandHome_of_slash {text : String} {rest : List Char} (h : text.toList = '/' :: rest) (home : String)
    (accounts : List (String × String)) : expandHome home accounts text = text := by
  rw [expandHome, h]
  rfl

/-- No home directory is filled in for an absolute path. -/
theorem expandHome_text (h : path.isAbsolute = true) (home : String) (accounts : List (String × String)) :
    expandHome home accounts path.text = path.text := by
  obtain ⟨rest, hrest⟩ := exists_text_eq_slash h
  exact expandHome_of_slash hrest home accounts

theorem allBlank_of_slash {text : String} {rest : List Char} (h : text.toList = '/' :: rest) :
    Text.allBlank text = false := by
  rw [Text.allBlank, h, List.all_cons]
  exact Bool.and_eq_false_imp.mpr fun hblank => absurd hblank (by decide)

theorem allBlank_text (h : path.isAbsolute = true) : Text.allBlank path.text = false := by
  obtain ⟨rest, hrest⟩ := exists_text_eq_slash h
  exact allBlank_of_slash hrest

end Path
end ClassDump
