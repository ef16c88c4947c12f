import ClassDump.Classpath.Entry
import ClassDump.Proofs.Path.Written
import ClassDump.Proofs.Relocation.Refusal
import ClassDump.Proofs.Store.Silent
import Mathlib.Data.List.Forall2

/-! A classpath of usable entries is resolved: every entry has an absolute path, which is taken as it is from then on,
and the roots are those of the paths that name directories. -/

namespace ClassDump

section Traversal

variable {α β ε : Type} {f : α → Except ε β} {items : List α}

theorem mapM_eq_ok_iff {results : List β} :
    items.mapM f = .ok results ↔ List.Forall₂ (fun item result => f item = .ok result) items results := by
  induction items generalizing results with
  | nil =>
      rw [List.forall₂_nil_left_iff]
      exact ⟨fun h => (Except.ok.inj h).symm, fun h => congrArg Except.ok h.symm⟩
  | cons item rest ih =>
      rw [List.mapM_cons, List.forall₂_cons_left_iff]
      cases hitem : f item with
      | error error => simp [bind, Except.bind]
      | ok result =>
          simp only [← ih]
          cases rest.mapM f with
          | error error => simp [bind, Except.bind]
          | ok others => simp [bind, Except.bind, pure, Except.pure, @eq_comm _ _ results]

theorem mapM_eq_error_iff {error : ε} : items.mapM f = .error error ↔
    ∃ before item after, items = before ++ item :: after ∧ (∀ other ∈ before, ∃ result, f other = .ok result) ∧
      f item = .error error := by
  induction items with
  | nil => simp [pure, Except.pure]
  | cons first rest ih =>
      rw [List.mapM_cons]
      cases hfirst : f first with
      | error found =>
          constructor
          · rintro ⟨⟩
            exact ⟨[], first, rest, rfl, fun _ hother => absurd hother List.not_mem_nil, hfirst⟩
          · rintro ⟨before, item, after, hitems, hbefore, hitem⟩
            cases before with
            | nil =>
                obtain ⟨rfl, -⟩ := List.cons.inj hitems
                exact congrArg Except.error (Except.error.inj (hfirst.symm.trans hitem))
            | cons other before =>
                obtain ⟨rfl, -⟩ := List.cons.inj hitems
                obtain ⟨result, hresult⟩ := hbefore first List.mem_cons_self
                rw [hfirst] at hresult
                cases hresult
      | ok result =>
          have hrest : (do let result ← Except.ok result; let results ← rest.mapM f; pure (result :: results)) =
              Except.error error ↔ rest.mapM f = .error error := by
            cases rest.mapM f <;> simp [bind, Except.bind, pure, Except.pure]
          rw [hrest, ih]
          constructor
          · rintro ⟨before, item, after, rfl, hbefore, hitem⟩
            exact ⟨first :: before, item, after, rfl, List.forall_mem_cons.mpr ⟨⟨result, hfirst⟩, hbefore⟩, hitem⟩
          · rintro ⟨before, item, after, hitems, hbefore, hitem⟩
            cases before with
            | nil =>
                obtain ⟨rfl, -⟩ := List.cons.inj hitems
                rw [hfirst] at hitem
                cases hitem
            | cons other before =>
                obtain ⟨-, rfl⟩ := List.cons.inj hitems
                exact ⟨before, item, after, rfl, (List.forall_mem_cons.mp hbefore).2, hitem⟩

theorem mem_of_mapM_eq_ok {results : List β} (h : items.mapM f = .ok results) {result : β} :
    result ∈ results ↔ ∃ item ∈ items, f item = .ok result := by
  rw [mapM_eq_ok_iff] at h
  induction h with
  | nil => simp
  | cons hitem _ ih => simp [ih, hitem, @eq_comm _ result]

theorem exists_mapM_eq_ok_iff :
    (∃ results, items.mapM f = .ok results) ↔ ∀ item ∈ items, ∃ result, f item = .ok result := by
  constructor
  · rintro ⟨results, h⟩
    rw [mapM_eq_ok_iff] at h
    induction h with
    | nil => exact fun _ hitem => absurd hitem List.not_mem_nil
    | cons hitem _ ih => exact List.forall_mem_cons.mpr ⟨⟨_, hitem⟩, ih⟩
  · intro h
    cases hresults : items.mapM f with
    | ok results => exact ⟨results, rfl⟩
    | error error =>
        obtain ⟨before, item, after, rfl, -, hitem⟩ := mapM_eq_error_iff.mp hresults
        obtain ⟨result, hresult⟩ := h item (by simp)
        rw [hitem] at hresult
        cases hresult

end Traversal

namespace World

variable {world : World} {path found : Path}

theorem isResolved_of_absolute (hlegal : world.Legal) (hnormal : path.IsNormal) (h : world.absolute path = .ok found) :
    found.IsResolved := by
  have hworking : ∀ name ∈ world.workingDir.location, LegalName name := hlegal.root _ _ hlegal.workingDir
  unfold World.absolute at h
  split at h
  · cases h
    exact Path.isResolved_absolute (fun _ hname => absurd hname List.not_mem_nil) hnormal
  · unfold World.currentDir at h
    split at h
    · cases h
      exact Path.isResolved_absolute hworking hnormal
    · cases h

theorem absolute_of_isResolved (world : World) (h : path.IsResolved) : world.absolute path = .ok path := by
  unfold World.absolute
  rw [if_pos h.isAbsolute, h.absolute_eq]

theorem isResolved_of_resolve (hnormal : path.IsNormal) (h : world.resolve path = .ok path) : path.IsResolved := by
  have habsolute : ∀ other : Path, world.absolute other = .ok path → path.isAbsolute = true ∧ ".." ∉ path.parts := by
    intro other hother
    unfold World.absolute at hother
    split at hother
    · cases hother
      exact other.isAbsolute_absolute []
    · cases hcurrent : world.currentDir with
      | error error =>
          rw [hcurrent] at hother
          cases hother
      | ok workingDir =>
          rw [hcurrent] at hother
          cases hother
          exact other.isAbsolute_absolute workingDir
  unfold World.resolve at h
  split at h
  · cases h
  · dsimp only at h
    split at h
    · cases h
    · next real hreal =>
      obtain rfl : real = path := by
        split at h
        · split at h <;> cases h
          rfl
        · exact Except.ok.inj h
      obtain ⟨hroot, hup⟩ := habsolute _ hreal
      exact ⟨hroot, hnormal, hup⟩

end World

namespace Classpath

variable {world : World} {texts : List String} {entries paths : List Path} {text : String} {path : Path}

/-- The text is that of a usable classpath entry, which has this absolute path. -/
structure Usable (world : World) (text : String) (path : Path) : Prop where
  said : Text.allBlank text = false
  noNul : '\x00' ∉ text.toList
  absolute : world.absolute (Path.ofText (Path.expandHome world.home world.accounts text)) = .ok path
  clean : path.hasNul = false

theorem Usable.isResolved (h : Usable world text path) (hlegal : world.Legal) : path.IsResolved :=
  World.isResolved_of_absolute hlegal (Path.isNormal_ofText _) h.absolute

theorem Usable.of_silent {base : World} (hsilent : world.silent = base.silent) (h : Usable base text path) :
    Usable world text path := by
  rw [World.eq_of_silent hsilent]
  exact ⟨h.said, h.noNul, h.absolute, h.clean⟩

theorem exists_usable (h : List.Forall₂ (Usable world) texts paths) (hpath : path ∈ paths) :
    ∃ text, Usable world text path := by
  induction h with
  | nil => exact absurd hpath List.not_mem_nil
  | @cons text first _ _ hfirst _ ih =>
      rcases List.mem_cons.mp hpath with rfl | hpath
      · exact ⟨text, hfirst⟩
      · exact ih hpath

theorem absoluteOf_eq (hsaid : Text.allBlank text = false) (hnul : '\x00' ∉ text.toList)
    (h : world.absolute (Path.ofText (Path.expandHome world.home world.accounts text)) = .ok path) (shown : String) :
    absoluteOf world text shown = .ok path := by
  unfold absoluteOf
  rw [hsaid, h]
  simp [hnul]

theorem resolveEntries_nil (world : World) : resolveEntries world [] = .ok [] := rfl

theorem resolveEntries_cons {entry : Entry} {rest : List Entry} (hentry : resolveEntry world entry = .ok path)
    (hrest : resolveEntries world rest = .ok paths) : resolveEntries world (entry :: rest) = .ok (path :: paths) := by
  rw [resolveEntries] at hrest ⊢
  rw [List.mapM_cons, hentry, hrest]
  rfl

theorem resolveEntries_eq_ok_iff {items : List Entry} : resolveEntries world items = .ok paths ↔
    List.Forall₂ (fun item path => resolveEntry world item = .ok path) items paths :=
  mapM_eq_ok_iff

/-- Entries that cannot be resolved are refused for one of them, as a wrong configuration. -/
theorem exists_configuration_of_resolveEntries {items : List Entry} {failure : Failure}
    (h : resolveEntries world items = .error failure) : ∃ error, failure = .configuration error := by
  have habsolute : ∀ text shown, absoluteOf world text shown = .error failure →
      ∃ error, failure = .configuration error := by
    intro text shown hfailed
    unfold absoluteOf at hfailed
    split at hfailed
    · exact ⟨_, (Except.error.inj hfailed).symm⟩
    · split at hfailed
      · exact ⟨_, (Except.error.inj hfailed).symm⟩
      · split at hfailed
        · cases hfailed
        · exact ⟨_, (Except.error.inj hfailed).symm⟩
  have hentry : ∀ item, resolveEntry world item = .error failure → ∃ error, failure = .configuration error := by
    intro item hfailed
    cases item with
    | text text => exact habsolute _ _ hfailed
    | path path => exact habsolute _ _ hfailed
    | object shown written =>
        cases written with
        | some text => exact habsolute _ _ hfailed
        | none => exact ⟨_, (Except.error.inj hfailed).symm⟩
    | bytes data => exact ⟨_, (Except.error.inj hfailed).symm⟩
    | value value => exact ⟨_, (Except.error.inj hfailed).symm⟩
  obtain ⟨_, item, _, -, -, hitem⟩ := mapM_eq_error_iff.mp h
  exact hentry item hitem

theorem absolute_of_absoluteOf {shown : String} (h : absoluteOf world text shown = .ok path) :
    world.absolute (Path.ofText (Path.expandHome world.home world.accounts text)) = .ok path := by
  unfold absoluteOf at h
  split at h
  · cases h
  · split at h
    · cases h
    · split at h
      · next heq => rw [heq, Except.ok.inj h]
      · cases h

theorem absolute_of_resolveEntry_text (h : resolveEntry world (.text text) = .ok path) :
    world.absolute (Path.ofText (Path.expandHome world.home world.accounts text)) = .ok path := by
  rw [resolveEntry] at h
  exact absolute_of_absoluteOf h

theorem eq_of_resolveEntry_path {entry : Path} (hentry : entry.IsResolved)
    (h : resolveEntry world (.path entry) = .ok path) : path = entry := by
  rw [resolveEntry] at h
  have habsolute := absolute_of_absoluteOf h
  rw [Path.expandHome_text hentry.isAbsolute, Path.ofText_text hentry.isNormal hentry.isAbsolute,
    world.absolute_of_isResolved hentry] at habsolute
  exact (Except.ok.inj habsolute).symm

/-- Texts are resolved to absolute paths without double dots. -/
theorem isResolved_of_resolveEntries (hlegal : world.Legal)
    (h : resolveEntries world (texts.map .text) = .ok entries) : ∀ entry ∈ entries, entry.IsResolved := by
  rw [resolveEntries_eq_ok_iff] at h
  induction texts generalizing entries with
  | nil =>
      cases h
      exact fun _ hentry => absurd hentry List.not_mem_nil
  | cons text rest ih =>
      cases h with
      | cons hfirst hrest =>
          refine List.forall_mem_cons.mpr ⟨?_, ih hrest⟩
          exact World.isResolved_of_absolute hlegal (Path.isNormal_ofText _) (absolute_of_resolveEntry_text hfirst)

/-- Paths that are resolved already are resolved to themselves. -/
theorem eq_of_resolveEntries_paths (hentries : ∀ entry ∈ entries, entry.IsResolved)
    (h : resolveEntries world (entries.map .path) = .ok paths) : paths = entries := by
  rw [resolveEntries_eq_ok_iff] at h
  induction entries generalizing paths with
  | nil =>
      cases h
      rfl
  | cons entry rest ih =>
      obtain ⟨hentry, hrest⟩ := List.forall_mem_cons.mp hentries
      cases h with
      | cons hfirst hothers => rw [eq_of_resolveEntry_path hentry hfirst, ih hrest hothers]

/-- Texts that say resolved paths are resolved to these. -/
theorem eq_of_resolveEntries_texts (htexts : ∀ text ∈ texts, (Path.ofText text).IsResolved)
    (h : resolveEntries world (texts.map .text) = .ok entries) : entries = texts.map Path.ofText := by
  rw [resolveEntries_eq_ok_iff] at h
  induction texts generalizing entries with
  | nil =>
      cases h
      rfl
  | cons text rest ih =>
      obtain ⟨htext, hrest⟩ := List.forall_mem_cons.mp htexts
      cases h with
      | cons hfirst hothers =>
          obtain ⟨more, hslash⟩ := Path.exists_eq_slash_of_ofText htext.isAbsolute
          have habsolute := absolute_of_resolveEntry_text hfirst
          rw [Path.expandHome_of_slash hslash, world.absolute_of_isResolved htext] at habsolute
          rw [List.map_cons, ← Except.ok.inj habsolute, ← ih hrest hothers]

theorem resolveEntries_texts (h : List.Forall₂ (Usable world) texts entries) :
    resolveEntries world (texts.map .text) = .ok entries := by
  induction h with
  | nil => exact resolveEntries_nil world
  | cons hentry _ ih => exact resolveEntries_cons (absoluteOf_eq hentry.said hentry.noNul hentry.absolute _) ih

theorem resolveEntries_paths (h : ∀ path ∈ paths, path.IsResolved ∧ path.hasNul = false) :
    resolveEntries world (paths.map .path) = .ok paths := by
  induction paths with
  | nil => exact resolveEntries_nil world
  | cons path rest ih =>
      obtain ⟨hresolved, hclean⟩ := h path List.mem_cons_self
      have hrest := ih fun other hother => h other (List.mem_cons_of_mem _ hother)
      have habsolute : world.absolute (Path.ofText (Path.expandHome world.home world.accounts path.text)) =
          .ok path := by
        rw [Path.expandHome_text hresolved.isAbsolute, Path.ofText_text hresolved.isNormal hresolved.isAbsolute,
          world.absolute_of_isResolved hresolved]
      exact resolveEntries_cons
        (absoluteOf_eq (Path.allBlank_text hresolved.isAbsolute) (Path.nul_not_mem_text hclean) habsolute _) hrest

/-- The directories among the paths, each with its position, counted from `index`. -/
def directoriesFrom (world : World) (index : Nat) (paths : List Path) : List Root :=
  ((paths.zipIdx index).filter fun place => world.isDir place.1 matches .ok true).map fun place => ⟨place.1, place.2⟩

theorem isDir_matches_iff {path : Path} :
    (world.isDir path matches .ok true) = true ↔ world.isDir path = .ok true := by
  split <;> simp_all

theorem directoriesFrom_cons_of_isDir {path : Path} (h : world.isDir path = .ok true) (index : Nat) :
    directoriesFrom world index (path :: paths) = ⟨path, index⟩ :: directoriesFrom world (index + 1) paths := by
  unfold directoriesFrom
  rw [List.zipIdx_cons, List.filter_cons_of_pos (by exact isDir_matches_iff.mpr h), List.map_cons]

theorem directoriesFrom_cons_of_not_isDir {path : Path} (h : world.isDir path ≠ .ok true) (index : Nat) :
    directoriesFrom world index (path :: paths) = directoriesFrom world (index + 1) paths := by
  unfold directoriesFrom
  rw [List.zipIdx_cons, List.filter_cons_of_neg (by exact mt isDir_matches_iff.mp h)]

theorem paths_directoriesFrom (world : World) (index : Nat) (paths : List Path) :
    (directoriesFrom world index paths).map (·.path) = paths.filter fun path => world.isDir path matches .ok true := by
  conv_rhs => rw [← List.zipIdx_map_fst index paths]
  rw [directoriesFrom, List.map_map, List.filter_map]
  rfl

theorem mem_directoriesFrom_iff {index : Nat} {path : Path} :
    path ∈ (directoriesFrom world index paths).map (·.path) ↔ path ∈ paths ∧ world.isDir path = .ok true := by
  rw [paths_directoriesFrom, List.mem_filter, isDir_matches_iff]

/-- The roots are the directories among the paths, if every path can be asked about; otherwise one that cannot is to
blame. -/
theorem rootsFrom_cases (index : Nat) (paths : List Path) (world : World) :
    ((∀ path ∈ paths, ∃ isDir, world.isDir path = .ok isDir) ∧
      (rootsFrom index paths world).1 = .ok (directoriesFrom world index paths)) ∨
    ∃ path ∈ paths, ∃ error, world.isDir path = .error error ∧ (rootsFrom index paths world).1 = .error (.ofOs error) := by
  induction paths generalizing index world with
  | nil => exact .inl ⟨fun _ hpath => absurd hpath List.not_mem_nil, rfl⟩
  | cons first rest ih =>
      cases hfirst : world.isDir first with
      | error error =>
          refine .inr ⟨first, List.mem_cons_self, error, hfirst, ?_⟩
          rw [rootsFrom, hfirst]
      | ok isDir =>
          cases isDir with
          | true =>
              rw [rootsFrom, hfirst, directoriesFrom_cons_of_isDir hfirst]
              have hrest := ih (index + 1) world
              generalize rootsFrom (index + 1) rest world = found at hrest ⊢
              obtain ⟨result, after⟩ := found
              dsimp only at hrest
              rcases hrest with ⟨hall, rfl⟩ | ⟨path, hpath, error, herror, rfl⟩
              · exact .inl ⟨List.forall_mem_cons.mpr ⟨⟨true, hfirst⟩, hall⟩, rfl⟩
              · exact .inr ⟨path, List.mem_cons_of_mem _ hpath, error, herror, rfl⟩
          | false =>
              rw [rootsFrom, hfirst, directoriesFrom_cons_of_not_isDir (by simp [hfirst])]
              have hsilent := World.silent_log world .debug .classpath
                ("Not a local class directory, skipping for reference scan: " ++ first.text)
              have hrest := ih (index + 1) (world.log .debug .classpath
                ("Not a local class directory, skipping for reference scan: " ++ first.text))
              simp only [directoriesFrom, World.isDir_of_silent hsilent] at hrest
              rcases hrest with ⟨hall, hroots⟩ | ⟨path, hpath, herror⟩
              · exact .inl ⟨List.forall_mem_cons.mpr ⟨⟨false, hfirst⟩, hall⟩, hroots⟩
              · exact .inr ⟨path, List.mem_cons_of_mem _ hpath, herror⟩

/-- Where the roots are found, every path could be asked about, and the roots are the directories among them. -/
theorem eq_of_rootsFrom {index : Nat} {roots : List Root} (h : (rootsFrom index paths world).1 = .ok roots) :
    (∀ path ∈ paths, ∃ isDir, world.isDir path = .ok isDir) ∧ roots = directoriesFrom world index paths := by
  rcases rootsFrom_cases index paths world with ⟨hall, hroots⟩ | ⟨_, _, _, _, hroots⟩
  · exact ⟨hall, Except.ok.inj (h.symm.trans hroots)⟩
  · cases h.symm.trans hroots

/-- Only a path that cannot be asked about keeps the roots from being found. -/
theorem exists_of_rootsFrom_error {index : Nat} {failure : Failure}
    (h : (rootsFrom index paths world).1 = .error failure) :
    ∃ path ∈ paths, ∃ error, world.isDir path = .error error ∧ failure = .ofOs error := by
  rcases rootsFrom_cases index paths world with ⟨_, hroots⟩ | ⟨path, hpath, error, herror, hroots⟩
  · cases h.symm.trans hroots
  · exact ⟨path, hpath, error, herror, Except.error.inj (h.symm.trans hroots)⟩

theorem rootsFrom_eq (index : Nat) (h : ∀ path ∈ paths, ∃ isDir, world.isDir path = .ok isDir) :
    (rootsFrom index paths world).1 = .ok (directoriesFrom world index paths) := by
  rcases rootsFrom_cases index paths world with ⟨_, hroots⟩ | ⟨path, hpath, error, herror, _⟩
  · exact hroots
  · obtain ⟨isDir, hisDir⟩ := h path hpath
    cases herror.symm.trans hisDir

theorem exists_resolveRoots (hpaths : ∀ path ∈ paths, path.IsResolved ∧ path.hasNul = false)
    (h : ∀ path ∈ paths, ∃ isDir, world.isDir path = .ok isDir) :
    ∃ roots after, resolveRoots world (paths.map .path) = (.ok roots, after) ∧
      ∀ path, path ∈ roots.map (·.path) ↔ path ∈ paths ∧ world.isDir path = .ok true := by
  have hroots := rootsFrom_eq 0 h
  unfold resolveRoots
  rw [resolveEntries_paths hpaths]
  dsimp only
  generalize rootsFrom 0 paths world = found at hroots ⊢
  obtain ⟨result, after⟩ := found
  obtain rfl : result = _ := hroots
  exact ⟨_, _, rfl, fun path => mem_directoriesFrom_iff⟩

end Classpath
end ClassDump
