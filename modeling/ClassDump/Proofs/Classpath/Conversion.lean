import ClassDump.Proofs.Classpath.Resolved

/-! Converting a classpath is all or nothing, entry by entry, and done once for all. It fails exactly if an entry is no
text to find a path in; otherwise every entry has a path of its own, and a second conversion changes no path, wherever it
takes place. The roots are the directories among the paths, by their positions. -/

namespace ClassDump

namespace Path

/-- The text is that of an absolute path without detours: after one slash or two come names, none of them empty or a dot
or two, with a single slash between one and the next. -/
def IsPlainText (text : String) : Prop :=
  ∃ names : List String, (text = "/" ++ "/".intercalate names ∨ text = "//" ++ "/".intercalate names) ∧
    ∀ name ∈ names, name ≠ "" ∧ name ≠ "." ∧ name ≠ ".." ∧ '/' ∉ name.toList

theorem IsResolved.isPlainText {path : Path} (h : path.IsResolved) : IsPlainText path.text := by
  refine ⟨path.parts, ?_, fun part hpart => ?_⟩
  · obtain ⟨anchor, parts⟩ := path
    cases anchor with
    | here => cases h.isAbsolute
    | root => exact .inl (text_root parts)
    | doubleRoot => exact .inr (text_doubleRoot parts)
  · obtain ⟨hne, hdot, hslash⟩ := h.isNormal part hpart
    refine ⟨hne, hdot, ?_, hslash⟩
    rintro rfl
    exact h.noUp hpart

theorem hasNul_ofText {text : String} (h : '\x00' ∉ text.toList) : (ofText text).hasNul = false := by
  rw [hasNul_eq_false_iff]
  intro part hpart hnul
  exact h (Text.mem_of_mem_splitAt (List.mem_filter.mp hpart).1 hnul).1

theorem hasNul_absolute {path : Path} {workingDir : List String} (h : path.hasNul = false)
    (hworking : ∀ name ∈ workingDir, '\x00' ∉ name.toList) : (path.absolute workingDir).hasNul = false := by
  rw [hasNul_eq_false_iff] at h ⊢
  intro part hpart
  rcases mem_parts_absolute hpart with hdir | hparts
  · exact hworking part hdir
  · exact h part hparts

theorem mem_expandHome {home text : String} {accounts : List (String × String)} {c : Char}
    (h : c ∈ (expandHome home accounts text).toList) :
    c ∈ text.toList ∨ c = '/' ∨ c ∈ home.toList ∨ ∃ account ∈ accounts, c ∈ account.2.toList := by
  have hdirectory : ∀ directory : String, ∀ rest : List Char,
      c ∈ (if (dropEndSlashes directory.toList ++ rest.dropWhile (· ≠ '/')).isEmpty then "/"
        else String.ofList (dropEndSlashes directory.toList ++ rest.dropWhile (· ≠ '/'))).toList →
      c = '/' ∨ c ∈ directory.toList ∨ c ∈ rest := by
    intro directory rest h
    split at h
    · exact .inl (List.mem_singleton.mp h)
    · rw [String.toList_ofList] at h
      rcases List.mem_append.mp h with hdirectory | hrest
      · have hreversed := List.dropWhile_subset _ (List.mem_reverse.mp hdirectory)
        exact .inr (.inl (List.mem_reverse.mp hreversed))
      · exact .inr (.inr (List.dropWhile_subset _ hrest))
  unfold expandHome at h
  split at h
  · next rest htext =>
    rw [htext]
    dsimp only at h
    split at h
    · rw [htext] at h
      exact .inl h
    · next directory hfound =>
      rcases hdirectory directory rest h with hslash | hhome | hrest
      · exact .inr (.inl hslash)
      · refine .inr (.inr ?_)
        split at hfound
        · cases hfound
          exact .inl hhome
        · obtain ⟨before, after, haccounts, -⟩ := List.lookup_eq_some_iff.mp hfound
          exact .inr ⟨_, haccounts ▸ List.mem_append_right before List.mem_cons_self, hhome⟩
      · exact .inl (List.mem_cons_of_mem _ hrest)
  · exact .inl h

end Path

/-- No home directory holds a NUL: the system keeps them as texts that end with one. -/
structure World.CleanHomes (world : World) : Prop where
  home : '\x00' ∉ world.home.toList
  accounts : ∀ account ∈ world.accounts, '\x00' ∉ account.2.toList

/-- The world is one with a working directory, and its names are clean: any path has an absolute form, without a NUL if
the path has none. -/
structure World.Furnished (world : World) : Prop where
  legal : world.Legal
  isThere : world.workingDir.removed = []
  homes : world.CleanHomes

namespace World.Furnished

variable {world : World} (h : world.Furnished)
include h

theorem exists_absolute {path : Path} (hnul : path.hasNul = false) :
    ∃ found, world.absolute path = .ok found ∧ found.hasNul = false := by
  have hworking : ∀ name ∈ world.workingDir.location, '\x00' ∉ name.toList := fun name hname =>
    (h.legal.root _ _ h.legal.workingDir name hname).no_nul
  unfold World.absolute
  by_cases habsolute : path.isAbsolute = true
  · rw [if_pos habsolute]
    exact ⟨_, rfl, Path.hasNul_absolute hnul fun _ hname => absurd hname List.not_mem_nil⟩
  · rw [if_neg habsolute, World.currentDir, h.isThere]
    exact ⟨_, rfl, Path.hasNul_absolute hnul hworking⟩

theorem nul_not_mem_expandHome {text : String} (hnul : '\x00' ∉ text.toList) :
    '\x00' ∉ (Path.expandHome world.home world.accounts text).toList := by
  intro hmem
  rcases Path.mem_expandHome hmem with htext | hslash | hhome | ⟨account, haccount, hin⟩
  · exact hnul htext
  · exact absurd hslash (by decide)
  · exact h.homes.home hhome
  · exact h.homes.accounts account haccount hin

theorem exists_path_of_text {text : String} (hsaid : Text.allBlank text = false) (hnul : '\x00' ∉ text.toList) :
    ∃ path, Classpath.Usable world text path := by
  obtain ⟨path, hpath, hclean⟩ := h.exists_absolute (Path.hasNul_ofText (h.nul_not_mem_expandHome hnul))
  exact ⟨path, hsaid, hnul, hpath, hclean⟩

end World.Furnished

namespace Classpath

variable {world : World} {entry : Entry} {entries : List Entry} {paths : List Path} {path : Path}

/-- The path that an entry is for, as the entry writes it. Bytes write none. -/
def Entry.written? : Entry → Option String
  | .text written => some written
  | .path path => some path.text
  | .object _ written => written
  | .bytes _ => none
  | .value _ => none

/-- The entry writes a path: it is not blank, and it holds no NUL. -/
def Entry.IsUsable (entry : Entry) : Prop :=
  ∃ written, entry.written? = some written ∧ Text.allBlank written = false ∧ '\x00' ∉ written.toList

theorem absoluteOf_cases (world : World) (text shown : String) :
    (∃ error, absoluteOf world text shown = .error (.configuration error)) ∨
      Text.allBlank text = false ∧ '\x00' ∉ text.toList ∧ ∃ path, absoluteOf world text shown = .ok path := by
  unfold absoluteOf
  split
  · exact .inl ⟨_, rfl⟩
  · next hsaid =>
    split
    · exact .inl ⟨_, rfl⟩
    · next hnul =>
      split
      · exact .inr ⟨by simpa using hsaid, by simpa using hnul, _, rfl⟩
      · exact .inl ⟨_, rfl⟩

/-- An entry that writes a path is converted as its text is. -/
theorem exists_resolveEntry_eq (world : World) {text : String} (h : entry.written? = some text) :
    ∃ shown, resolveEntry world entry = absoluteOf world text shown := by
  cases entry with
  | text written =>
      cases h
      exact ⟨_, rfl⟩
  | path path =>
      cases h
      exact ⟨_, rfl⟩
  | object shown written =>
      cases h
      exact ⟨_, rfl⟩
  | bytes data => cases h
  | value value => cases h

theorem exists_error_of_unwritten (world : World) (h : entry.written? = none) :
    ∃ error, resolveEntry world entry = .error (.configuration error) := by
  cases entry with
  | text written => cases h
  | path path => cases h
  | object shown written =>
      cases h
      exact ⟨_, rfl⟩
  | bytes data => exact ⟨_, rfl⟩
  | value value => exact ⟨_, rfl⟩

/-- An entry is converted to a resolved path, or it is refused because it writes no path. -/
theorem resolveEntry_cases (h : world.Furnished) (entry : Entry) :
    (¬entry.IsUsable ∧ ∃ error, resolveEntry world entry = .error (.configuration error)) ∨
      entry.IsUsable ∧ ∃ path, resolveEntry world entry = .ok path ∧ path.IsResolved ∧ path.hasNul = false := by
  cases hwritten : entry.written? with
  | none =>
      refine .inl ⟨?_, exists_error_of_unwritten world hwritten⟩
      rintro ⟨text, htext, -⟩
      cases hwritten.symm.trans htext
  | some text =>
      obtain ⟨shown, heq⟩ := exists_resolveEntry_eq world hwritten
      by_cases husable : Text.allBlank text = false ∧ '\x00' ∉ text.toList
      · obtain ⟨path, hpath⟩ := h.exists_path_of_text husable.1 husable.2
        refine .inr ⟨⟨text, hwritten, husable⟩, path, ?_, hpath.isResolved h.legal, hpath.clean⟩
        rw [heq, absoluteOf_eq hpath.said hpath.noNul hpath.absolute]
      · refine .inl ⟨?_, ?_⟩
        · rintro ⟨other, hother, hsaid⟩
          cases hwritten.symm.trans hother
          exact husable hsaid
        · rcases absoluteOf_cases world text shown with hfailed | ⟨hsaid, hnul, -⟩
          · rwa [heq]
          · exact absurd ⟨hsaid, hnul⟩ husable

/-- Positions of roots grow along the list, and a path is a root at its position exactly if it is a directory. -/
theorem positions_of_rootsFrom {roots : List Root} (h : (rootsFrom 0 paths world).1 = .ok roots) :
    roots.Pairwise (·.index < ·.index) ∧
      ∀ root, root ∈ roots ↔ paths[root.index]? = some root.path ∧ world.isDir root.path = .ok true := by
  obtain ⟨-, rfl⟩ := eq_of_rootsFrom h
  have hgrows : (paths.zipIdx 0).Pairwise fun place other => place.2 < other.2 := by
    rw [← List.pairwise_map, List.zipIdx_map_snd]
    exact List.pairwise_lt_range'
  refine ⟨?_, fun root => ?_⟩
  · rw [directoriesFrom, List.pairwise_map]
    exact hgrows.filter _
  · simp only [directoriesFrom, List.mem_map, List.mem_filter, List.mem_zipIdx_iff_getElem?]
    constructor
    · rintro ⟨place, ⟨hplace, hdir⟩, rfl⟩
      exact ⟨hplace, isDir_matches_iff.mp hdir⟩
    · rintro ⟨hplace, hdir⟩
      exact ⟨(root.path, root.index), ⟨hplace, isDir_matches_iff.mpr hdir⟩, rfl⟩

/-- Paths that are resolved already have the same roots as the entries that they were found for. -/
theorem resolveRoots_eq_of_resolveEntries (hpaths : ∀ path ∈ paths, path.IsResolved ∧ path.hasNul = false)
    (h : resolveEntries world entries = .ok paths) :
    resolveRoots world (paths.map .path) = resolveRoots world entries := by
  rw [resolveRoots, resolveRoots, resolveEntries_paths hpaths, h]

theorem rootsFrom_of_resolveRoots {roots : List Root} (hentries : resolveEntries world entries = .ok paths)
    (h : (resolveRoots world entries).1 = .ok roots) : (rootsFrom 0 paths world).1 = .ok roots := by
  rw [resolveRoots, hentries] at h
  dsimp only at h
  split at h
  · cases h
  · next found _ heq =>
    rw [heq]
    exact h

theorem exists_resolveRoots_iff (hentries : resolveEntries world entries = .ok paths) :
    (∃ roots, (resolveRoots world entries).1 = .ok roots) ↔ ∀ path ∈ paths, ∃ isDir, world.isDir path = .ok isDir := by
  constructor
  · rintro ⟨roots, h⟩
    exact (eq_of_rootsFrom (rootsFrom_of_resolveRoots hentries h)).1
  · intro h
    have hroots := rootsFrom_eq 0 h
    rw [resolveRoots, hentries]
    dsimp only
    generalize rootsFrom 0 paths world = found at hroots ⊢
    obtain ⟨result, after⟩ := found
    obtain rfl : result = _ := hroots
    exact ⟨_, rfl⟩

theorem exists_resolveEntry_iff (h : world.Furnished) : (∃ path, resolveEntry world entry = .ok path) ↔
    entry.IsUsable := by
  rcases resolveEntry_cases h entry with ⟨hunusable, error, herror⟩ | ⟨husable, path, hpath, -⟩
  · refine iff_of_false (fun ⟨path, hpath⟩ => ?_) hunusable
    cases herror.symm.trans hpath
  · exact iff_of_true ⟨path, hpath⟩ husable

theorem exists_resolveEntries_iff (h : world.Furnished) : (∃ paths, resolveEntries world entries = .ok paths) ↔
    ∀ entry ∈ entries, entry.IsUsable := by
  rw [resolveEntries, exists_mapM_eq_ok_iff]
  exact forall₂_congr fun entry _ => exists_resolveEntry_iff h

/-- A conversion that fails is a wrong configuration. -/
theorem exists_refusal_iff : (∃ error, resolveEntries world entries = .error (.configuration error)) ↔
    ¬∃ paths, resolveEntries world entries = .ok paths := by
  constructor
  · rintro ⟨error, herror⟩ ⟨paths, hpaths⟩
    cases herror.symm.trans hpaths
  · intro hnone
    cases hresult : resolveEntries world entries with
    | ok paths => exact absurd ⟨paths, hresult⟩ hnone
    | error failure =>
        obtain ⟨error, rfl⟩ := exists_configuration_of_resolveEntries hresult
        exact ⟨error, rfl⟩

theorem resolved_of_resolveEntry (h : world.Furnished) (hentry : resolveEntry world entry = .ok path) :
    path.IsResolved ∧ path.hasNul = false := by
  rcases resolveEntry_cases h entry with ⟨-, error, herror⟩ | ⟨-, found, hfound, hresolved⟩
  · cases herror.symm.trans hentry
  · cases hfound.symm.trans hentry
    exact hresolved

/-- Converting a classpath is all or nothing and settled by the first time. It is refused, as a wrong configuration,
exactly if some entry writes no path; otherwise each entry has the path it has by itself, absolute and with every name
spelled out, and to convert these paths once more changes none of them in any world, and no root in this one. Roots can be
told if every path can be asked about; they are the directories among the paths, in order, each with its position. -/
theorem resolveEntries_settled (h : world.Furnished) (entries : List Entry) :
    ((∃ error, resolveEntries world entries = .error (.configuration error)) ↔ ∃ entry ∈ entries, ¬entry.IsUsable) ∧
      ((∀ entry ∈ entries, entry.IsUsable) → ∃ paths, resolveEntries world entries = .ok paths ∧
        List.Forall₂ (fun entry path => resolveEntries world [entry] = .ok [path] ∧ path.IsResolved ∧
          Path.IsPlainText path.text) entries paths ∧
        (∀ later : World, resolveEntries later (paths.map .path) = .ok paths) ∧
        resolveRoots world (paths.map .path) = resolveRoots world entries ∧
        ((∃ roots, (resolveRoots world entries).1 = .ok roots) ↔
          ∀ path ∈ paths, ∃ isDir, world.isDir path = .ok isDir) ∧
        ∀ roots, (resolveRoots world entries).1 = .ok roots →
          roots.Pairwise (·.index < ·.index) ∧
            ∀ root, root ∈ roots ↔ paths[root.index]? = some root.path ∧ world.isDir root.path = .ok true) := by
  refine ⟨?_, fun hentries => ?_⟩
  · rw [exists_refusal_iff, exists_resolveEntries_iff h]
    push Not
    rfl
  · obtain ⟨paths, hpaths⟩ := (exists_resolveEntries_iff h).mpr hentries
    have hresolved : ∀ path ∈ paths, path.IsResolved ∧ path.hasNul = false := by
      intro path hpath
      obtain ⟨entry, -, hentry⟩ := (mem_of_mapM_eq_ok hpaths).mp hpath
      exact resolved_of_resolveEntry h hentry
    refine ⟨paths, hpaths, ?_, fun later => resolveEntries_paths hresolved,
      resolveRoots_eq_of_resolveEntries hresolved hpaths, exists_resolveRoots_iff hpaths, fun roots hroots => ?_⟩
    · refine (resolveEntries_eq_ok_iff.mp hpaths).imp fun entry path hentry => ?_
      have hpath := (resolved_of_resolveEntry h hentry).1
      exact ⟨resolveEntries_cons hentry (resolveEntries_nil world), hpath, hpath.isPlainText⟩
    · exact positions_of_rootsFrom (rootsFrom_of_resolveRoots hpaths hroots)

/-- A home directory with a library in it, seen from a directory beside it. -/
def withLibraryAtHome : World where
  root := .dir [("home", .dir [("lib", .dir [])]), ("work", .dir [])]
  workingDir := ⟨["work"], []⟩
  home := "/home/"

/-- A path from home, one after two slashes, one that goes up beyond the root and one whose name starts with a blank are
converted once for all; a blank entry among them would have spoiled them all. -/
theorem resolveEntries_settled_withLibraryAtHome :
    let entries : List Entry :=
      [.text "//usr/./share//", .text "~/lib", .path ⟨.here, ["..", "..", "a.jar"]⟩, .text "\u00a0lib/.."]
    let paths : List Path :=
      [⟨.doubleRoot, ["usr", "share"]⟩, ⟨.root, ["home", "lib"]⟩, ⟨.root, ["a.jar"]⟩, ⟨.root, ["work"]⟩]
    withLibraryAtHome.Furnished ∧ (∀ entry ∈ entries, entry.IsUsable) ∧
      resolveEntries withLibraryAtHome entries = .ok paths ∧
      (∀ later : World, resolveEntries later (paths.map .path) = .ok paths) ∧
      resolveRoots withLibraryAtHome (paths.map .path) = resolveRoots withLibraryAtHome entries ∧
      (resolveRoots withLibraryAtHome entries).1 =
        .ok [⟨⟨.root, ["home", "lib"]⟩, 1⟩, ⟨⟨.root, ["work"]⟩, 3⟩] ∧
      ∃ error, resolveEntries withLibraryAtHome (.text "\u2003" :: entries) = .error (.configuration error) := by
  intro entries paths
  have hfurnished : withLibraryAtHome.Furnished :=
    ⟨⟨Node.legal_of_flatten (by decide +kernel), rfl⟩, rfl, by decide, fun _ h => absurd h List.not_mem_nil⟩
  have hconverted : resolveEntries withLibraryAtHome entries = .ok paths := by decide +kernel
  have husable : ∀ entry ∈ entries, entry.IsUsable := (exists_resolveEntries_iff hfurnished).mp ⟨paths, hconverted⟩
  obtain ⟨found, hfound, -, hsettled, hroots, -⟩ := (resolveEntries_settled hfurnished entries).2 husable
  obtain rfl : found = paths := Except.ok.inj (hfound.symm.trans hconverted)
  refine ⟨hfurnished, husable, hconverted, hsettled, hroots, by decide +kernel, ?_⟩
  refine (resolveEntries_settled hfurnished (.text "\u2003" :: entries)).1.mpr ⟨_, List.mem_cons_self, ?_⟩
  rintro ⟨_, ⟨⟩, hsaid, -⟩
  exact absurd hsaid (by decide)

end Classpath
end ClassDump
