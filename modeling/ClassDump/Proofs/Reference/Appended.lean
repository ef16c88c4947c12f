import ClassDump.Proofs.Reference.Sequence

/-! What more entries do to a reference set. Entries at the end of a classpath change no key of the classes before them,
and they add keys only if there are directories among them. Entries that are no directories, wherever they stand, change
no name. -/

namespace ClassDump

open Classpath

variable {world : World}

namespace Classpath

/-- The local directory of classes that an entry names, if it names one. -/
def directoryOf (world : World) (entry : Entry) : Option Path :=
  match resolveEntry world entry with
  | .ok path => if world.isDir path matches .ok true then some path else none
  | .error _ => none

/-- The roots are the directories that the entries name, in their order. -/
theorem paths_of_resolveRoots {classpath : List Entry} {roots : List Root}
    (h : (resolveRoots world classpath).1 = .ok roots) :
    roots.map (·.path) = classpath.filterMap (directoryOf world) := by
  unfold resolveRoots at h
  split at h
  · cases h
  · next paths hpaths =>
    split at h
    · cases h
    · next found _ heq =>
      cases h
      rw [(eq_of_rootsFrom (congrArg Prod.fst heq)).2, paths_directoriesFrom]
      have hall := resolveEntries_eq_ok_iff.mp hpaths
      clear heq hpaths
      induction hall with
      | nil => rfl
      | @cons entry path rest others hentry _ ih =>
          rw [List.filterMap_cons, List.filter_cons, directoryOf, hentry]
          dsimp only
          split <;> simp_all

end Classpath

namespace Reference

/-- The reference set of a classpath: its directories are scanned, and its entries are looked up at their places. -/
def referencesOf (world : World) (progress : Bool) (place : Entry → Path) (classpath : List Entry) :
    Except Failure ReferenceSet :=
  match resolveRoots world classpath with
  | (.error failure, _) => .error failure
  | (.ok roots, world) =>
    (build (Pipeline.referenceTask progress) (roots.map (·.path)) (.along (classpath.map place)) world).1

/-- The key of a class by the answer of the places of the entries. -/
def keyAlong (world : World) (place : Entry → Path) (classpath : List Entry) : Location → Except Failure ClassKey :=
  keyAt agentId fun resource => firstAnswer world resource (classpath.map place)

/-- The local classes of a classpath, in the order in which they are come to. -/
def localClasses (world : World) (classpath : List Entry) : List Location :=
  (classpath.filterMap (directoryOf world)).flatMap (classesBelow world)

variable {progress : Bool} {place : Entry → Path} {classpath extension : List Entry} {references : ReferenceSet}
  {relative : Location} {key : ClassKey}

theorem setOf_of_referencesOf (h : referencesOf world progress place classpath = .ok references) :
    setOf ((localClasses world classpath).mapM (keyAlong world place classpath)) = .ok references := by
  have hsilent := silent_resolveRoots world classpath
  unfold referencesOf at h
  split at h
  · cases h
  · next roots after heq =>
    rw [heq] at hsilent
    have hroots := paths_of_resolveRoots (congrArg Prod.fst heq)
    have hfree := noNul_of_build h
    rw [build_along_fst hsilent hfree, hroots] at h
    exact h

/-- A class that has a key keeps it when entries are appended. -/
theorem keyAlong_append (h : keyAlong world place classpath relative = .ok key) (extension : List Entry) :
    keyAlong world place (classpath ++ extension) relative = .ok key := by
  obtain ⟨data, hdata, -⟩ := exists_of_keyAt h
  have hmore := firstAnswer_append_of_some hdata (extension.map place)
  rw [← List.map_append] at hmore
  rw [← h]
  exact congrArg (keyBy agentId _) (hmore.trans hdata.symm)

theorem localClasses_append (world : World) (classpath extension : List Entry) :
    localClasses world (classpath ++ extension) = localClasses world classpath ++ localClasses world extension := by
  rw [localClasses, List.filterMap_append, List.flatMap_append]
  rfl

/-- The name of a class does not depend on where it is found. -/
theorem dropLast_of_keyAlong (h : keyAlong world place classpath relative = .ok key) :
    Text.dropLast key.path 23 = Text.replace '.' '/' (binaryNameOf (Path.mk .here relative).text) := by
  obtain ⟨_, -, hof⟩ := exists_of_keyAt h
  exact (ClassKey.says_of_ok hof).namePart

/-- The names of a reference set are those of the local classes. -/
theorem exists_key_iff (h : referencesOf world progress place classpath = .ok references) (name : String) :
    (∃ key, references.contains key = true ∧ Text.dropLast key 23 = name) ↔
      ∃ relative ∈ localClasses world classpath,
        Text.replace '.' '/' (binaryNameOf (Path.mk .here relative).text) = name := by
  obtain ⟨hall, hcontains⟩ := contains_of_setOf (setOf_of_referencesOf h)
  constructor
  · rintro ⟨key, hkey, rfl⟩
    obtain ⟨relative, hrelative, hfound⟩ := (hcontains key).mp hkey
    exact ⟨relative, hrelative, (dropLast_of_keyAlong hfound).symm⟩
  · rintro ⟨relative, hrelative, rfl⟩
    obtain ⟨key, hfound⟩ := hall relative hrelative
    exact ⟨key.path, (hcontains key.path).mpr ⟨relative, hrelative, hfound⟩, dropLast_of_keyAlong hfound⟩

/-- Entries that are appended to a classpath change no key and add none if they are no directories; entries that are no
directories change no name, wherever they stand. -/
theorem references_of_more_entries (world : World) (progress : Bool) (place : Entry → Path) :
    (∀ classpath extension references more, referencesOf world progress place classpath = .ok references →
      referencesOf world progress place (classpath ++ extension) = .ok more →
        (∀ key, references.contains key = true → more.contains key = true) ∧
          ((∀ entry ∈ extension, directoryOf world entry = none) → more = references)) ∧
    ∀ classpath other references found,
      classpath.filterMap (directoryOf world) = other.filterMap (directoryOf world) →
      referencesOf world progress place classpath = .ok references →
      referencesOf world progress place other = .ok found →
        ∀ name, (∃ key, references.contains key = true ∧ Text.dropLast key 23 = name) ↔
          ∃ key, found.contains key = true ∧ Text.dropLast key 23 = name := by
  constructor
  · intro classpath extension references more h hmore
    have hset := setOf_of_referencesOf h
    have hmoreSet := setOf_of_referencesOf hmore
    obtain ⟨hall, hcontains⟩ := contains_of_setOf hset
    refine ⟨fun key hkey => ?_, fun hext => ?_⟩
    · obtain ⟨relative, hrelative, hfound⟩ := (hcontains key).mp hkey
      refine ((contains_of_setOf hmoreSet).2 key).mpr ⟨relative, ?_, keyAlong_append hfound extension⟩
      rw [localClasses_append]
      exact List.mem_append_left _ hrelative
    · have hnone : localClasses world extension = [] := by
        rw [localClasses, List.filterMap_eq_nil_iff.mpr hext]
        rfl
      obtain ⟨keys, hkeys⟩ := exists_mapM_eq_ok_iff.mpr hall
      have hkept : (localClasses world classpath).mapM (keyAlong world place (classpath ++ extension)) = .ok keys :=
        mapM_eq_ok_iff.mpr ((mapM_eq_ok_iff.mp hkeys).imp fun _ _ hfound => keyAlong_append hfound extension)
      rw [localClasses_append, hnone, List.append_nil, hkept, ← hkeys, hset] at hmoreSet
      exact (Except.ok.inj hmoreSet).symm
  · intro classpath other references found hdirs h hfound name
    rw [exists_key_iff h, exists_key_iff hfound, localClasses, localClasses, hdirs]

/-- A local class that a library has with other bytes, and a second class directory. -/
def withLibrary : World where
  root := .dir
    [("lib.jar", .file
      ([80, 75, 3, 4, 10, 0, 0, 0, 0, 0, 0, 0, 33, 0, 161, 142, 12, 60, 1, 0, 0, 0, 1, 0, 0, 0, 7, 0, 0, 0, 75, 46, 99,
        108, 97, 115, 115, 2] ++
      [80, 75, 1, 2, 20, 0, 10, 0, 0, 0, 0, 0, 0, 0, 33, 0, 161, 142, 12, 60, 1, 0, 0, 0, 1, 0, 0, 0, 7, 0, 0, 0, 0, 0,
        0, 0, 0, 0, 0, 0, 0, 0, 0, 0, 0, 0, 75, 46, 99, 108, 97, 115, 115] ++
      [80, 75, 5, 6, 0, 0, 0, 0, 1, 0, 1, 0, 53, 0, 0, 0, 38, 0, 0, 0, 0, 0])),
    ("classes", .dir [("K.class", .file [1])]), ("more", .dir [("L.class", .file [3])])]
  workingDir := ⟨[], []⟩
  home := "/"

/-- In front of the class directory, the library changes the key of the class but not its name; behind it, nothing. -/
theorem references_of_more_entries_withLibrary :
    let place : Entry → Path := fun | .path path => path | _ => ⟨.here, []⟩
    let build := referencesOf withLibrary false place
    let classes := Entry.path ⟨.root, ["classes"]⟩
    let more := Entry.path ⟨.root, ["more"]⟩
    let library := Entry.path ⟨.root, ["lib.jar"]⟩
    let plain := ReferenceSet.ofList [keyOf "K.class" [1]]
    let both := ReferenceSet.ofList [keyOf "K.class" [1], keyOf "L.class" [3]]
    let shadowed := ReferenceSet.ofList [keyOf "K.class" [2]]
    build [classes] = .ok plain ∧
      build ([classes] ++ [more, library]) = .ok both ∧ (∀ key, plain.contains key = true → both.contains key = true) ∧
      (∀ behind, build ([classes] ++ [library]) = .ok behind → behind = plain) ∧
      build [library, classes] = .ok shadowed ∧ shadowed ≠ plain ∧
      ∀ name, (∃ key, plain.contains key = true ∧ Text.dropLast key 23 = name) ↔
        ∃ key, shadowed.contains key = true ∧ Text.dropLast key 23 = name := by
  intro place build classes more library plain both shadowed
  have hplain : build [classes] = .ok plain := by decide +kernel
  have hboth : build ([classes] ++ [more, library]) = .ok both := by decide +kernel
  have hshadowed : build [library, classes] = .ok shadowed := by decide +kernel
  have hlibrary : ∀ entry ∈ [library], directoryOf withLibrary entry = none := by decide +kernel
  have hdirs : [classes].filterMap (directoryOf withLibrary) = [library, classes].filterMap (directoryOf withLibrary) := by
    decide +kernel
  obtain ⟨happended, hinserted⟩ := references_of_more_entries withLibrary false place
  refine ⟨hplain, hboth, (happended _ _ _ _ hplain hboth).1, fun behind hbehind => ?_, hshadowed, by decide +kernel,
    hinserted _ _ _ _ hdirs hplain hshadowed⟩
  exact (happended _ _ _ _ hplain hbehind).2 hlibrary

end Reference
end ClassDump
