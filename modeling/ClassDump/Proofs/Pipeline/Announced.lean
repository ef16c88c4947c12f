import ClassDump.Proofs.Classpath.Resolved
import ClassDump.Proofs.Pipeline.Failure
import ClassDump.Proofs.Reference.Listed

/-! What comes out of the pipeline. A run returns its numbers or fails; the failures that the pipeline announces are a
wrong configuration, a class that cannot be read back and an empty reference set. The others that get out are few: the
system refuses to say whether a path names a directory, an archive is damaged or not supported, a class file has no
name, or the links of a path lead nowhere. -/

namespace ClassDump.Pipeline

open Classpath

variable {world before : World} {settings : Settings} {failure : Failure}

/-- The failures that get out of the pipeline without being announced, by what they come from: the system refuses to say
whether the class dump or a classpath entry is a directory, a class file of the local build has no name or an archive
fails when it is asked for one, or there is no real path behind the exclusion directory or the class dump. -/
inductive Escapes (world : World) (settings : Settings) : Failure → Prop where
  | classdump (error : OsError) (h : world.isDir (Path.ofText settings.classdump) = .error error) :
      Escapes world settings (.ofOs error)
  | entry (entries : List Path) (path : Path) (error : OsError)
      (hentries : resolveEntries world (settings.classpath.map .text) = .ok entries) (hpath : path ∈ entries)
      (h : world.isDir path = .error error) : Escapes world settings (.ofOs error)
  | reference (entries : List Path) (root : Path) (failure : Failure)
      (hentries : resolveEntries world (settings.classpath.map .text) = .ok entries) (hroot : root ∈ entries)
      (hdir : world.isDir root = .ok true) (h : Reference.Unannounced world entries root failure) :
      Escapes world settings failure
  | realPath (path : Path) (error : FileError)
      (hpath : path = Path.ofText settings.exclusion ∨ path = Path.ofText settings.classdump)
      (h : world.resolve path = .error error) : Escapes world settings (.file error)

/-- The run stops here for a wrong configuration or because it is not told what it asks; unless it does, the entries are
those of the settings, and the roots are directories among them. -/
theorem configuration_or_roots_of_resolveClasspath (hlegal : world.Legal) (hbefore : before.silent = world.silent) :
    (∃ failure, (resolveClasspath settings before).1 = .error failure ∧
      ((∃ error, failure = .configuration error) ∨ Escapes world settings failure)) ∨
    ∃ entries roots, (resolveClasspath settings before).1 = .ok (entries, roots) ∧
      resolveEntries world (settings.classpath.map .text) = .ok entries ∧
      ∀ root ∈ roots, root.path ∈ entries ∧ world.isDir root.path = .ok true := by
  have hresolve := resolveEntries_of_silent hbefore
  unfold resolveClasspath
  rw [World.isDir_of_silent hbefore, hresolve]
  dsimp only
  split
  · next error herror => exact .inl ⟨_, rfl, .inr (.classdump error herror)⟩
  · exact .inl ⟨_, rfl, .inl ⟨_, rfl⟩⟩
  · split
    · next failure hfailure => exact .inl ⟨_, rfl, .inl (exists_configuration_of_resolveEntries hfailure)⟩
    · next entries hentries =>
      have hresolved := isResolved_of_resolveEntries hlegal hentries
      unfold resolveRoots
      rw [hresolve]
      cases hpaths : resolveEntries world (entries.map .path) with
      | error failure => exact .inl ⟨failure, rfl, .inl (exists_configuration_of_resolveEntries hpaths)⟩
      | ok paths =>
          obtain rfl := eq_of_resolveEntries_paths hresolved hpaths
          dsimp only
          cases hroots : rootsFrom 0 paths before with
          | mk result after =>
              cases result with
              | error failure =>
                  obtain ⟨path, hpath, error, herror, rfl⟩ := exists_of_rootsFrom_error (congrArg Prod.fst hroots)
                  rw [World.isDir_of_silent hbefore] at herror
                  exact .inl ⟨_, rfl, .inr (.entry paths path error hentries hpath herror)⟩
              | ok roots =>
                  refine .inr ⟨paths, roots, rfl, hentries, fun root hroot => ?_⟩
                  rw [(eq_of_rootsFrom (congrArg Prod.fst hroots)).2] at hroot
                  rw [← World.isDir_of_silent hbefore]
                  exact mem_directoriesFrom_iff.mp (List.mem_map_of_mem hroot)

theorem resolveClasspath_cases (hlegal : world.Legal) (hbefore : before.silent = world.silent) :
    (∃ failure, (resolveClasspath settings before).1 = .error failure ∧
      (failure.isPipeline = true ∨ Escapes world settings failure)) ∨
    ∃ entries roots, (resolveClasspath settings before).1 = .ok (entries, roots) ∧
      resolveEntries world (settings.classpath.map .text) = .ok entries ∧
      ∀ root ∈ roots, root.path ∈ entries ∧ world.isDir root.path = .ok true := by
  refine (configuration_or_roots_of_resolveClasspath hlegal hbefore).imp_left ?_
  rintro ⟨failure, hfailure, ⟨error, rfl⟩ | hcause⟩
  · exact ⟨_, hfailure, .inl rfl⟩
  · exact ⟨failure, hfailure, .inr hcause⟩

theorem Resolved.entries_and_roots (hlegal : world.Legal) {entries : List Path} {roots : List Root} {resolved : World}
    (h : Resolved settings world entries roots resolved) :
    resolveEntries world (settings.classpath.map .text) = .ok entries ∧
      ∀ root ∈ roots, root.path ∈ entries ∧ world.isDir root.path = .ok true := by
  obtain ⟨start, hstart, hresolve⟩ := h.exists_start
  have hcases := @configuration_or_roots_of_resolveClasspath _ _ settings hlegal hstart
  rw [hresolve] at hcases
  rcases hcases with ⟨_, ⟨⟩, -⟩ | ⟨_, _, ⟨⟩, hfound⟩
  exact hfound

/-- What keeps the reference set from being built is announced or escapes. -/
theorem announced_of_buildReferenceSet {entries : List Path} {roots : List Root} {progress : Bool}
    (hlegal : world.Legal) (hbefore : before.silent = world.silent)
    (hentries : resolveEntries world (settings.classpath.map .text) = .ok entries)
    (hroots : ∀ root ∈ roots, root.path ∈ entries ∧ world.isDir root.path = .ok true)
    (h : (buildReferenceSet entries roots progress before).1 = .error failure) :
    failure.isPipeline = true ∨ Escapes world settings failure := by
  have hfree : ∀ root ∈ roots.map (·.path), root.hasNul = false := by
    intro root hroot
    obtain ⟨found, hfound, rfl⟩ := List.mem_map.mp hroot
    exact World.hasNul_of_isDir (hroots found hfound).2
  unfold buildReferenceSet at h
  split at h
  · next heq =>
    cases h
    refine (Reference.announced_of_build hlegal hfree hbefore (congrArg Prod.fst heq)).imp_right ?_
    rintro ⟨root, hroot, hcause⟩
    obtain ⟨found, hfound, rfl⟩ := List.mem_map.mp hroot
    exact .reference entries found.path failure hentries (hroots found hfound).1 (hroots found hfound).2 hcause
  · cases h

/-- What keeps the class dump from being pruned is a wrong configuration, or there is no real path behind one of the
directories. -/
theorem configuration_or_escapes_of_reconcile {references : ReferenceSet} {progress : Bool}
    (hbefore : before.silent = world.silent)
    (h : (Reconcile.run (pruneTask settings references progress) before).1 = .error failure) :
    (∃ error, failure = .configuration error) ∨ Escapes world settings failure := by
  have hresolve := World.resolve_of_silent hbefore
  cases hinside : Reconcile.isInside (pruneTask settings references progress) before with
  | ok inside =>
      exact .inl (Reconcile.exists_configuration_of_run (isRegular_pruneTask settings references progress) hinside h)
  | error error =>
      unfold Reconcile.run at h
      rw [hinside] at h
      cases h
      rcases Reconcile.error_of_isInside hinside with hreal | hreal
      · exact .inr (.realPath _ error (.inl rfl) (hresolve ▸ hreal))
      · exact .inr (.realPath _ error (.inr rfl) (hresolve ▸ hreal))

theorem announced_of_reconcile {references : ReferenceSet} {progress : Bool}
    (hbefore : before.silent = world.silent)
    (h : (Reconcile.run (pruneTask settings references progress) before).1 = .error failure) :
    failure.isPipeline = true ∨ Escapes world settings failure := by
  refine (configuration_or_escapes_of_reconcile hbefore h).imp_left ?_
  rintro ⟨error, rfl⟩
  rfl

/-- Every run returns its numbers or fails, and the failure is announced or one of those that get out otherwise. -/
theorem announced_or_escapes (hlegal : world.Legal) (command : Command) (settings : Settings) (progress : Bool) :
    (∃ stats, (command.execute settings progress world).1 = .ok stats) ∨
      ∃ failure, (command.execute settings progress world).1 = .error failure ∧
        (failure.isPipeline = true ∨ Escapes world settings failure) := by
  have hstages := execute_stages command settings progress world
  generalize command.execute settings progress world = ended at hstages ⊢
  cases hstages with
  | unresolved hstart hresolve hresolved =>
      have hcases := @resolveClasspath_cases _ _ settings hlegal hstart
      rw [hresolve] at hcases
      rcases hcases with ⟨_, ⟨⟩, hcause⟩ | ⟨_, _, ⟨⟩, -⟩
      exact .inr ⟨_, rfl, hcause⟩
  | unbuilt hresolved hbuild hbuilt =>
      obtain ⟨hentries, hroots⟩ := hresolved.entries_and_roots hlegal
      exact .inr ⟨_, rfl,
        announced_of_buildReferenceSet hlegal hresolved.silent hentries hroots (congrArg Prod.fst hbuild)⟩
  | unpruned hresolved hbuild hbuilt hrun =>
      exact .inr ⟨_, rfl, announced_of_reconcile hbuilt (congrArg Prod.fst hrun)⟩
  | pruned hresolved hbuild hbuilt hrun => exact .inl ⟨_, rfl⟩

/-- A local class that an archive before it has, too, there with a wrong checksum. -/
def withDamagedArchive : World where
  root := .dir
    [("lib.jar", .file
      ([80, 75, 3, 4, 10, 0, 0, 0, 0, 0, 0, 0, 33, 0, 0, 0, 0, 0, 1, 0, 0, 0, 1, 0, 0, 0, 7, 0, 0, 0, 75, 46, 99, 108,
        97, 115, 115, 1] ++
      [80, 75, 1, 2, 20, 0, 10, 0, 0, 0, 0, 0, 0, 0, 33, 0, 0, 0, 0, 0, 1, 0, 0, 0, 1, 0, 0, 0, 7, 0, 0, 0, 0, 0, 0,
        0, 0, 0, 0, 0, 0, 0, 0, 0, 0, 0, 75, 46, 99, 108, 97, 115, 115] ++
      [80, 75, 5, 6, 0, 0, 0, 0, 1, 0, 1, 0, 53, 0, 0, 0, 38, 0, 0, 0, 0, 0])),
    ("classes", .dir [("K.class", .file [1])]), ("dump", .dir [("L.class", .file [2])])]
  workingDir := ⟨[], []⟩
  home := "/"

/-- The failure of the archive gets out. -/
theorem escapes_withDamagedArchive :
    let settings : Settings := ⟨"dump", ["lib.jar", "classes"], "aside", false⟩
    let failure := Failure.archive (.malformed (.checksum "K.class"))
    (({} : Command).execute settings false withDamagedArchive).1 = .error failure ∧ failure.isPipeline = false ∧
      Escapes withDamagedArchive settings failure := by
  intro settings failure
  have hlegal : withDamagedArchive.Legal := ⟨Node.legal_of_flatten (by decide +kernel), rfl⟩
  have hfails : (({} : Command).execute settings false withDamagedArchive).1 = .error failure := by decide +kernel
  refine ⟨hfails, rfl, ?_⟩
  rcases announced_or_escapes hlegal {} settings false with ⟨stats, hstats⟩ | ⟨found, hfound, hcause⟩
  · rw [hfails] at hstats
    cases hstats
  · rw [hfails] at hfound
    cases hfound
    exact hcause.resolve_left nofun

end ClassDump.Pipeline
