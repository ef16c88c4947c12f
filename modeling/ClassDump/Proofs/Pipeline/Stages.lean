import ClassDump.Pipeline
import ClassDump.Proofs.Classpath.Answer
import ClassDump.Proofs.Reconcile.Visit
import ClassDump.Proofs.Reference.Visit
import ClassDump.Proofs.Store.Leads

/-! The stages of a run of the pipeline. It ends in the first stage that fails, or after all of them; the first two
stages read files and log, so each stage finds the files that the run has found. -/

namespace ClassDump.Pipeline

theorem silent_resolveClasspath (settings : Settings) (world : World) :
    (resolveClasspath settings world).2.silent = world.silent := by
  rw [resolveClasspath]
  split
  · rfl
  · rfl
  · split
    · rfl
    · next entries _ =>
      have hroots := Classpath.silent_resolveRoots world (entries.map .path)
      split
      · next heq =>
        rw [heq] at hroots
        exact hroots
      · next heq =>
        rw [heq] at hroots
        exact hroots

theorem silent_buildReferenceSet (entries : List Path) (roots : List Classpath.Root) (progress : Bool) (world : World)
    (listener : Listener := .mute) :
    (buildReferenceSet entries roots progress world listener).2.silent = world.silent := by
  have hbuild := @Reference.silent_build _ (referenceTask progress) Classpath.Lookup.silent_readResource
    (roots.map (·.path)) (.along entries) world listener
  rw [buildReferenceSet]
  split
  · next heq =>
    rw [heq] at hbuild
    exact hbuild
  · next heq =>
    rw [heq] at hbuild
    exact hbuild

theorem isRegular_pruneTask (settings : Settings) (references : ReferenceSet) (progress : Bool) :
    (pruneTask settings references progress).IsRegular := by
  cases progress with
  | false => exact nofun
  | true => exact fun h => absurd (Option.some.inj h) (by decide)

/-- Without a directory as the class dump the pipeline ends before anything else is done. -/
theorem isDir_of_resolveClasspath {settings : Settings} {world after : World}
    {resolved : List Path × List Classpath.Root} (h : resolveClasspath settings world = (.ok resolved, after)) :
    world.isDir (Path.ofText settings.classdump) = .ok true := by
  rw [resolveClasspath] at h
  split at h
  · cases h
  · cases h
  · next hdir => exact hdir

/-- The classpath was resolved into these entries and roots, and the files are those of the first world. -/
structure Resolved (settings : Settings) (world : World) (entries : List Path) (roots : List Classpath.Root)
    (resolved : World) : Prop where
  exists_start : ∃ start, start.silent = world.silent ∧
    resolveClasspath settings start = (.ok (entries, roots), resolved)
  silent : resolved.silent = world.silent

theorem Resolved.isDir_classdump {settings : Settings} {world resolved : World} {entries : List Path}
    {roots : List Classpath.Root} (h : Resolved settings world entries roots resolved) :
    world.isDir (Path.ofText settings.classdump) = .ok true := by
  obtain ⟨start, hstart, hresolve⟩ := h.exists_start
  rw [← World.isDir_of_silent hstart]
  exact isDir_of_resolveClasspath hresolve

theorem Resolved.hasNul_classdump {settings : Settings} {world resolved : World} {entries : List Path}
    {roots : List Classpath.Root} (h : Resolved settings world entries roots resolved) :
    (Path.ofText settings.classdump).hasNul = false :=
  World.hasNul_of_isDir h.isDir_classdump

/-- How a run of the pipeline ends: by the failure of a stage, or with the numbers of the last one. -/
inductive Stages (command : Command) (settings : Settings) (progress : Bool) (world : World)
    (listener : Listener := .mute) : Except Failure Stats × Command × World → Prop where
  | unresolved {start resolved : World} {failure : Failure} (hstart : start.silent = world.silent)
      (hresolve : resolveClasspath settings start = (.error failure, resolved))
      (hresolved : resolved.silent = world.silent) :
      Stages command settings progress world listener (.error failure, command, resolved)
  | unbuilt {entries : List Path} {roots : List Classpath.Root} {resolved built : World} {failure : Failure}
      (hresolved : Resolved settings world entries roots resolved)
      (hbuild : buildReferenceSet entries roots progress resolved listener = (.error failure, built))
      (hbuilt : built.silent = world.silent) :
      Stages command settings progress world listener (.error failure, command, built)
  | unpruned {entries : List Path} {roots : List Classpath.Root} {resolved built after : World}
      {references : ReferenceSet} {failure : Failure} (hresolved : Resolved settings world entries roots resolved)
      (hbuild : buildReferenceSet entries roots progress resolved listener = (.ok references, built))
      (hbuilt : built.silent = world.silent)
      (hrun : Reconcile.run (pruneTask settings references progress) built listener = (.error failure, after)) :
      Stages command settings progress world listener (.error failure, ⟨some references⟩, after)
  | pruned {entries : List Path} {roots : List Classpath.Root} {resolved built after : World}
      {references : ReferenceSet} {stats : Stats} (hresolved : Resolved settings world entries roots resolved)
      (hbuild : buildReferenceSet entries roots progress resolved listener = (.ok references, built))
      (hbuilt : built.silent = world.silent)
      (hrun : Reconcile.run (pruneTask settings references progress) built listener = (.ok stats, after)) :
      Stages command settings progress world listener (.ok (recordStages stats), ⟨some references⟩, after)

theorem execute_stages (command : Command) (settings : Settings) (progress : Bool) (world : World)
    (listener : Listener := .mute) :
    Stages command settings progress world listener (command.execute settings progress world listener) := by
  have hstart := World.silent_log world .info .pipeline
    ("Pruning Jacoco classdump at: " ++ (Path.ofText settings.classdump).text)
  unfold Command.execute
  dsimp only
  generalize world.log .info .pipeline _ = start at hstart ⊢
  have hresolved := (silent_resolveClasspath settings start).trans hstart
  rcases hresolve : resolveClasspath settings start with ⟨found, resolved⟩
  rw [hresolve] at hresolved
  cases found with
  | error failure => exact .unresolved hstart hresolve hresolved
  | ok found =>
      obtain ⟨entries, roots⟩ := found
      have hfound : Resolved settings world entries roots resolved := ⟨⟨start, hstart, hresolve⟩, hresolved⟩
      have hbuilt := (silent_buildReferenceSet entries roots progress resolved listener).trans hresolved
      dsimp only
      rcases hbuild : buildReferenceSet entries roots progress resolved listener with ⟨set, built⟩
      rw [hbuild] at hbuilt
      cases set with
      | error failure => exact .unbuilt hfound hbuild hbuilt
      | ok references =>
          dsimp only
          rcases hrun : Reconcile.run (pruneTask settings references progress) built listener with ⟨result, after⟩
          cases result with
          | error failure => exact .unpruned hfound hbuild hbuilt hrun
          | ok stats => exact .pruned hfound hbuild hbuilt hrun

end ClassDump.Pipeline
