import ClassDump.Proofs.Reconcile.Conservation
import ClassDump.Proofs.Store.Resolution
import ClassDump.Proofs.Walk.Notes

/-! The exclusion tree and the class dump. Whether the one lies in the other is asked of the real paths, and the
directory is made at the path as it was written. Both agree on where that is, whatever links there are, as long as the
system answers about the paths on the way: what is made is never inside the dump, what would be inside is refused, and
nothing else is. -/

namespace ClassDump

namespace World

/-- The path has a name, the path above it leads to a directory, and nothing stands there by this name, not even a link
that leads nowhere. -/
structure Vacant (world : World) (path : Path) (above : Location) : Prop where
  ne_empty : path.name ≠ ""
  ne_up : path.name ≠ ".."
  parent : world.locateFrom linkMax path.parent = .ok ⟨above, []⟩
  parentDir : world.root.HasDir above
  free : world.root.bare? (above ++ [path.name]) = none

variable {world : World} {path : Path} {above dump : Location}

theorem Makable.vacant (h : world.Makable path above) : world.Vacant path above :=
  ⟨h.ne_empty, h.ne_up, h.parent, h.parentDir, h.free⟩

/-- A path at which nothing stands resolves to the place where it would. -/
theorem Vacant.resolves (hlegal : world.Legal) (hnormal : path.IsNormal) (h : world.Vacant path above)
    (hnul : path.hasNul = false) (hshort : ∀ next ∈ world.asked path.parent, next.byteLength < pathMax) :
    world.Resolves path (above ++ [path.name]) := by
  obtain ⟨n, hn, hleads, -⟩ := exists_leads_of_locateFrom h.parent
  have hpath := Path.child_name_parent h.ne_empty
  have hproper : Path.isProper path.name = true := by
    obtain ⟨hempty, hdot, -⟩ := hnormal path.name (by rw [← hpath, Path.name_child]; simp)
    simp [Path.isProper, hempty, hdot]
  have hresolves := hleads.resolves_child hlegal hn h.parentDir hproper h.ne_up h.free (hpath.symm ▸ hnul) hshort
  rwa [hpath] at hresolves

theorem IsDirAt.resolves (hlegal : world.Legal) (h : world.IsDirAt path dump)
    (hshort : ∀ next ∈ world.asked path, next.byteLength < pathMax) : world.Resolves path dump := by
  obtain ⟨n, hn, hleads, -⟩ := exists_leads_of_locateFrom h.1
  exact hleads.resolves hlegal hn h.2 (hleads.noNul hlegal) hshort

end World

namespace Relocation

theorem Site.not_above {base : Node} {dump exclusion : Location} (h : Site base dump exclusion)
    (relative : Location) : ¬dump <+: exclusion ++ relative := by
  intro hinside
  rcases List.prefix_or_prefix_of_prefix hinside (List.prefix_append exclusion relative) with hdump | hexclusion
  · exact h.apart hdump
  · exact h.not_below [] (by simpa using hexclusion)

end Relocation

namespace Reconcile

open Relocation

variable {task : Task} {world : World} {dump above there : Location}

/-- Whether the exclusion directory is inside is decided by the locations. -/
theorem isInside_of_resolves (hexclusion : world.Resolves task.exclusion there)
    (hclassdump : world.Resolves task.classdump dump) :
    isInside task world = .ok (decide (dump <+: there)) ∨
      world.workingDir.removed ≠ [] ∧ isInside task world = .error (.os (.refused .noEntry none none)) := by
  unfold isInside
  rcases hexclusion with hexclusion | ⟨hremoved, hexclusion⟩
  · rw [hexclusion]
    rcases hclassdump with hclassdump | ⟨hremoved, hclassdump⟩
    · rw [hclassdump]
      refine .inl (congrArg Except.ok ?_)
      rw [Bool.eq_iff_iff]
      simp only [Path.isBelow, Bool.or_eq_true, Bool.and_eq_true, decide_eq_true_eq, Path.mk.injEq, true_and,
        List.isPrefixOf_iff_prefix, ne_eq]
      constructor
      · rintro (rfl | ⟨hunder, -⟩)
        · exact List.prefix_refl _
        · exact hunder
      · intro hunder
        by_cases hsame : there = dump
        · exact .inl hsame
        · exact .inr ⟨hunder, hsame⟩
    · rw [hclassdump]
      exact .inr ⟨hremoved, rfl⟩
  · rw [hexclusion]
    exact .inr ⟨hremoved, rfl⟩

/-- What a run that is no dry run hands over: each path with the scan at that time. -/
def handedOver (task : Task) (world : World) : List (Path × Scan) :=
  match isInside task world, prepare task world with
  | .ok false, (.ok (), prepared) => (Walk.run (visitor task).watched task.classdump (⟨prepared, 0, 0, 0⟩, [])).2.2
  | _, _ => []

/-- All that the system is asked about, to tell whether the exclusion directory would be inside, is short enough for an
answer. -/
def Task.Answered (task : Task) (world : World) : Prop :=
  ∀ next ∈ world.asked task.classdump ++ world.asked task.exclusion.parent, next.byteLength < pathMax

/-- The working directory was not removed, or neither path is written from it. -/
def Task.Standing (task : Task) (world : World) : Prop :=
  world.workingDir.removed = [] ∨ task.classdump.isAbsolute = true ∧ task.exclusion.isAbsolute = true

theorem silent_scanDump (task : Task) (world : World) :
    (scanDump task world).2.silent = (Walk.run (visitor task) task.classdump ⟨world, 0, 0, 0⟩).2.world.silent := by
  unfold scanDump
  cases Walk.run (visitor task) task.classdump ⟨world, 0, 0, 0⟩ with
  | mk result scan =>
      cases result with
      | error raised => rfl
      | ok count =>
          dsimp only
          split
          · rfl
          · next isOpen _ => cases isOpen <;> rfl

section Exact

variable (hlegal : world.Legal) (hexclusion : task.exclusion.IsNormal) (hdump : world.IsDirAt task.classdump dump)
  (hanswered : task.Answered world)
include hlegal hexclusion hdump hanswered

/-- The check asks whether the place where the exclusion directory would be made is in the dump. -/
theorem isInside_of_vacant (h : world.Vacant task.exclusion above) (hnul : task.exclusion.hasNul = false) :
    isInside task world = .ok (decide (dump <+: above ++ [task.exclusion.name])) ∨
      world.workingDir.removed ≠ [] ∧ isInside task world = .error (.os (.refused .noEntry none none)) := by
  obtain ⟨hclassdump, hparent⟩ := List.forall_mem_append.mp hanswered
  exact isInside_of_resolves (h.resolves hlegal hexclusion hnul hparent) (hdump.resolves hlegal hclassdump)

theorem isInside_of_makable (h : world.Makable task.exclusion above) (hapart : ¬dump <+: above ++ [task.exclusion.name])
    (hstanding : task.Standing world) : isInside task world = .ok false := by
  have hfound := isInside_of_vacant hlegal hexclusion hdump hanswered h.vacant h.noNul
  rw [decide_eq_false hapart] at hfound
  refine hfound.resolve_right ?_
  rintro ⟨hremoved, herror⟩
  rcases hstanding with hthere | ⟨hclassdump, hparent⟩
  · exact hremoved hthere
  · obtain ⟨hdumpShort, hparentShort⟩ := List.forall_mem_append.mp hanswered
    have hresolved := h.vacant.resolves hlegal hexclusion h.noNul hparentShort
    unfold isInside at herror
    rw [hresolved.of_isAbsolute hparent, (hdump.resolves hlegal hdumpShort).of_isAbsolute hclassdump] at herror
    cases herror

/-- A pruning whose exclusion directory would be made in the dump is refused. -/
theorem refused_of_inside (h : world.Vacant task.exclusion above) (hinside : dump <+: above) :
    ∃ failure, run task world = (.error failure, world) ∧
      (failure = .configuration (.exclusionInside task.exclusion task.classdump) ∨
        task.exclusion.hasNul = true ∧ failure = .file .nul ∨
          world.workingDir.removed ≠ [] ∧ failure = .file (.os (.refused .noEntry none none))) := by
  cases hnul : task.exclusion.hasNul with
  | true =>
      have herror : isInside task world = .error .nul := by
        unfold isInside World.resolve
        rw [hnul]
        rfl
      refine ⟨.file .nul, ?_, .inr (.inl ⟨rfl, rfl⟩)⟩
      unfold run
      rw [herror]
  | false =>
      rcases isInside_of_vacant hlegal hexclusion hdump hanswered h hnul with hfound | ⟨hremoved, herror⟩
      · rw [decide_eq_true (hinside.trans (List.prefix_append above _))] at hfound
        refine ⟨.configuration (.exclusionInside task.exclusion task.classdump), ?_, .inl rfl⟩
        unfold run
        rw [hfound]
      · refine ⟨.file (.os (.refused .noEntry none none)), ?_, .inr (.inr ⟨hremoved, rfl⟩)⟩
        unfold run
        rw [herror]

/-- Once the exclusion directory is made, the dump and the empty exclusion tree are two places apart. -/
theorem exists_setup_of_prepare {prepared : World} (hinside : isInside task world = .ok false)
    (hprepare : prepare task world = (.ok (), prepared)) :
    ∃ above, world.Makable task.exclusion above ∧
      Setup (world.withDir (above ++ [task.exclusion.name])) task.classdump task.exclusion dump
        (above ++ [task.exclusion.name]) ∧
      prepared.silent = (world.withDir (above ++ [task.exclusion.name])).silent := by
  obtain ⟨above, hmakable, hprepared⟩ := exists_makable_of_prepare hprepare
  have hapart : ¬dump <+: above ++ [task.exclusion.name] := by
    rcases isInside_of_vacant hlegal hexclusion hdump hanswered hmakable.vacant hmakable.noNul with hfound | ⟨-, herror⟩
    · rw [hinside, Except.ok.injEq] at hfound
      exact of_decide_eq_false hfound.symm
    · rw [hinside] at herror
      cases herror
  exact ⟨above, hmakable, setup_of_makable hlegal hexclusion hdump.1 hdump.2 hmakable hapart, hprepared⟩

/-- While the dump is pruned, what is handed over are entries of the dump, with some of them set aside. -/
theorem exists_watched_of_prepare {prepared : World} (hclassdump : task.classdump.IsNormal)
    (hdry : task.dryRun = false) (hinside : isInside task world = .ok false)
    (hprepare : prepare task world = (.ok (), prepared)) :
    ∃ above base, base = world.withDir (above ++ [task.exclusion.name]) ∧ world.Makable task.exclusion above ∧
      Setup base task.classdump task.exclusion dump (above ++ [task.exclusion.name]) ∧
      (∃ moved, SetAside base dump (above ++ [task.exclusion.name]) moved (scanDump task prepared).2) ∧
      ∀ seen ∈ handedOver task world, Leaf task base dump seen.1 ∧
        ∃ moved, SetAside base dump (above ++ [task.exclusion.name]) moved seen.2.world := by
  obtain ⟨above, hmakable, hsetup, hprepared⟩ :=
    exists_setup_of_prepare hlegal hexclusion hdump hanswered hinside hprepare
  refine ⟨above, _, rfl, hmakable, hsetup, ?_⟩
  have hguided := Walk.Guided.of_traced
    (fun place (scan : Scan) => Branch task (world.withDir (above ++ [task.exclusion.name])) dump place scan.world)
    (guided_visitor hsetup hdry hclassdump (noNul_of_isInside hinside).2)
  have hstart : Underway task (world.withDir (above ++ [task.exclusion.name])) dump (above ++ [task.exclusion.name]) []
      (⟨prepared, 0, 0, 0⟩, []) :=
    ⟨(setAside_nil _ _ _).of_silent hprepared, fun _ h => absurd h List.not_mem_nil, rfl, rfl⟩
  obtain ⟨hend, hseen⟩ := hguided.watched.inv_run task.classdump (⟨prepared, 0, 0, 0⟩, [])
    (branch_root hsetup prepared) ⟨⟨[], [], hstart⟩, fun _ h => absurd h List.not_mem_nil⟩
  constructor
  · obtain ⟨calls, moved, hmoved⟩ := hend
    have haside := hmoved.aside
    rw [(Walk.run_watched (visitor task) task.classdump ⟨prepared, 0, 0, 0⟩).2] at haside
    exact ⟨moved, haside.of_silent (silent_scanDump task prepared)⟩
  · intro seen hmem
    unfold handedOver at hmem
    rw [hinside, hprepare] at hmem
    obtain ⟨hleaf, calls, moved, hmoved⟩ := hseen seen hmem
    exact ⟨hleaf, moved, hmoved.aside⟩

/-- No directory that a pruning makes is in the dump. -/
theorem not_inside_of_made (hclassdump : task.classdump.IsNormal) (hdry : task.dryRun = false) {location : Location}
    (hafter : (run task world).2.root.HasDir location) (hbefore : ¬world.root.HasDir location) :
    ¬dump <+: location := by
  unfold run at hafter
  cases hinside : isInside task world with
  | error error =>
      rw [hinside] at hafter
      exact absurd hafter hbefore
  | ok inside =>
      rw [hinside] at hafter
      cases inside with
      | true => exact absurd hafter hbefore
      | false =>
          dsimp only at hafter
          rw [hdry, if_neg Bool.false_ne_true] at hafter
          rcases prepare_cases task world with ⟨failure, hprepare⟩ | ⟨-, prepared, hprepare⟩
          · rw [hprepare] at hafter
            exact absurd hafter hbefore
          · rw [hprepare] at hafter
            obtain ⟨above, base, rfl, hmakable, hsetup, ⟨moved, haside⟩, -⟩ :=
              exists_watched_of_prepare hlegal hexclusion hdump hanswered hclassdump hdry hinside hprepare
            rcases haside.tree.made location hafter with hbase | ⟨relative, rfl, -⟩
            · by_cases hout : location = above ++ [task.exclusion.name]
              · rw [hout]
                exact hsetup.site.apart
              · rw [Node.HasDir, hmakable.bare?_of_ne hout] at hbase
                exact absurd hbase hbefore
            · exact hsetup.site.not_above relative

/-- What a pruning hands over stands in the dump and not in the exclusion directory. -/
theorem exists_standsAt_of_handedOver (hclassdump : task.classdump.IsNormal) (hdry : task.dryRun = false)
    {seen : Path × Scan} (hseen : seen ∈ handedOver task world)
    (habove : world.locateFrom linkMax task.exclusion.parent = .ok ⟨above, []⟩) :
    ∃ location, seen.2.world.StandsAt seen.1 location ∧ dump <+: location ∧
      ¬above ++ [task.exclusion.name] <+: location := by
  have hreached : isInside task world = .ok false ∧ ∃ prepared, prepare task world = (.ok (), prepared) := by
    unfold handedOver at hseen
    split at hseen
    · next hinside hprepare => exact ⟨hinside, _, hprepare⟩
    · exact absurd hseen List.not_mem_nil
  obtain ⟨hinside, prepared, hprepare⟩ := hreached
  obtain ⟨found, base, rfl, hmakable, hsetup, -, hall⟩ :=
    exists_watched_of_prepare hlegal hexclusion hdump hanswered hclassdump hdry hinside hprepare
  obtain rfl : above = found := by
    have hsame := habove.symm.trans hmakable.parent
    simpa using hsame
  obtain ⟨⟨relative, name, hpath, node, -, hnode, -⟩, moved, haside⟩ := hall seen hseen
  rw [← List.append_assoc] at hnode
  obtain ⟨n, -, hleads⟩ := haside.leads_dump hsetup (Node.hasDir_of_bare? hnode)
  refine ⟨dump ++ relative ++ [name], ⟨n, dump ++ relative, ?_, ?_⟩, ?_, ?_⟩
  · rwa [hpath, Path.parent_descend]
  · rw [hpath, Path.name_descend]
  · rw [List.append_assoc]
    exact List.prefix_append dump _
  · rw [List.append_assoc]
    exact hsetup.site.not_below (relative ++ [name])

end Exact

/-- The check for an exclusion directory in the dump is exact, whatever links there are. What a pruning makes is not in
the dump, and what it hands over is not in the exclusion directory. An exclusion directory that would be made in the
dump is refused, and one that can be made elsewhere is not. -/
theorem outside_exact (hlegal : world.Legal) (hclassdump : task.classdump.IsNormal) (hexclusion : task.exclusion.IsNormal)
    (hdump : world.IsDirAt task.classdump dump) (hanswered : task.Answered world) :
    (task.dryRun = false →
      (∀ location, (run task world).2.root.HasDir location → ¬world.root.HasDir location → ¬dump <+: location) ∧
        ∀ seen ∈ handedOver task world, ∀ above,
          world.locateFrom linkMax task.exclusion.parent = .ok ⟨above, []⟩ →
            ∃ location, seen.2.world.StandsAt seen.1 location ∧ dump <+: location ∧
              ¬above ++ [task.exclusion.name] <+: location) ∧
    (∀ above, world.Vacant task.exclusion above → dump <+: above →
      ∃ failure, run task world = (.error failure, world) ∧
        (failure = .configuration (.exclusionInside task.exclusion task.classdump) ∨
          task.exclusion.hasNul = true ∧ failure = .file .nul ∨
            world.workingDir.removed ≠ [] ∧ failure = .file (.os (.refused .noEntry none none)))) ∧
    (∀ above, world.Makable task.exclusion above → ¬dump <+: above ++ [task.exclusion.name] →
      isInside task world = .ok false ∨
        world.workingDir.removed ≠ [] ∧ isInside task world = .error (.os (.refused .noEntry none none))) := by
  refine ⟨fun hdry => ⟨fun location => ?_, fun seen hseen above => ?_⟩, fun above => ?_, fun above hmakable hapart => ?_⟩
  · exact not_inside_of_made hlegal hexclusion hdump hanswered hclassdump hdry
  · exact exists_standsAt_of_handedOver hlegal hexclusion hdump hanswered hclassdump hdry hseen
  · exact refused_of_inside hlegal hexclusion hdump hanswered
  · have hfound := isInside_of_vacant hlegal hexclusion hdump hanswered hmakable.vacant hmakable.noNul
    rwa [decide_eq_false hapart] at hfound

/-- A dump with a link that leads into it from outside. -/
def withWayIn : World where
  root := .dir [("dump", .dir [("K.class", .file [1]), ("p", .dir [])]), ("in", .link "/dump/p")]
  workingDir := ⟨[], []⟩
  home := "/"

def pruneWayIn (exclusion : String) : Task where
  classdump := .ofText "in/.."
  references := .empty
  exclusion := .ofText exclusion

/-- Over the link one path leads into the dump, although it does not look so, and another one to a neighbour whose name
starts as that of the dump. -/
theorem outside_withWayIn :
    run (pruneWayIn "in/../excl") withWayIn =
        (.error (.configuration (.exclusionInside (.ofText "in/../excl") (.ofText "in/.."))), withWayIn) ∧
      isInside (pruneWayIn "in/../../dump2") withWayIn = .ok false ∧
      (handedOver (pruneWayIn "in/../../dump2") withWayIn).length = 1 ∧
      (∀ seen ∈ handedOver (pruneWayIn "in/../../dump2") withWayIn,
        ∃ location, seen.2.world.StandsAt seen.1 location ∧ ["dump"] <+: location ∧ ¬["dump2"] <+: location) ∧
      ∀ location, (run (pruneWayIn "in/../../dump2") withWayIn).2.root.HasDir location →
        ¬withWayIn.root.HasDir location → ¬["dump"] <+: location := by
  have hlegal : withWayIn.Legal := ⟨Node.legal_of_flatten (by decide +kernel), rfl⟩
  have hdump : withWayIn.IsDirAt (.ofText "in/..") ["dump"] := ⟨by decide +kernel, rfl⟩
  have hexact := fun exclusion => @outside_exact (pruneWayIn exclusion) withWayIn ["dump"] hlegal
    (Path.isNormal_ofText "in/..") (Path.isNormal_ofText exclusion) hdump
  have hinner : (pruneWayIn "in/../excl").Answered withWayIn := by
    unfold Task.Answered
    decide +kernel
  have houter : (pruneWayIn "in/../../dump2").Answered withWayIn := by
    unfold Task.Answered
    decide +kernel
  have hvacant : withWayIn.Vacant (pruneWayIn "in/../excl").exclusion ["dump"] :=
    ⟨by decide +kernel, by decide +kernel, by decide +kernel, rfl, rfl⟩
  have hmakable : withWayIn.Makable (pruneWayIn "in/../../dump2").exclusion [] :=
    ⟨by decide +kernel, by decide +kernel, by decide +kernel, by decide +kernel, by decide +kernel, by decide +kernel,
      rfl, rfl⟩
  have hname : (pruneWayIn "in/../../dump2").exclusion.name = "dump2" := by decide +kernel
  have hapart : ¬["dump"] <+: [] ++ [(pruneWayIn "in/../../dump2").exclusion.name] := by
    rw [hname]
    decide
  obtain ⟨-, hrefused, -⟩ := hexact "in/../excl" hinner
  obtain ⟨hmade, -, hpassed⟩ := hexact "in/../../dump2" houter
  obtain ⟨hdirs, hseen⟩ := hmade rfl
  refine ⟨?_, ?_, by decide +kernel, fun seen hmem => ?_, hdirs⟩
  · obtain ⟨failure, hrun, rfl | ⟨hnul, -⟩ | ⟨hremoved, -⟩⟩ := hrefused ["dump"] hvacant (List.prefix_refl _)
    · exact hrun
    · exact absurd hnul (by decide +kernel)
    · exact absurd rfl hremoved
  · exact (hpassed [] hmakable hapart).resolve_right fun h => h.1 rfl
  · have hstands := hseen seen hmem [] hmakable.parent
    rwa [hname] at hstands

end Reconcile
end ClassDump
