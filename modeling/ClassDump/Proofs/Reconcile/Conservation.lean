import ClassDump.Proofs.Reconcile.Underway

/-! Pruning loses nothing. Where the exclusion tree lies outside the class dump, the files and links after a pruning are
those before it, some of them moved from the dump to the same relative location in the exclusion tree; no directory is
gone, and new ones are in the exclusion tree only. The counts of the run tell how many entries were moved and how often
the error handler was called. -/

namespace ClassDump

open Relocation

/-- The tree after some files and links of a dump were moved to another directory, each once, and nothing else happened
to files and links. No directory is gone, and new ones are the other directory or below it. Moving back what is in the
other directory restores all files and links. -/
structure Conserved (before after : Node) (dump out : Location) (moved : List Location) : Prop where
  once : moved.Nodup
  entries : ∀ relative ∈ moved, ∃ node, node.isDir = false ∧ before.get? (dump ++ relative) = some node
  leaves : ∀ location node, node.isDir = false →
    (after.get? location = some node ↔
      (∃ relative ∈ moved, location = out ++ relative ∧ before.get? (dump ++ relative) = some node) ∨
        (before.get? location = some node ∧ ∀ relative ∈ moved, location ≠ dump ++ relative))
  dirsKept : ∀ location, before.HasDir location → after.HasDir location
  dirsMade : ∀ location, after.HasDir location → before.HasDir location ∨ out <+: location
  restores : ∀ location node, node.isDir = false →
    (before.get? location = some node ↔
      (∃ relative, location = dump ++ relative ∧ after.get? (out ++ relative) = some node) ∨
        (after.get? location = some node ∧ ¬out <+: location))

namespace Conserved

variable {before after : Node} {dump out : Location} {moved : List Location} {relative : Location} {node : Node}
  (h : Conserved before after dump out moved)
include h

/-- What was moved is in the other directory. -/
theorem get?_moved (hnode : node.isDir = false) (hmem : relative ∈ moved)
    (hget : before.get? (dump ++ relative) = some node) : after.get? (out ++ relative) = some node :=
  (h.leaves _ node hnode).mpr (.inl ⟨relative, hmem, rfl, hget⟩)

/-- What is in the dump and was not moved is where it was. -/
theorem get?_iff_not_mem (hnode : node.isDir = false) (hapart : ∀ other, dump ++ relative ≠ out ++ other)
    (hget : before.get? (dump ++ relative) = some node) :
    after.get? (dump ++ relative) = some node ↔ relative ∉ moved := by
  rw [h.leaves _ node hnode]
  constructor
  · rintro (⟨other, -, hsame, -⟩ | ⟨-, hkept⟩) hmem
    · exact hapart other hsame
    · exact hkept relative hmem rfl
  · intro hmem
    refine .inr ⟨hget, fun other hother hsame => ?_⟩
    rw [List.append_cancel_left hsame] at hmem
    exact hmem hother

end Conserved

namespace Reconcile

variable {task : Task} {world base : World} {dump out : Location}

theorem guided_visitor (hsetup : Setup base task.classdump task.exclusion dump out) (hdry : task.dryRun = false)
    (hnormal : task.classdump.IsNormal) (hnul : task.classdump.hasNul = false) :
    Walk.Guided (visitor task).traced (fun state => ∃ moved, Underway task base dump out moved state)
      (Leaf task base dump) (fun place state => Branch task base dump place state.1.world) fun _ => True where
  handed _ _ _ hstate hplace hlist _ hentry hisDir := by
    obtain ⟨moved, hstate⟩ := hstate
    exact leaf_of_listed hsetup hstate.aside hplace hlist hentry hisDir
  entered _ _ _ hstate hplace hlist _ hentry hisDir _ hlater hlink := by
    obtain ⟨moved, hstate⟩ := hstate
    obtain ⟨others, hlater⟩ := hlater
    exact branch_of_listed hsetup hstate.aside hplace hlist hentry hnormal hnul hlater.aside hisDir hlink
  visit _ _ hleaf hstate := by
    obtain ⟨relative, name, rfl, hcandidate⟩ := hleaf
    obtain ⟨moved, hstate⟩ := hstate
    exact hstate.visit hsetup hdry hcandidate
  raise _ _ _ _ _ _ := .inl trivial
  log _ _ hstate := by
    obtain ⟨moved, hstate⟩ := hstate
    exact ⟨moved, hstate.of_silent (World.silent_log _ _ _ _) rfl rfl⟩
  onError _ hhandle path error _ hstate := by
    cases hhandle
    obtain ⟨moved, hstate⟩ := hstate
    exact ⟨moved, hstate.skip path error⟩

theorem branch_root (hsetup : Setup base task.classdump task.exclusion dump out) (world : World) :
    Branch task base dump (.ofPath task.classdump) world := by
  refine ⟨[], rfl, fun _ _ => ?_⟩
  rw [List.append_nil]
  exact hsetup.site.dumpDir

end Reconcile

section Conserved

variable {world : World} {path : Path} {above dump : Location} {moved : List Location} {after : Node}

/-- The files and links are the same before and after a directory was made. -/
theorem get?_iff_withDir (h : world.Makable path above) {location : Location} {node : Node}
    (hnode : node.isDir = false) :
    (world.withDir (above ++ [path.name])).root.bare? location = some node ↔ world.root.get? location = some node := by
  rw [← Node.bare?_eq_some_iff hnode]
  by_cases hlocation : location = above ++ [path.name]
  · subst hlocation
    rw [h.free, h.bare?_withDir, Function.update_self]
    constructor
    · rintro ⟨⟩
      cases hnode
    · rintro ⟨⟩
  · rw [h.bare?_of_ne hlocation]

/-- If nothing was in the other directory before, moving back what is there restores all files and links. -/
theorem restores_of_leaves {before : Node} {out : Location}
    (hnowhere : ∀ relative node, node.isDir = false → before.get? (out ++ relative) ≠ some node)
    (hleaves : ∀ location node, node.isDir = false →
      (after.get? location = some node ↔
        (∃ relative ∈ moved, location = out ++ relative ∧ before.get? (dump ++ relative) = some node) ∨
          (before.get? location = some node ∧ ∀ relative ∈ moved, location ≠ dump ++ relative)))
    {location : Location} {node : Node} (hnode : node.isDir = false) :
    before.get? location = some node ↔
      (∃ relative, location = dump ++ relative ∧ after.get? (out ++ relative) = some node) ∨
        (after.get? location = some node ∧ ¬out <+: location) := by
  constructor
  · intro hget
    by_cases hmoved : ∃ relative ∈ moved, location = dump ++ relative
    · obtain ⟨relative, hrelative, rfl⟩ := hmoved
      exact .inl ⟨relative, rfl, (hleaves _ node hnode).mpr (.inl ⟨relative, hrelative, rfl, hget⟩)⟩
    · refine .inr ⟨(hleaves _ node hnode).mpr (.inr ⟨hget, fun relative hrelative heq => ?_⟩), ?_⟩
      · exact hmoved ⟨relative, hrelative, heq⟩
      · rintro ⟨relative, rfl⟩
        exact hnowhere relative node hnode hget
  · rintro (⟨relative, rfl, hget⟩ | ⟨hget, hout⟩)
    · rcases (hleaves _ node hnode).mp hget with ⟨other, -, hsame, hbefore⟩ | ⟨hbefore, -⟩
      · rwa [List.append_cancel_left hsame]
      · exact absurd hbefore (hnowhere relative node hnode)
    · rcases (hleaves _ node hnode).mp hget with ⟨other, -, rfl, -⟩ | ⟨hbefore, -⟩
      · exact absurd (List.prefix_append _ _) hout
      · exact hbefore

/-- What was set aside after the exclusion tree was made is conserved from before. -/
theorem conserved_of_displaced (hmakable : world.Makable path above)
    (hsite : Site (world.withDir (above ++ [path.name])).root dump (above ++ [path.name]))
    (h : Displaced (world.withDir (above ++ [path.name])).root dump (above ++ [path.name]) moved after) :
    Conserved world.root after dump (above ++ [path.name]) moved := by
  have hleaves : ∀ location node, node.isDir = false →
      (after.get? location = some node ↔
        (∃ relative ∈ moved, location = above ++ [path.name] ++ relative ∧
          world.root.get? (dump ++ relative) = some node) ∨
          (world.root.get? location = some node ∧ ∀ relative ∈ moved, location ≠ dump ++ relative)) := by
    intro location node hnode
    rw [← Node.bare?_eq_some_iff hnode, h.leaf location node hnode, get?_iff_withDir hmakable hnode]
    simp only [get?_iff_withDir hmakable hnode]
  have hnowhere : ∀ relative node, node.isDir = false →
      world.root.get? (above ++ [path.name] ++ relative) ≠ some node := by
    intro relative node hnode hget
    rw [← get?_iff_withDir hmakable hnode] at hget
    cases relative with
    | nil =>
        rw [List.append_nil, hsite.exclusionDir] at hget
        cases hget
        cases hnode
    | cons first rest =>
        rw [hsite.fresh] at hget
        cases hget
  constructor
  case once => exact h.once
  case entries =>
    intro relative hrelative
    obtain ⟨node, hnode, hbare, -⟩ := h.ends relative hrelative
    exact ⟨node, hnode, (get?_iff_withDir hmakable hnode).mp hbare⟩
  case leaves => exact hleaves
  case dirsKept => exact fun location hlocation => h.kept location (hmakable.bare?_kept hlocation)
  case dirsMade =>
    intro location hlocation
    rcases h.made location hlocation with hbase | ⟨relative, rfl, -⟩
    · by_cases hout : location = above ++ [path.name]
      · exact .inr ⟨[], by rw [hout, List.append_nil]⟩
      · rw [Node.HasDir, hmakable.bare?_of_ne hout] at hbase
        exact .inl hbase
    · exact .inr (List.prefix_append _ _)
  case restores => exact fun location node hnode => restores_of_leaves hnowhere hleaves hnode

end Conserved

namespace Reconcile

variable {task : Task} {world : World} {dump above : Location}

theorem exists_makable_of_prepare {prepared : World} (h : prepare task world = (.ok (), prepared)) :
    ∃ above, world.Makable task.exclusion above ∧
      prepared.silent = (world.withDir (above ++ [task.exclusion.name])).silent := by
  unfold prepare Relocation.createRoot at h
  cases hmake : world.makeDir task.exclusion with
  | mk result made =>
      rw [hmake] at h
      cases result with
      | error error => cases error <;> cases h
      | ok done =>
          cases h
          obtain ⟨above, hmakable, rfl⟩ := World.exists_makable_of_makeDir hmake
          exact ⟨above, hmakable, rfl⟩

theorem exists_scan_of_run {stats : Stats} {after : World} (hdry : task.dryRun = false)
    (h : run task world = (.ok stats, after)) :
    isInside task world = .ok false ∧
      ∃ prepared, prepare task world = (.ok (), prepared) ∧ scanDump task prepared = (.ok stats, after) := by
  unfold run at h
  cases hinside : isInside task world with
  | error error =>
      rw [hinside] at h
      cases h
  | ok inside =>
      rw [hinside] at h
      cases inside with
      | true => cases h
      | false =>
          dsimp only at h
          rw [hdry, if_neg Bool.false_ne_true] at h
          refine ⟨rfl, ?_⟩
          cases hprepare : prepare task world with
          | mk result prepared =>
              rw [hprepare] at h
              cases result with
              | error failure => cases h
              | ok done => exact ⟨prepared, rfl, h⟩

/-- The numbers of a scan are those at the end of its walk, and the rest of it only reports. -/
theorem exists_walk_of_scanDump {stats : Stats} {after : World} (h : scanDump task world = (.ok stats, after)) :
    ∃ count scan, Walk.run (visitor task) task.classdump ⟨world, 0, 0, 0⟩ = (.ok count, scan) ∧
      after.silent = scan.world.silent ∧ stats.kept = scan.kept ∧ stats.pruned = scan.pruned ∧
        stats.skipped = scan.skipped := by
  unfold scanDump at h
  cases hrun : Walk.run (visitor task) task.classdump ⟨world, 0, 0, 0⟩ with
  | mk result scan =>
      rw [hrun] at h
      cases result with
      | error raised => cases h
      | ok count =>
          refine ⟨count, scan, rfl, ?_⟩
          dsimp only at h
          split at h
          · cases h
          · next isOpen _ =>
            cases isOpen <;> cases h <;> exact ⟨rfl, rfl, rfl, rfl⟩

def handlerCalls (task : Task) (world : World) : List Path :=
  (Walk.run (visitor task).traced task.classdump (⟨(prepare task world).2, 0, 0, 0⟩, [])).2.2

/-- A pruning with an exclusion tree outside the class dump loses nothing, whatever links there are and whatever fails.
It moves only classes that are not referenced, and it counts what it moves and each entry that its handler is called
for, which are as many different ones. -/
theorem conserved_of_run {stats : Stats} {after : World} (hlegal : world.Legal) (hclassdump : task.classdump.IsNormal)
    (hexclusion : task.exclusion.IsNormal) (hdry : task.dryRun = false)
    (hdump : world.locateFrom linkMax task.classdump = .ok ⟨dump, []⟩) (hdir : world.root.HasDir dump)
    (habove : world.locateFrom linkMax task.exclusion.parent = .ok ⟨above, []⟩)
    (hapart : ¬dump <+: above ++ [task.exclusion.name]) (hrun : run task world = (.ok stats, after)) :
    ∃ moved, Conserved world.root after.root dump (above ++ [task.exclusion.name]) moved ∧
      (∀ relative ∈ moved, task.Prunes relative) ∧ stats.pruned = moved.length ∧
        stats.skipped = (handlerCalls task world).length ∧ (handlerCalls task world).Nodup ∧
          ∀ path ∈ handlerCalls task world, ∃ names, path = task.classdump.descend names := by
  obtain ⟨-, prepared, hprepare, hscan⟩ := exists_scan_of_run hdry hrun
  obtain ⟨count, scan, hwalk, hafter, -, hpruned, hskipped⟩ := exists_walk_of_scanDump hscan
  obtain ⟨found, hmakable, hprepared⟩ := exists_makable_of_prepare hprepare
  obtain rfl : above = found := by
    have hsame := habove.symm.trans hmakable.parent
    simpa using hsame
  have hsetup := setup_of_makable hlegal hexclusion hdump hdir hmakable hapart
  have hnul := Walk.noNul_of_run hwalk
  have hguided := guided_visitor hsetup hdry hclassdump hnul
  have hstart : Underway task (world.withDir (above ++ [task.exclusion.name])) dump (above ++ [task.exclusion.name]) []
      (⟨prepared, 0, 0, 0⟩, []) :=
    ⟨(setAside_nil _ _ _).of_silent hprepared, fun _ h => absurd h List.not_mem_nil, rfl, rfl⟩
  obtain ⟨moved, hmoved⟩ := hguided.inv_run task.classdump (⟨prepared, 0, 0, 0⟩, []) (branch_root hsetup prepared)
    ⟨[], hstart⟩
  have htraced := (Walk.run_traced (visitor task) task.classdump ⟨prepared, 0, 0, 0⟩).2
  rw [hwalk] at htraced
  have hcalls : handlerCalls task world =
      (Walk.run (visitor task).traced task.classdump (⟨prepared, 0, 0, 0⟩, [])).2.2 := by
    rw [handlerCalls, hprepare]
  have hroot : after.root = scan.world.root := World.root_eq_of_silent hafter
  obtain ⟨honce, hbelow⟩ := Walk.nodup_calls (visitor task) task.classdump ⟨prepared, 0, 0, 0⟩
  have hstats := hmoved.pruned
  have hskips := hmoved.skipped
  have htree := hmoved.aside.tree
  rw [htraced] at hstats hskips htree
  rw [hcalls, hroot, hpruned, hskipped]
  exact ⟨moved, conserved_of_displaced hmakable hsetup.site htree, hmoved.prunes, congrArg Nat.cast hstats,
    congrArg Nat.cast hskips, honce, hbelow⟩

/-- A dump with a class, a link to it, and a class that the system does not let go. -/
def withDump : World where
  root := .dir
    [("dump", .dir
      [("K.class", .file [1]),
        ("p", .dir [("L.class", .link "../K.class"), ("q", .dir [("M.class", .file [2])])])])]
  workingDir := ⟨[], []⟩
  home := "/"
  faults := { move := [("dump/p/q/M.class", ⟨13⟩)] }

theorem legal_withDump : withDump.Legal where
  root := Node.legal_of_flatten (by decide +kernel)
  workingDir := rfl

def pruneWithDump : Task where
  classdump := .ofText "dump"
  references := .empty
  exclusion := .ofText "aside"

/-- One class is moved; the link to it, which then leads nowhere, and the other class are skipped. -/
theorem conserved_withDump :
    ∃ stats after moved, run pruneWithDump withDump = (.ok stats, after) ∧ moved.length = 1 ∧ stats.skipped = 2 ∧
      Conserved withDump.root after.root ["dump"] ["aside"] moved := by
  have hstats : (run pruneWithDump withDump).1 = .ok { kept := 0, pruned := 1, skipped := 2, referenceSize := 0 } := by
    decide +kernel
  have hdump : withDump.locateFrom linkMax pruneWithDump.classdump = .ok ⟨["dump"], []⟩ := by decide +kernel
  have habove : withDump.locateFrom linkMax pruneWithDump.exclusion.parent = .ok ⟨[], []⟩ := by decide +kernel
  have hname : pruneWithDump.exclusion.name = "aside" := by decide
  have hdir : withDump.root.HasDir ["dump"] := rfl
  have hapart : ¬["dump"] <+: [] ++ [pruneWithDump.exclusion.name] := by
    rw [hname]
    decide
  generalize hafter : (run pruneWithDump withDump).2 = after
  have hrun : run pruneWithDump withDump =
      (.ok { kept := 0, pruned := 1, skipped := 2, referenceSize := 0 }, after) := Prod.ext hstats hafter
  obtain ⟨moved, hconserved, -, hpruned, -⟩ := conserved_of_run legal_withDump (Path.isNormal_ofText "dump")
    (Path.isNormal_ofText "aside") rfl hdump hdir habove hapart hrun
  rw [hname] at hconserved
  exact ⟨_, _, moved, hrun, Int.ofNat.inj hpruned.symm, rfl, hconserved⟩

end Reconcile
end ClassDump
