import ClassDump.Proofs.Reconcile.Rehearsal

/-! What a dry run tells of the run itself. Whenever the run returns its numbers, so does the dry run from the same
world, and it changes nothing. The numbers are the same but for classes that cannot be moved, which the dry run counts
as pruned and the run skips, and for links that come to lead to a directory while the dump is pruned, which the run
passes over. For a class dump without links whose paths are short enough the numbers are the same. -/

namespace ClassDump

open Relocation

namespace Reconcile

variable {task : Task} {before : World} {dump out : Location} {moved refused turnedPruned turnedKept : List Location}
  {forecast stats : Stats}

/-- The numbers of a dry run against those of the run itself, which moved some entries, was refused some, and passed
over links that had come to lead to a directory, which the dry run counts as pruned or as kept. -/
structure Task.Foretells (task : Task) (before : World) (dump out : Location) (forecast stats : Stats)
    (moved refused turnedPruned turnedKept : List Location) : Prop where
  once : (moved ++ refused ++ turnedPruned ++ turnedKept).Nodup
  pruned : stats.pruned = moved.length
  skipped : stats.skipped = forecast.skipped + refused.length
  foretoldKept : forecast.kept = stats.kept + turnedKept.length
  foretoldPruned : forecast.pruned = stats.pruned + refused.length + turnedPruned.length
  ofMoved : ∀ relative ∈ moved, task.Prunes relative
  ofRefused : ∀ relative ∈ refused, task.Prunes relative ∧ task.Stuck before dump out moved relative
  ofTurnedPruned : ∀ relative ∈ turnedPruned, task.Prunes relative ∧ task.Turned before dump out moved relative
  ofTurnedKept : ∀ relative ∈ turnedKept, task.Keeps relative ∧ task.Turned before dump out moved relative

/-- What the two runs side by side come to tells the numbers of one from those of the other. -/
theorem Rehearsed.foretells {base : World} {marks : List (Walk.Mark Fate)} {dry real : Scan}
    (h : Rehearsed task before base dump out marks dry real)
    (hforecast : forecast.kept = dry.kept ∧ forecast.pruned = dry.pruned ∧ forecast.skipped = dry.skipped)
    (hstats : stats.kept = real.kept ∧ stats.pruned = real.pruned ∧ stats.skipped = real.skipped) :
    task.Foretells before dump out forecast stats (ofFate true .moved marks) (ofFate true .refused marks)
      (ofFate false .moved marks) (ofFate false .kept marks) := by
  obtain ⟨hdryKept, hdryPruned, hdrySkipped⟩ := hforecast
  obtain ⟨hkept, hpruned, hskipped⟩ := hstats
  have hnoted : ∀ both fate relative, relative ∈ ofFate both fate marks →
      task.Noted before dump out (ofFate true .moved marks) ⟨relative, both, fate⟩ := by
    intro both fate relative hmem
    obtain ⟨mark, hmark, ⟨rfl, rfl⟩, rfl⟩ := mem_ofFate_iff.mp hmem
    exact h.noted mark hmark
  constructor
  case once =>
    refine ((List.Nodup.append (nodup_ofFate h.once) (nodup_ofFate h.once) ?_).append (nodup_ofFate h.once) ?_).append
      (nodup_ofFate h.once) ?_
    · exact disjoint_ofFate h.once (by simp)
    · exact List.disjoint_append_left.mpr ⟨disjoint_ofFate h.once (by simp), disjoint_ofFate h.once (by simp)⟩
    · simp only [List.disjoint_append_left]
      exact ⟨⟨disjoint_ofFate h.once (by simp), disjoint_ofFate h.once (by simp)⟩, disjoint_ofFate h.once (by simp)⟩
  case pruned => rw [hpruned, h.counted.pruned]
  case skipped => rw [hskipped, hdrySkipped, h.counted.skipped, Nat.cast_add]
  case foretoldKept => rw [hdryKept, hkept, h.counted.dryKept, h.counted.kept, Nat.cast_add]
  case foretoldPruned => rw [hdryPruned, hpruned, h.counted.dryPruned, h.counted.pruned, Nat.cast_add, Nat.cast_add]
  case ofMoved => exact fun relative hmem => hnoted true .moved relative hmem
  case ofRefused => exact fun relative hmem => hnoted true .refused relative hmem
  case ofTurnedPruned => exact fun relative hmem => hnoted false .moved relative hmem
  case ofTurnedKept => exact fun relative hmem => hnoted false .kept relative hmem

/-- For a plain class dump the numbers are the same. -/
theorem Task.Foretells.eq_of_plain
    (h : task.Foretells before dump out forecast stats moved refused turnedPruned turnedKept)
    (hplain : Plain task before dump) (hfaults : before.faults = {}) :
    forecast.kept = stats.kept ∧ forecast.pruned = stats.pruned ∧ forecast.skipped = stats.skipped := by
  have hturned : ∀ relative, ¬task.Turned before dump out moved relative := by
    rintro relative ⟨⟨target, hget⟩, -⟩
    cases hplain.noLink relative _ ((Node.bare?_eq_some_iff rfl).mpr hget)
  have hrefused : refused = [] := by
    refine List.eq_nil_iff_forall_not_mem.mpr fun relative hmem => ?_
    obtain ⟨hprunes, node, hnode, hget, hstuck⟩ := h.ofRefused relative hmem
    have hbare := (Node.bare?_eq_some_iff hnode).mpr hget
    obtain ⟨hsource, htarget⟩ :=
      hplain.files relative ⟨visible_of_faultless hfaults, node, hnode, hbare⟩ (fate_eq_moved hfaults hprunes)
    rcases hstuck with ⟨hlink, -⟩ | hlong | hlong
    · rw [hplain.noLink relative node hbare] at hlink
      cases hlink
    · exact absurd hsource (Nat.not_lt.mpr hlong)
    · exact absurd htarget (Nat.not_lt.mpr hlong)
  have hturnedPruned : turnedPruned = [] :=
    List.eq_nil_iff_forall_not_mem.mpr fun relative hmem => hturned relative (h.ofTurnedPruned relative hmem).2
  have hturnedKept : turnedKept = [] :=
    List.eq_nil_iff_forall_not_mem.mpr fun relative hmem => hturned relative (h.ofTurnedKept relative hmem).2
  have hkept := h.foretoldKept
  have hpruned := h.foretoldPruned
  have hskipped := h.skipped
  rw [hturnedKept] at hkept
  rw [hrefused, hturnedPruned] at hpruned
  rw [hrefused] at hskipped
  simp only [List.length_nil, Nat.cast_zero, add_zero] at hkept hpruned hskipped
  exact ⟨hkept, hpruned, hskipped.symm⟩

/-- Progress that is never reported cannot be asked for when a scan returns. -/
theorem regular_of_scanDump {world after : World} (h : scanDump task world = (.ok stats, after)) : task.IsRegular := by
  intro hzero
  unfold scanDump at h
  split at h
  · cases h
  · rw [hzero] at h
    cases h

/-- A dry run foretells the run itself: whenever the run returns, the dry run from the same world returns and changes
nothing. It counts what the run moves, and besides what the run cannot move and links that have come to lead to a
directory when the run comes to them; for a plain class dump the numbers are the same. -/
theorem foretold_of_run {above : Location} {after : World} (hlegal : before.Legal)
    (hclassdump : task.classdump.IsNormal) (hexclusion : task.exclusion.IsNormal) (hdry : task.dryRun = false)
    (hfaults : before.faults = {}) (hdump : before.locateFrom linkMax task.classdump = .ok ⟨dump, []⟩)
    (hdir : before.root.HasDir dump) (habove : before.locateFrom linkMax task.exclusion.parent = .ok ⟨above, []⟩)
    (hapart : ¬dump <+: above ++ [task.exclusion.name]) (hrun : run task before = (.ok stats, after)) :
    ∃ forecast later moved refused turnedPruned turnedKept, run task.rehearsal before = (.ok forecast, later) ∧
      later.silent = before.silent ∧ Conserved before.root after.root dump (above ++ [task.exclusion.name]) moved ∧
      task.Foretells before dump (above ++ [task.exclusion.name]) forecast stats moved refused turnedPruned turnedKept ∧
      (Plain task before dump →
        forecast.kept = stats.kept ∧ forecast.pruned = stats.pruned ∧ forecast.skipped = stats.skipped) := by
  obtain ⟨houtside, prepared, hprepare, hscan⟩ := exists_scan_of_run hdry hrun
  obtain ⟨found, hmakable, hprepared⟩ := exists_makable_of_prepare hprepare
  obtain rfl : above = found := by
    have hsame := habove.symm.trans hmakable.parent
    simpa using hsame
  obtain ⟨hnoNul, hnul⟩ := noNul_of_isInside houtside
  have hregular := regular_of_scanDump hscan
  have hstaged := staged_of_makable hlegal hexclusion hdump hdir hmakable hapart
  have hcovers := covers_visitor hstaged hregular hdry hclassdump hnul hfaults
  have hstart : Rehearsed task before (before.withDir (above ++ [task.exclusion.name])) dump
      (above ++ [task.exclusion.name]) [] ⟨before, 0, 0, 0⟩ ⟨prepared, 0, 0, 0⟩ :=
    ⟨rfl, (setAside_nil _ _ _).of_silent hprepared, List.nodup_nil, fun _ h => absurd h List.not_mem_nil,
      ⟨rfl, rfl, rfl, rfl, rfl⟩⟩
  obtain ⟨count, visited, marks, dry, real, hdryWalk, hwalk, hend⟩ :=
    hcovers.exists_run hnul (by rw [List.append_nil]; exact hstaged.setup.site.dumpDir) hstart
  obtain ⟨_, _, hwalk', hafter, hkept, hpruned, hskipped⟩ := exists_walk_of_scanDump hscan
  obtain ⟨-, rfl⟩ := Prod.mk.inj (hwalk.symm.trans hwalk')
  obtain ⟨forecast, later, hforecast⟩ := @scanDump_ok task.rehearsal hregular hnoNul hnul before
  obtain ⟨_, _, hdryWalk', hlater, hdryKept, hdryPruned, hdrySkipped⟩ := exists_walk_of_scanDump hforecast
  obtain ⟨-, rfl⟩ := Prod.mk.inj (hdryWalk.symm.trans hdryWalk')
  have hforetells := hend.foretells ⟨hdryKept, hdryPruned, hdrySkipped⟩ ⟨hkept, hpruned, hskipped⟩
  refine ⟨forecast, later, _, _, _, _, ?_, hlater.trans hend.silent, ?_, hforetells,
    fun hplain => hforetells.eq_of_plain hplain hfaults⟩
  · have hsame : isInside task.rehearsal before = .ok false := houtside
    unfold run
    rw [hsame]
    exact hforecast
  · rw [World.root_eq_of_silent hafter]
    exact hstaged.conserved _ _ hend.aside.tree

/-- A dump with a class to keep, one to move, and a link that leads nowhere. -/
def withLostLink : World where
  root := .dir
    [("dump", .dir
      [("K.class", .file [1]),
        ("p", .dir [("L.class", .file [2]), ("q", .dir [("M.class", .link "nowhere")])])])]
  workingDir := ⟨[], []⟩
  home := "/"

def pruneLostLink : Task where
  classdump := .ofText "dump"
  references := .ofList ["K.class"]
  exclusion := .ofText "aside"

/-- The dry run counts the link as pruned; the run skips it. -/
theorem foretold_withLostLink :
    ∃ stats after forecast later moved refused turnedPruned turnedKept,
      run pruneLostLink withLostLink = (.ok stats, after) ∧
      stats = { kept := 1, pruned := 1, skipped := 1, referenceSize := 1 } ∧
      run pruneLostLink.rehearsal withLostLink = (.ok forecast, later) ∧
      forecast = { kept := 1, pruned := 2, referenceSize := 1, dryRun := true } ∧
      later.silent = withLostLink.silent ∧ Conserved withLostLink.root after.root ["dump"] ["aside"] moved ∧
      pruneLostLink.Foretells withLostLink ["dump"] ["aside"] forecast stats moved refused turnedPruned turnedKept ∧
      moved.length = 1 ∧ refused.length = 1 ∧ turnedPruned = [] ∧ turnedKept = [] := by
  have hlegal : withLostLink.Legal := ⟨Node.legal_of_flatten (by decide +kernel), rfl⟩
  have hdump : withLostLink.locateFrom linkMax pruneLostLink.classdump = .ok ⟨["dump"], []⟩ := by decide +kernel
  have habove : withLostLink.locateFrom linkMax pruneLostLink.exclusion.parent = .ok ⟨[], []⟩ := by decide +kernel
  have hname : pruneLostLink.exclusion.name = "aside" := by decide
  have hdir : withLostLink.root.HasDir ["dump"] := rfl
  have hapart : ¬["dump"] <+: [] ++ [pruneLostLink.exclusion.name] := by
    rw [hname]
    decide
  have hstats : (run pruneLostLink withLostLink).1 =
      .ok { kept := 1, pruned := 1, skipped := 1, referenceSize := 1 } := by
    decide +kernel
  have hforecast : (run pruneLostLink.rehearsal withLostLink).1 =
      .ok { kept := 1, pruned := 2, referenceSize := 1, dryRun := true } := by
    decide +kernel
  generalize hafter : (run pruneLostLink withLostLink).2 = after
  have hrun : run pruneLostLink withLostLink =
      (.ok { kept := 1, pruned := 1, skipped := 1, referenceSize := 1 }, after) := Prod.ext hstats hafter
  obtain ⟨forecast, later, moved, refused, turnedPruned, turnedKept, hdryRun, hsilent, hconserved, hforetells, -⟩ :=
    foretold_of_run hlegal (Path.isNormal_ofText "dump") (Path.isNormal_ofText "aside") rfl rfl hdump hdir habove
      hapart hrun
  rw [hdryRun] at hforecast
  obtain rfl := Except.ok.inj hforecast
  rw [hname] at hconserved hforetells
  have hpruned := hforetells.pruned
  have hskipped := hforetells.skipped
  have hkept := hforetells.foretoldKept
  have hforetold := hforetells.foretoldPruned
  refine ⟨_, after, _, later, moved, refused, turnedPruned, turnedKept, hrun, rfl, hdryRun, rfl, hsilent, hconserved,
    hforetells, ?_, ?_, List.eq_nil_of_length_eq_zero ?_, List.eq_nil_of_length_eq_zero ?_⟩
  all_goals
    dsimp only at hpruned hskipped hkept hforetold
    omega

end Reconcile
end ClassDump
