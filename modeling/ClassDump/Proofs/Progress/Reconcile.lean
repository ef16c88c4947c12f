import ClassDump.Proofs.Progress.Course
import ClassDump.Proofs.Reconcile.Visit
import ClassDump.Proofs.Relocation.Frame

/-! The progress of pruning a class dump. A class that was decided on is counted, and the count is reported where that
is due; what is no class file, or cannot be moved or listed, is not counted and leads to no report. -/

namespace ClassDump

theorem World.progress_reporting {α : Type} (world : World) (change : α → Change) (result : Except FileError α) :
    (world.reporting change result).progress = world.progress := by
  cases result with
  | ok value => exact (progress_report world _).trans (List.append_nil _)
  | error error => rfl

namespace Relocation

theorem progress_createRoot (world : World) (exclusion : Path) :
    (createRoot world exclusion).2.progress = world.progress :=
  (congrArg World.progress (withoutFiles_createRoot world exclusion)).trans (World.progress_reporting _ _ _)

theorem progress_relocate (world : World) (source : Path) (relative : String) (exclusion : Path) :
    (relocate world source relative exclusion).2.progress = world.progress :=
  (congrArg World.progress (withoutFiles_relocate world source relative exclusion)).trans
    (World.progress_reporting _ _ _)

end Relocation

namespace Reconcile

/-- The number of classes decided on, and the progress reported so far. -/
def Scan.tally (scan : Scan) : Nat × List Progress :=
  (scan.total, scan.world.progress)

variable {task : Task} {every : Nat}

@[simp] theorem Scan.progress_log (scan : Scan) (level : Level) (source : Source) (message : String) :
    (scan.log level source message).world.progress = scan.world.progress :=
  World.progress_log _ _ _ _

@[simp] theorem Scan.progress_reportProgress (scan : Scan) :
    scan.reportProgress.world.progress = scan.world.progress ++ [Progress.ofCount stage scan.total] :=
  World.progress_report _ _

theorem tally_skip (path : Path) (error : OsError) (scan : Scan) : (skip path error scan).tally = scan.tally :=
  Prod.ext rfl (World.progress_log _ _ _ _)

theorem progress_prepare (task : Task) (world : World) : (prepare task world).2.progress = world.progress := by
  have hcreated := Relocation.progress_createRoot world task.exclusion
  unfold prepare
  split
  · next heq =>
    rw [heq] at hcreated
    exact (World.progress_log _ _ _ _).trans hcreated
  · next heq =>
    rw [heq] at hcreated
    exact hcreated
  · next heq =>
    rw [heq] at hcreated
    exact hcreated

theorem Scan.exists_proceed (hevery : 0 < every) {before scan : Scan} (htotal : scan.total = before.total + 1)
    (hprogress : scan.world.progress = before.world.progress) :
    ∃ after, scan.proceed (some every) = (.ok .proceed, after) ∧
      after.tally = Progress.counted stage every before.tally := by
  unfold proceed
  rw [Progress.due?_eq hevery, htotal]
  dsimp only
  rw [Reference.verdict_mute]
  refine ⟨_, rfl, ?_⟩
  unfold Progress.counted tally
  by_cases hdvd : every ∣ before.total + 1
  · rw [decide_eq_true hdvd, if_pos rfl, if_pos hdvd, Scan.progress_reportProgress, htotal, hprogress]
    exact Prod.ext htotal rfl
  · rw [decide_eq_false hdvd, if_neg Bool.false_ne_true, if_neg hdvd, htotal, hprogress, List.append_nil]

/-- A class that is decided on is counted, or else it cannot be moved and no progress is reported. -/
theorem decideOn_tally (hevery : 0 < every) (hinterval : task.interval = some every) (file : Path) (relative : String)
    (scan : Scan) :
    (∃ raised after, decideOn task file relative scan = (.error raised, after) ∧ after.tally = scan.tally) ∨
      ∃ after, decideOn task file relative scan = (.ok .proceed, after) ∧
        after.tally = Progress.counted stage every scan.tally := by
  obtain ⟨logged, hlogged, ⟨counted, heq, htotal, hworld⟩ | ⟨error, after, hfailed, heq⟩⟩ :=
    decideOn_cases task file relative scan
  · have hprogress : counted.world.progress = scan.world.progress := by
      rcases hworld with rfl | ⟨target, hmoved⟩
      · exact hlogged.progress
      · have hrelocate := Relocation.progress_relocate logged file relative task.exclusion
        rw [hmoved] at hrelocate
        exact hrelocate.trans hlogged.progress
    rw [heq, hinterval]
    exact .inr (Scan.exists_proceed hevery htotal hprogress)
  · have hrelocate := Relocation.progress_relocate logged file relative task.exclusion
    rw [hfailed] at hrelocate
    exact .inl ⟨_, _, heq, Prod.ext rfl (hrelocate.trans hlogged.progress)⟩

/-- A visit counts a class and lets the walk go on, or it counts nothing and reports no progress. -/
theorem visit_tally (hevery : 0 < every) (hinterval : task.interval = some every) (file : Path) (scan : Scan) :
    (visit task file scan).2.tally = scan.tally ∨
      isClassFile file = true ∧ ∃ after, visit task file scan = (.ok .proceed, after) ∧
        after.tally = Progress.counted stage every scan.tally := by
  rcases visit_cases task file scan with heq | ⟨-, heq⟩ | ⟨hclass, relative, -, heq⟩
  · exact .inl (congrArg (fun result => result.2.tally) heq)
  · exact .inl (congrArg (fun result => result.2.tally) heq)
  · rw [heq]
    rcases decideOn_tally hevery hinterval file relative.text scan with ⟨raised, after, hfailed, hsame⟩ | hcounted
    · rw [hfailed]
      exact .inl hsame
    · exact .inr ⟨hclass, hcounted⟩

theorem tally_visit (hevery : 0 < every) (hinterval : task.interval = some every) {file : Path} {scan : Scan}
    (h : isClassFile file = false ∨ ∃ raised, (visit task file scan).1 = .error raised) :
    (visit task file scan).2.tally = scan.tally := by
  rcases visit_tally hevery hinterval file scan with hsame | ⟨hclass, after, hvisit, -⟩
  · exact hsame
  · rcases h with hother | ⟨raised, hraised⟩
    · rw [hclass] at hother
      cases hother
    · rw [hvisit] at hraised
      cases hraised

theorem counts_visitor (hevery : 0 < every) (hinterval : task.interval = some every) :
    Walk.Counts (visitor task) Scan.tally stage every where
  visit file scan := by
    rcases visit_tally hevery hinterval file scan with hsame | ⟨-, after, hvisit, hcounted⟩
    · exact .inl hsame
    · change (visit task file scan).2.tally = _ ∨ (visit task file scan).2.tally = _
      rw [hvisit]
      exact .inr hcounted
  log message scan := Prod.ext rfl (World.progress_log _ _ _ _)
  onError handle hhandle path error scan := by
    cases hhandle
    exact tally_skip path error scan

theorem progress_scanDump (hevery : 0 < every) (hinterval : task.interval = some every) {world after : World}
    {stats : Stats} (h : scanDump task world = (.ok stats, after)) :
    ∃ total : Nat, stats.kept + stats.pruned = total ∧
      after.progress = world.progress ++ Progress.course stage every total := by
  have hcourse := (counts_visitor hevery hinterval).onCourse_run task.classdump ⟨world, 0, 0, 0⟩
    (Progress.onCourse_start world.progress)
  unfold scanDump at h
  split at h
  · cases h
  · next scan heq =>
    rw [heq] at hcourse
    have hlast : (if !decide (every ∣ scan.total) then scan.reportProgress else scan).world.progress =
        world.progress ++ Progress.course stage every scan.total := by
      rw [← hcourse.complete, apply_ite fun last : Scan => last.world.progress, Scan.progress_reportProgress]
    rw [hinterval, Progress.open?_eq hevery] at h
    dsimp only at h
    rw [Listener.answer_mute] at h
    cases h
    refine ⟨scan.total, ?_, ?_⟩
    · split <;> exact (Int.natCast_add _ _).symm
    · rw [Scan.progress_log, Scan.progress_log, hlast]

/-- A pruning that returns has reported its whole course, and no other progress. -/
theorem progress_run (hevery : 0 < every) (hinterval : task.interval = some every) {world after : World}
    {stats : Stats} (h : run task world = (.ok stats, after)) :
    ∃ total : Nat, stats.kept + stats.pruned = total ∧
      after.progress = world.progress ++ Progress.course stage every total := by
  unfold run at h
  split at h
  · cases h
  · cases h
  · split at h
    · exact progress_scanDump hevery hinterval h
    · have hprepared := progress_prepare task world
      split at h
      · cases h
      · next heq =>
        rw [heq] at hprepared
        rw [← hprepared]
        exact progress_scanDump hevery hinterval h

end Reconcile
end ClassDump
