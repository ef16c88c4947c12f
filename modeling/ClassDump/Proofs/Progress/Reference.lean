import ClassDump.Proofs.Progress.Course
import ClassDump.Proofs.Reference.Sequence

/-! The progress of a reference scan. Each class that was keyed is counted, and the count is reported where that is due;
what is no class file, and a class without a key, is not counted and leads to no report. If the source of class bytes
leaves the files alone, the final count is the number of class files below the roots. -/

namespace ClassDump

namespace Reference

variable {ρ : Type}

/-- The number of classes keyed, and the progress reported so far. -/
def Scan.tally (scan : Scan ρ) : Nat × List Progress :=
  (scan.processed, scan.world.progress)

@[simp] theorem Scan.progress_log (scan : Scan ρ) (source : Source) (message : String) :
    (scan.log source message).world.progress = scan.world.progress :=
  World.progress_log _ _ _ _

@[simp] theorem Scan.progress_reportProgress (scan : Scan ρ) :
    scan.reportProgress.world.progress = scan.world.progress ++ [Progress.ofCount stage scan.processed] :=
  World.progress_report _ _

/-- The source of class bytes reports no progress of its own. -/
def Task.Unreported (task : Task ρ) : Prop :=
  ∀ source world resource, (task.read source world resource).2.2.progress = world.progress

theorem unreported_of_logged {task : Task ρ}
    (h : ∀ source world resource, World.Logged world (task.read source world resource).2.2) : task.Unreported :=
  fun source world resource => (h source world resource).progress

variable {task : Task ρ} {every : Nat} (hread : task.Unreported)
include hread

theorem tally_keyFor (file root : Path) (scan : Scan ρ) : (keyFor task file root scan).2.tally = scan.tally := by
  obtain ⟨hprogress, -, hprocessed⟩ := keyFor_keeps World.progress World.Logged.progress hread file root scan
  exact Prod.ext hprocessed hprogress

variable (hevery : 0 < every) (hinterval : task.interval = some every)
include hevery hinterval

theorem visit_tally (root file : Path) (scan : Scan ρ) :
    isClassFile file = false ∧ visit task root file scan = (.ok .proceed, scan) ∨
      isClassFile file = true ∧
        ((∃ failure next, visit task root file scan = (.error (.own failure), next) ∧ next.tally = scan.tally) ∨
          ∃ next, visit task root file scan = (.ok .proceed, next) ∧
            next.tally = Progress.counted stage every scan.tally) := by
  cases hclass : isClassFile file with
  | false => exact .inl ⟨rfl, visit_of_not_isClassFile hclass scan⟩
  | true =>
      refine .inr ⟨rfl, ?_⟩
      have hkeyed := tally_keyFor hread file root scan
      cases hkey : keyFor task file root scan with
      | mk result next =>
          rw [hkey] at hkeyed
          cases result with
          | error failure => exact .inl ⟨failure, next, visit_of_keyFor_error hclass hkey, hkeyed⟩
          | ok key =>
              have hdue := Progress.due?_eq hevery (next.processed + 1)
              rw [← hinterval] at hdue
              refine .inr ⟨_, visit_of_keyFor_ok hclass hkey hdue, ?_⟩
              rw [← hkeyed]
              unfold Progress.counted Scan.tally
              by_cases hdvd : every ∣ next.processed + 1
              · rw [decide_eq_true hdvd, if_pos rfl, if_pos hdvd, Scan.progress_reportProgress]
                rfl
              · rw [decide_eq_false hdvd, if_neg Bool.false_ne_true, if_neg hdvd, List.append_nil]
                rfl

/-- What is no class file, and a visit that fails, neither counts nor leads to a report. -/
theorem tally_visit {root file : Path} {scan : Scan ρ}
    (h : isClassFile file = false ∨ ∃ raised, (visit task root file scan).1 = .error raised) :
    (visit task root file scan).2.tally = scan.tally := by
  rcases visit_tally hread hevery hinterval root file scan with ⟨-, hvisit⟩ | ⟨hclass, ⟨_, next, hvisit, hsame⟩ |
    ⟨next, hvisit, -⟩⟩
  · rw [hvisit]
  · rwa [hvisit]
  · rcases h with hother | ⟨raised, hraised⟩
    · rw [hclass] at hother
      cases hother
    · rw [hvisit] at hraised
      cases hraised

theorem counts_visitor (root : Path) : Walk.Counts (visitor task root) Scan.tally stage every where
  visit file scan := by
    change (visit task root file scan).2.tally = _ ∨ (visit task root file scan).2.tally = _
    rcases visit_tally hread hevery hinterval root file scan with ⟨-, hvisit⟩ | ⟨-, ⟨_, next, hvisit, hsame⟩ |
      ⟨next, hvisit, hcounted⟩⟩
    · rw [hvisit]
      exact .inl rfl
    · rw [hvisit]
      exact .inl hsame
    · rw [hvisit]
      exact .inr hcounted
  log message scan := Prod.ext rfl (World.progress_log _ _ _ _)
  onError _ hnone := by cases hnone

theorem onCourse_scanRoots {start : List Progress} (roots : List Path) (scan : Scan ρ)
    (hscan : Progress.OnCourse stage every start scan.tally) :
    Progress.OnCourse stage every start (scanRoots task roots scan).2.tally := by
  induction roots generalizing scan with
  | nil => exact hscan
  | cons root rest ih =>
      have hlogged : (scan.log .reference ("Checking local classes: " ++ root.text)).tally = scan.tally :=
        Prod.ext rfl (Scan.progress_log _ _ _)
      have hrun := (counts_visitor hread hevery hinterval root).onCourse_run root _ (hlogged.symm ▸ hscan)
      rw [scanRoots]
      split
      · next heq =>
        rw [heq] at hrun
        exact hrun
      · next heq =>
        rw [heq] at hrun
        exact ih _ hrun

/-- A build that returns has reported the whole course of the classes that its scan has processed, and no other
progress. -/
theorem progress_build {roots : List Path} {source left : ρ} {world after : World} {references : ReferenceSet}
    (h : build task roots source world = (.ok references, left, after)) :
    ∃ scan, scanRoots task roots { world := world, source := source } = (.ok (), scan) ∧
      after.progress = world.progress ++ Progress.course stage every scan.processed := by
  have hcourse := onCourse_scanRoots hread hevery hinterval roots { world := world, source := source }
    (Progress.onCourse_start world.progress)
  unfold build at h
  split at h
  · cases h
  · next scan heq =>
    rw [heq] at hcourse
    have hlast : (if !decide (every ∣ scan.processed) then scan.reportProgress else scan).world.progress =
        world.progress ++ Progress.course stage every scan.processed := by
      rw [← hcourse.complete, apply_ite fun last : Scan ρ => last.world.progress, Scan.progress_reportProgress]
    rw [hinterval, Progress.open?_eq hevery] at h
    dsimp only at h
    rw [Listener.answer_mute] at h
    dsimp only at h
    generalize (if !decide (every ∣ scan.processed) then scan.reportProgress else scan) = last at h hlast
    refine ⟨scan, heq, ?_⟩
    split at h
    · cases h
    · cases h
      rw [Scan.progress_log, hlast]

section Classes

/-- Going along encounters counts the class files among them, unless one without a key ends the scan. -/
theorem processed_each (root : Path) (encounters : List Walk.Encounter) (state : Walk.State (Scan ρ)) :
    (∃ raised, (Walk.each (Walk.meet (visitor task root) root) encounters state).1 = .stopped raised) ∨
      (Walk.each (Walk.meet (visitor task root) root) encounters state).1 = .onward ∧
        (Walk.each (Walk.meet (visitor task root) root) encounters state).2.inner.processed =
          state.inner.processed +
            ((Walk.entriesOf encounters).filter fun relative => isClassFile (root.descend relative)).length := by
  induction encounters generalizing state with
  | nil => exact .inr ⟨rfl, rfl⟩
  | cons encounter rest ih =>
      cases encounter with
      | unlisted relative error => exact ih _
      | entry relative =>
          rw [Walk.entriesOf_cons_entry, Walk.each, Walk.meet]
          rcases visit_tally hread hevery hinterval root (root.descend relative) state.inner with
            ⟨hclass, hvisit⟩ | ⟨hclass, ⟨_, next, hvisit, -⟩ | ⟨next, hvisit, hcounted⟩⟩
          · rw [List.filter_cons_of_neg (by simp [hclass]), Walk.hand_of_proceed hvisit]
            exact ih _
          · rw [Walk.hand_of_own hvisit]
            exact .inl ⟨_, rfl⟩
          · have hnext : next.processed = state.inner.processed + 1 := congrArg Prod.fst hcounted
            rw [List.filter_cons_of_pos (by simpa using hclass), Walk.hand_of_proceed hvisit, List.length_cons]
            rcases ih ⟨next, state.visited + 1⟩ with hstopped | ⟨honward, hrest⟩
            · exact .inl hstopped
            · refine .inr ⟨honward, hrest.trans ?_⟩
              rw [hnext, Nat.add_assoc, Nat.add_comm 1]

variable {base : World}
  (hfiles : ∀ source world resource, (task.read source world resource).2.2.silent = World.silent world)
include hfiles

/-- A walk that goes through a class directory counts the class files below it. -/
theorem processed_run {root : Path} {scan after : Scan ρ} {count : Nat} (hscan : scan.world.silent = base.silent)
    (h : Walk.run (visitor task root) root scan = (.ok count, after)) :
    after.processed = scan.processed + (classesBelow base root).length ∧ after.world.silent = base.silent := by
  have hkeeps := keeps_visitor hfiles root base
  have hsilent := hkeeps.guided.inv_run root scan trivial hscan
  have hwatches : Walk.Watches (visitor task root) base (·.world.silent = base.silent) := ⟨hkeeps, fun _ hsame => hsame⟩
  have hprocessed := processed_each hread hevery hinterval root (Walk.itinerary base false root pathMax []) ⟨scan, 0⟩
  rw [h] at hsilent
  refine ⟨?_, hsilent⟩
  rw [hwatches.run_eq (Walk.noNul_of_run h) hscan, show (visitor task root).followLinks = false from rfl] at h
  generalize Walk.each (Walk.meet (visitor task root) root) (Walk.itinerary base false root pathMax []) ⟨scan, 0⟩ =
    result at h hprocessed
  obtain ⟨flow, next⟩ := result
  rcases hprocessed with ⟨raised, rfl⟩ | ⟨rfl, hcount⟩
  · cases h
  · cases h
    exact hcount

/-- A scan that goes through all class directories counts the class files below them. -/
theorem processed_scanRoots (roots : List Path) {scan after : Scan ρ} (hscan : scan.world.silent = base.silent)
    (h : scanRoots task roots scan = (.ok (), after)) :
    after.processed = scan.processed + (roots.flatMap (classesBelow base)).length := by
  induction roots generalizing scan with
  | nil =>
      cases h
      rfl
  | cons root rest ih =>
      have hlogged : (scan.log .reference ("Checking local classes: " ++ root.text)).world.silent = base.silent := hscan
      rw [scanRoots] at h
      split at h
      · cases h
      · next hrun =>
        obtain ⟨hcount, hsilent⟩ := processed_run hread hevery hinterval hfiles hlogged hrun
        rw [ih hsilent h, hcount, List.flatMap_cons, List.length_append, Nat.add_assoc]
        rfl

end Classes

end Reference
end ClassDump
