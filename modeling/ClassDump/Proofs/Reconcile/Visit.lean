import ClassDump.Proofs.Path.Descend
import ClassDump.Proofs.Progress.Course
import ClassDump.Reconcile

/-! The visit of an entry of a class dump, case by case. What is no class file is passed over. A class is kept, counted by
a dry run, or moved away; but for the log, a visit does nothing else. -/

namespace ClassDump.Reconcile

/-- The task reports its progress after a positive number of classes, if at all. -/
def Task.IsRegular (task : Task) : Prop :=
  task.interval ≠ some 0

theorem Scan.proceed_silent (interval : Option Nat) (scan : Scan) (listener : Listener := .mute) :
    (scan.proceed interval listener).2.world.silent = scan.world.silent ∧
      (scan.proceed interval listener).2.kept = scan.kept ∧ (scan.proceed interval listener).2.pruned = scan.pruned ∧
      (scan.proceed interval listener).2.skipped = scan.skipped := by
  rw [proceed]
  split
  · exact ⟨rfl, rfl, rfl, rfl⟩
  · split <;> exact ⟨rfl, rfl, rfl, rfl⟩

theorem Scan.proceed_eq {interval : Option Nat} (h : interval ≠ some 0) (scan : Scan) :
    ∃ after, scan.proceed interval = (.ok .proceed, after) ∧ after.world.silent = scan.world.silent ∧
      after.kept = scan.kept ∧ after.pruned = scan.pruned ∧ after.skipped = scan.skipped := by
  have hsilent := scan.proceed_silent interval
  obtain ⟨due, hdue⟩ := Progress.exists_due? h scan.total
  simp only [proceed, hdue, Reference.verdict_mute] at hsilent ⊢
  exact ⟨_, rfl, hsilent⟩

variable {task : Task}

theorem visit_of_not_isClassFile {file : Path} (h : isClassFile file = false) (scan : Scan) :
    visit task file scan = (.ok .proceed, scan) := by
  rw [visit, h, if_neg Bool.false_ne_true]

theorem visit_descend {relative : Location} (h : isClassFile (task.classdump.descend relative) = true) (scan : Scan) :
    visit task (task.classdump.descend relative) scan =
      decideOn task (task.classdump.descend relative) (Path.mk .here relative).text scan := by
  rw [visit, if_pos h, Path.relativeTo?_descend]

/-- An entry is passed over, or not below the class dump, or it is a class that is decided on. -/
theorem visit_cases (task : Task) (file : Path) (scan : Scan) (listener : Listener := .mute) :
    visit task file scan listener = (.ok .proceed, scan) ∨
      (file.relativeTo? task.classdump = none ∧
        visit task file scan listener = (.error (.own (.notBelow ⟨file, task.classdump⟩)), scan)) ∨
      isClassFile file = true ∧ ∃ relative, file.relativeTo? task.classdump = some relative ∧
        visit task file scan listener = decideOn task file relative.text scan listener := by
  unfold visit
  split
  · next hclass =>
    split
    · next relative hrelative => exact .inr (.inr ⟨hclass, relative, hrelative, rfl⟩)
    · next hrelative => exact .inr (.inl ⟨hrelative, rfl⟩)
  · exact .inl rfl

/-- What a visit raises for an error of a move. -/
def raisedBy : FileError → Raised Failure
  | .os error => .os error
  | error => .own (.file error)

section DecideOn

variable {relative : String} (file : Path) (scan : Scan)

theorem exists_decideOn_of_referenced (h : task.references.contains relative = true) (listener : Listener := .mute) :
    ∃ logged, scan.world.Logged logged ∧ decideOn task file relative scan listener =
      { scan with world := logged, kept := scan.kept + 1 }.proceed task.interval listener :=
  ⟨_, .log (.refl _) _ _ _, if_pos h⟩

theorem exists_decideOn_of_dryRun (h : task.references.contains relative = false) (hdry : task.dryRun = true)
    (listener : Listener := .mute) : ∃ logged, scan.world.Logged logged ∧ decideOn task file relative scan listener =
      { scan with world := logged, pruned := scan.pruned + 1 }.proceed task.interval listener := by
  refine ⟨_, .log (.refl _) .debug .reconciler ("Removing classdump for " ++ relative ++ ": " ++ file.text), ?_⟩
  rw [decideOn, h, if_neg Bool.false_ne_true, hdry]
  rfl

/-- Where files are moved, a class that is not referenced is counted if its move succeeds. -/
theorem exists_decideOn_of_relocate (h : task.references.contains relative = false) (hdry : task.dryRun = false)
    (listener : Listener := .mute) : ∃ logged, scan.world.Logged logged ∧ decideOn task file relative scan listener =
      match Relocation.relocate logged file relative task.exclusion with
      | (.ok _, world) => { scan with world := world, pruned := scan.pruned + 1 }.proceed task.interval listener
      | (.error error, world) => (.error (raisedBy error), { scan with world := world }) := by
  refine ⟨_, .log (.refl _) .debug .reconciler ("Removing classdump for " ++ relative ++ ": " ++ file.text), ?_⟩
  rw [decideOn, h, if_neg Bool.false_ne_true, hdry, if_neg Bool.false_ne_true, Scan.log]
  split
  · next heq => rw [heq]
  · next heq =>
    rw [heq]
    rfl
  · next error _ hother heq =>
    rw [heq]
    cases error with
    | os refusal => exact absurd rfl (hother refusal)
    | nul => rfl
    | linkLoop path => rfl

theorem decideOn_cases (task : Task) (file : Path) (relative : String) (scan : Scan) (listener : Listener := .mute) :
    ∃ logged, scan.world.Logged logged ∧
      ((∃ counted : Scan, decideOn task file relative scan listener = counted.proceed task.interval listener ∧
          counted.total = scan.total + 1 ∧
          (counted.world = logged ∨
            ∃ target, Relocation.relocate logged file relative task.exclusion = (.ok target, counted.world))) ∨
        ∃ error after, Relocation.relocate logged file relative task.exclusion = (.error error, after) ∧
          decideOn task file relative scan listener = (.error (raisedBy error), { scan with world := after })) := by
  cases hreferences : task.references.contains relative with
  | true =>
      obtain ⟨logged, hlogged, heq⟩ := exists_decideOn_of_referenced file scan hreferences listener
      exact ⟨logged, hlogged, .inl ⟨_, heq, Nat.add_right_comm _ _ _, .inl rfl⟩⟩
  | false =>
      cases hdry : task.dryRun with
      | true =>
          obtain ⟨logged, hlogged, heq⟩ := exists_decideOn_of_dryRun file scan hreferences hdry listener
          exact ⟨logged, hlogged, .inl ⟨_, heq, (Nat.add_assoc _ _ _).symm, .inl rfl⟩⟩
      | false =>
          obtain ⟨logged, hlogged, heq⟩ := exists_decideOn_of_relocate file scan hreferences hdry listener
          refine ⟨logged, hlogged, ?_⟩
          rw [heq]
          split
          · next target after hmoved => exact .inl ⟨_, rfl, (Nat.add_assoc _ _ _).symm, .inr ⟨target, hmoved⟩⟩
          · next error after hfailed => exact .inr ⟨error, after, hfailed, rfl⟩

end DecideOn

/-- What is raised at the end of a visit was raised at a report, and a refusal of the system is as good as any other. -/
theorem raised_of_proceed {interval : Option Nat} (hregular : interval ≠ some 0) {listener : Listener} {scan : Scan}
    {raised : Raised Failure} (h : (scan.proceed interval listener).1 = .error raised) :
    (∃ error, raised = .os error) ∨ ∃ failure, listener.Raises stage failure ∧ raised = .own failure := by
  obtain ⟨due, hdue⟩ := Progress.exists_due? hregular scan.total
  simp only [Scan.proceed, hdue, Reference.verdict] at h
  split at h
  · cases h
  · exact .inl ⟨_, (Except.error.inj h).symm⟩
  · next failure _ hanswer =>
    exact .inr ⟨failure, Listener.raises_of_answer hanswer rfl, (Except.error.inj h).symm⟩

end ClassDump.Reconcile
