import ClassDump.Proofs.Relocation.MakeDirs
import ClassDump.Relocation

/-! What was reported has no influence. From two worlds that differ in nothing but their reports, every operation on the
files answers the same and leads to two worlds that again differ in nothing else. -/

namespace ClassDump

/-- The same answer, and worlds that are the same up to their reports. -/
def SameOutcome {α : Type} (result other : α × World) : Prop :=
  result.1 = other.1 ∧ result.2.silent = other.2.silent

theorem SameOutcome.exists_eq {α : Type} {result other : α × World} (h : SameOutcome result other) :
    ∃ answer after later, result = (answer, after) ∧ other = (answer, later) ∧ after.silent = later.silent :=
  ⟨result.1, result.2, other.2, rfl, Prod.ext h.1.symm rfl, h.2⟩

namespace World

variable {world other : World} (h : world.silent = other.silent)
include h

theorem holder_of_silent : world.holder = other.holder := by
  rw [eq_of_silent h]
  rfl

theorem slot_of_silent : world.slot = other.slot := by
  rw [eq_of_silent h]
  rfl

theorem sameThing_of_silent : world.sameThing = other.sameThing := by
  rw [eq_of_silent h]
  rfl

theorem crosses_of_silent : world.crosses = other.crosses := by
  rw [eq_of_silent h]
  rfl

theorem writeLocation_of_silent : world.writeLocation = other.writeLocation := by
  rw [eq_of_silent h]
  rfl

theorem surrounds_of_silent : world.surrounds = other.surrounds := by
  rw [eq_of_silent h]
  rfl

theorem namelessRefusal_of_silent : world.namelessRefusal = other.namelessRefusal := by
  rw [eq_of_silent h]
  rfl

theorem sameOutcome_makeDir (path : Path) : SameOutcome (world.makeDir path) (other.makeDir path) := by
  unfold makeDir
  rw [slot_of_silent h]
  split
  · exact ⟨rfl, h⟩
  · dsimp only
    split
    · exact ⟨rfl, h⟩
    · next slot _ =>
      split
      · exact ⟨rfl, h⟩
      · exact ⟨rfl, congrArg (fun world : World => { world with root := world.root.put slot.location (.dir []) }) h⟩

omit h in
theorem sameOutcome_settle {result copy : Changed Unit} (h : SameOutcome result copy) (path : Path) :
    SameOutcome (makeDirsUpTo.settle path result) (makeDirsUpTo.settle path copy) := by
  obtain ⟨answer, after, later, rfl, rfl, hsilent⟩ := h.exists_eq
  cases answer with
  | ok done => exact ⟨rfl, hsilent⟩
  | error error =>
      cases error with
      | os error =>
          simp only [makeDirsUpTo.settle, isDir_of_silent hsilent]
          split
          · exact ⟨rfl, hsilent⟩
          · exact ⟨rfl, hsilent⟩
          · exact ⟨rfl, hsilent⟩
      | nul => exact ⟨rfl, hsilent⟩
      | linkLoop path => exact ⟨rfl, hsilent⟩

theorem sameOutcome_makeDirsUpTo (levels : Nat) (path : Path) :
    SameOutcome (makeDirsUpTo levels world path) (makeDirsUpTo levels other path) := by
  induction levels generalizing world other path with
  | zero =>
      obtain ⟨answer, after, later, hafter, hlater, hsilent⟩ := (sameOutcome_makeDir h path).exists_eq
      by_cases hmissing : ∃ shown named, answer = .error (.os (.refused .noEntry shown named))
      · obtain ⟨shown, named, rfl⟩ := hmissing
        rw [makeDirsUpTo, makeDirsUpTo, hafter, hlater]
        exact ⟨rfl, hsilent⟩
      · simp only [not_exists] at hmissing
        rw [makeDirsUpTo_eq_settle 0 (by rwa [hafter]), makeDirsUpTo_eq_settle 0 (by rwa [hlater])]
        exact sameOutcome_settle (sameOutcome_makeDir h path) path
  | succ above ih =>
      obtain ⟨answer, after, later, hafter, hlater, hsilent⟩ := (sameOutcome_makeDir h path).exists_eq
      by_cases hmissing : ∃ shown named, answer = .error (.os (.refused .noEntry shown named))
      · obtain ⟨shown, named, rfl⟩ := hmissing
        obtain ⟨result, made, copy, hmade, hcopy, hsilent'⟩ := (ih hsilent path.parent).exists_eq
        rw [makeDirsUpTo, makeDirsUpTo, hafter, hlater]
        simp only [Errno.noEntry, hmade, hcopy]
        cases result with
        | error error => exact ⟨rfl, hsilent'⟩
        | ok done => exact sameOutcome_settle (sameOutcome_makeDir hsilent' path) path
      · simp only [not_exists] at hmissing
        rw [makeDirsUpTo_eq_settle _ (by rwa [hafter]), makeDirsUpTo_eq_settle _ (by rwa [hlater])]
        exact sameOutcome_settle (sameOutcome_makeDir h path) path

theorem sameOutcome_rename (source target : Path) :
    SameOutcome (world.rename source target) (other.rename source target) := by
  unfold rename
  rw [holder_of_silent h]
  split
  · exact ⟨rfl, h⟩
  · dsimp only
    split
    · exact ⟨rfl, h⟩
    · exact ⟨rfl, h⟩
    · split
      · exact ⟨rfl, h⟩
      · split
        · exact ⟨rfl, h⟩
        · next old _ =>
          split
          · exact ⟨rfl, h⟩
          · exact ⟨rfl, h⟩
          · next node new _ _ =>
            split
            · exact ⟨rfl, h⟩
            · refine ⟨rfl, ?_⟩
              rw [eq_of_silent h]
              unfold transfer
              split <;> rfl

theorem silent_remove_eq (path : Path) : (world.remove path).silent = (other.remove path).silent := by
  unfold remove
  rw [slot_of_silent h]
  split
  · next parent name _ _ => exact congrArg (fun world : World => world.removeAt (parent ++ [name])) h
  · exact h

theorem silent_place_eq (path : Path) (node : Node) :
    (world.place path node).silent = (other.place path node).silent := by
  have hmade := (sameOutcome_makeDirsUpTo h path.parent.parts.length path.parent).2
  have hremoved := silent_remove_eq hmade path
  unfold place makeDirs
  dsimp only
  rw [slot_of_silent hremoved]
  split
  · next slot _ =>
    exact congrArg (fun world : World => { world with root := world.root.put slot.location node }) hremoved
  · exact hremoved

theorem sameOutcome_removeTree (path : Path) : SameOutcome (world.removeTree path) (other.removeTree path) := by
  unfold removeTree
  rw [locateFrom_of_silent h]
  dsimp only
  split
  · split
    · exact ⟨rfl, h⟩
    · next place _ =>
      have hcleared : (world.clear place).silent = (other.clear place).silent := by
        rw [eq_of_silent h]
        unfold clear
        split <;> rfl
      rw [namelessRefusal_of_silent hcleared]
      exact ⟨rfl, hcleared⟩
  · exact ⟨rfl, silent_remove_eq h path⟩

theorem sameOutcome_copyTree (source target given : Path) :
    SameOutcome (world.copyTree source target given) (other.copyTree source target given) := by
  unfold copyTree
  rw [surrounds_of_silent h, list_of_silent h, stat_of_silent h]
  split
  · exact ⟨rfl, h⟩
  · exact ⟨rfl, h⟩
  · exact ⟨rfl, h⟩
  · exact ⟨rfl, h⟩
  · next node _ _ _ =>
    obtain ⟨answer, after, later, hafter, hlater, hsilent⟩ := (sameOutcome_makeDir h target).exists_eq
    rw [hafter, hlater]
    cases answer with
    | error error => exact ⟨rfl, hsilent⟩
    | ok done => exact sameOutcome_removeTree (silent_place_eq hsilent target node) source

theorem sameOutcome_makeLink (goal : String) (path : Path) :
    SameOutcome (world.makeLink goal path) (other.makeLink goal path) := by
  unfold makeLink
  rw [slot_of_silent h]
  dsimp only
  split
  · exact ⟨rfl, h⟩
  · next slot _ =>
    split
    · exact ⟨rfl, h⟩
    · exact ⟨rfl, congrArg (fun world : World => { world with root := world.root.put slot.location (.link goal) }) h⟩

theorem sameOutcome_writeFile (path : Path) (data : Bytes) :
    SameOutcome (world.writeFile path data) (other.writeFile path data) := by
  unfold writeFile
  rw [writeLocation_of_silent h, root_eq_of_silent h]
  dsimp only
  split
  · exact ⟨rfl, h⟩
  · next location _ =>
    split
    · exact ⟨rfl, h⟩
    · exact ⟨rfl, h⟩
    · refine ⟨rfl, ?_⟩
      rw [eq_of_silent h]
      rfl

theorem sameOutcome_copyFile (source target : Path) :
    SameOutcome (world.copyFile source target) (other.copyFile source target) := by
  unfold copyFile
  rw [sameThing_of_silent h, stat_of_silent h]
  split
  · exact ⟨rfl, h⟩
  · split
    · exact sameOutcome_writeFile h target _
    · exact ⟨rfl, h⟩
    · exact ⟨rfl, h⟩
    · exact ⟨rfl, h⟩

omit h in
theorem sameOutcome_removing {result copy : Changed Unit} (h : SameOutcome result copy) (source : Path) :
    SameOutcome (removing source result) (removing source copy) := by
  obtain ⟨answer, after, later, rfl, rfl, hsilent⟩ := h.exists_eq
  cases answer with
  | ok done => exact ⟨rfl, silent_remove_eq hsilent source⟩
  | error error => exact ⟨rfl, hsilent⟩

theorem sameOutcome_copyAndRemove (source target given : Path) :
    SameOutcome (world.copyAndRemove source target given) (other.copyAndRemove source target given) := by
  unfold copyAndRemove
  rw [lstat_of_silent h, isDir_of_silent h]
  split
  · exact sameOutcome_removing (sameOutcome_makeLink h _ target) source
  · exact sameOutcome_copyTree h source target given
  · exact sameOutcome_removing (sameOutcome_copyFile h source target) source

theorem sameOutcome_renameWithin (source target : Path) :
    SameOutcome (world.renameWithin source target) (other.renameWithin source target) := by
  unfold renameWithin
  rw [crosses_of_silent h]
  split
  · exact ⟨rfl, h⟩
  · exact sameOutcome_rename h source target

theorem sameOutcome_copyOver (source target given : Path) :
    SameOutcome (world.copyOver source target given) (other.copyOver source target given) := by
  obtain ⟨answer, after, later, hafter, hlater, hsilent⟩ := (sameOutcome_renameWithin h source target).exists_eq
  have hcopied := sameOutcome_copyAndRemove h source target given
  unfold copyOver
  rw [hafter, hlater]
  cases answer with
  | ok done => exact ⟨rfl, hsilent⟩
  | error error =>
      cases error with
      | nul => exact ⟨rfl, hsilent⟩
      | linkLoop path => exact ⟨rfl, hsilent⟩
      | os error =>
          cases error with
          | refused errno shown named => exact hcopied
          | _ => exact ⟨rfl, hsilent⟩

theorem sameOutcome_moveAcross (source target : Path) :
    SameOutcome (world.moveAcross source target) (other.moveAcross source target) := by
  unfold moveAcross
  rw [isDir_of_silent h, sameThing_of_silent h, pathExists_of_silent h]
  dsimp only
  split
  · split
    · exact sameOutcome_renameWithin h source target
    · split
      · exact ⟨rfl, h⟩
      · split
        · exact ⟨rfl, h⟩
        · exact sameOutcome_copyOver h source _ target
  · exact sameOutcome_copyOver h source target target

theorem sameOutcome_moveAside (source target : Path) :
    SameOutcome (world.moveAside source target) (other.moveAside source target) := by
  have hfaults : world.faults = other.faults := congrArg (·.faults) h
  unfold moveAside
  rw [hfaults, crosses_of_silent h]
  split
  · split
    · exact sameOutcome_moveAcross h source target
    · exact sameOutcome_rename h source target
  · split
    · exact sameOutcome_moveAcross h source target
    · exact ⟨rfl, h⟩

end World

namespace Relocation

variable {world other : World} (h : world.silent = other.silent)
include h

theorem sameOutcome_createRoot (exclusion : Path) :
    SameOutcome (createRoot world exclusion) (createRoot other exclusion) := by
  obtain ⟨answer, after, later, hafter, hlater, hsilent⟩ := (World.sameOutcome_makeDir h exclusion).exists_eq
  unfold createRoot
  rw [hafter, hlater]
  cases answer <;> exact ⟨rfl, hsilent⟩

theorem sameOutcome_relocate (source : Path) (relative : String) (exclusion : Path) :
    SameOutcome (relocate world source relative exclusion) (relocate other source relative exclusion) := by
  unfold relocate
  rw [World.pathExists_of_silent h]
  dsimp only
  split
  · exact ⟨rfl, h⟩
  · exact ⟨rfl, h⟩
  · exact ⟨rfl, h⟩
  · exact ⟨rfl, h⟩
  · obtain ⟨answer, after, later, hafter, hlater, hsilent⟩ :=
      (World.sameOutcome_makeDirsUpTo h (targetOf exclusion relative).parent.parts.length
        (targetOf exclusion relative).parent).exists_eq
    rw [World.makeDirs, World.makeDirs, hafter, hlater]
    cases answer with
    | error error => exact ⟨rfl, hsilent⟩
    | ok done =>
        obtain ⟨result, moved, copy, hmoved, hcopy, hsilent'⟩ :=
          (World.sameOutcome_moveAside hsilent source (targetOf exclusion relative)).exists_eq
        dsimp only
        rw [hmoved, hcopy]
        cases result <;> exact ⟨rfl, hsilent'⟩

end Relocation
end ClassDump
