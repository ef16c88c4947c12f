import ClassDump.Proofs.Relocation.Effect

/-! What the operations on files leave alone. They change the tree of files and with it the working directory, and
nothing else: what surrounds a run stays as it is, and nothing is reported but what setting a file aside says for
itself. -/

namespace ClassDump

namespace World

/-- The world without its files, and with nowhere to work. -/
def withoutFiles (world : World) : World :=
  { world with root := .dir [], workingDir := ⟨[], []⟩ }

/-- What there is besides the files after an operation that reports a change of them if it succeeds. -/
def reporting {α : Type} (world : World) (change : α → Change) : Except FileError α → World
  | .ok value => (world.report (.changed (change value))).withoutFiles
  | .error _ => world.withoutFiles

section Operations

variable (world : World) (path source target given : Path)

@[simp] theorem withoutFiles_makeDir : (world.makeDir path).2.withoutFiles = world.withoutFiles := by
  unfold makeDir
  split
  · rfl
  · dsimp only
    split
    · rfl
    · split <;> rfl

@[simp] theorem withoutFiles_settle (result : Changed Unit) :
    (makeDirsUpTo.settle path result).2.withoutFiles = result.2.withoutFiles := by
  unfold makeDirsUpTo.settle
  split
  · split <;> rfl
  · rfl

@[simp] theorem withoutFiles_makeDirsUpTo (levels : Nat) :
    (makeDirsUpTo levels world path).2.withoutFiles = world.withoutFiles := by
  induction levels generalizing world path with
  | zero =>
      have hmade := withoutFiles_makeDir world path
      rw [makeDirsUpTo]
      split
      · next heq =>
        rw [heq] at hmade
        exact hmade
      · exact (withoutFiles_settle path _).trans hmade
  | succ above ih =>
      have hmade := withoutFiles_makeDir world path
      rw [makeDirsUpTo]
      split
      · next made heq =>
        rw [heq] at hmade
        have habove := (ih made path.parent).trans hmade
        dsimp only
        split
        · next heq =>
          rw [heq] at habove
          exact habove
        · next heq =>
          rw [heq] at habove
          exact ((withoutFiles_settle path _).trans (withoutFiles_makeDir _ path)).trans habove
      · exact (withoutFiles_settle path _).trans hmade

@[simp] theorem withoutFiles_makeDirs : (world.makeDirs path).2.withoutFiles = world.withoutFiles :=
  withoutFiles_makeDirsUpTo world path _

@[simp] theorem withoutFiles_transfer (old new : Slot) (node : Node) :
    (world.transfer old new node).withoutFiles = world.withoutFiles := by
  unfold transfer
  split <;> rfl

@[simp] theorem withoutFiles_rename : (world.rename source target).2.withoutFiles = world.withoutFiles := by
  unfold rename
  split
  · rfl
  · dsimp only
    split
    · rfl
    · rfl
    · split
      · rfl
      · split
        · rfl
        · split
          · rfl
          · rfl
          · split
            · rfl
            · exact withoutFiles_transfer world _ _ _

@[simp] theorem withoutFiles_clear (place : Place) : (world.clear place).withoutFiles = world.withoutFiles := by
  unfold clear
  split <;> rfl

@[simp] theorem withoutFiles_remove : (world.remove path).withoutFiles = world.withoutFiles := by
  unfold remove
  split <;> rfl

@[simp] theorem withoutFiles_place (node : Node) : (world.place path node).withoutFiles = world.withoutFiles := by
  have hready : ((world.makeDirs path.parent).2.remove path).withoutFiles = world.withoutFiles := by
    rw [withoutFiles_remove, withoutFiles_makeDirs]
  unfold place
  dsimp only
  split
  · exact hready
  · exact hready

@[simp] theorem withoutFiles_removeTree : (world.removeTree path).2.withoutFiles = world.withoutFiles := by
  unfold removeTree
  split
  · dsimp only
    split
    · rfl
    · exact withoutFiles_clear world _
  · exact withoutFiles_remove world path

@[simp] theorem withoutFiles_copyTree : (world.copyTree source target given).2.withoutFiles = world.withoutFiles := by
  have hmade := withoutFiles_makeDir world target
  unfold copyTree
  split
  · rfl
  · rfl
  · rfl
  · rfl
  · split
    · next heq =>
      rw [heq] at hmade
      exact hmade
    · next heq =>
      rw [heq] at hmade
      rw [withoutFiles_removeTree, withoutFiles_place]
      exact hmade

@[simp] theorem withoutFiles_makeLink (goal : String) :
    (world.makeLink goal path).2.withoutFiles = world.withoutFiles := by
  unfold makeLink
  dsimp only
  split
  · rfl
  · split <;> rfl

@[simp] theorem withoutFiles_writeFile (data : Bytes) :
    (world.writeFile path data).2.withoutFiles = world.withoutFiles := by
  unfold writeFile
  dsimp only
  split
  · rfl
  · split <;> rfl

@[simp] theorem withoutFiles_copyFile : (world.copyFile source target).2.withoutFiles = world.withoutFiles := by
  unfold copyFile
  split
  · rfl
  · split
    · exact withoutFiles_writeFile world target _
    · rfl
    · rfl
    · rfl

@[simp] theorem withoutFiles_removing (result : Changed Unit) :
    (removing source result).2.withoutFiles = result.2.withoutFiles := by
  unfold removing
  split
  · exact withoutFiles_remove _ source
  · rfl

@[simp] theorem withoutFiles_copyAndRemove :
    (world.copyAndRemove source target given).2.withoutFiles = world.withoutFiles := by
  unfold copyAndRemove
  split
  · exact (withoutFiles_removing source _).trans (withoutFiles_makeLink world target _)
  · exact withoutFiles_copyTree world source target given
  · exact (withoutFiles_removing source _).trans (withoutFiles_copyFile world source target)

@[simp] theorem withoutFiles_renameWithin :
    (world.renameWithin source target).2.withoutFiles = world.withoutFiles := by
  unfold renameWithin
  split
  · rfl
  · exact withoutFiles_rename world source target

@[simp] theorem withoutFiles_copyOver : (world.copyOver source target given).2.withoutFiles = world.withoutFiles := by
  unfold copyOver
  split
  · exact withoutFiles_copyAndRemove world source target given
  · exact withoutFiles_renameWithin world source target

@[simp] theorem withoutFiles_moveAcross : (world.moveAcross source target).2.withoutFiles = world.withoutFiles := by
  unfold moveAcross
  dsimp only
  split
  · split
    · exact withoutFiles_renameWithin world source target
    · split
      · rfl
      · split
        · rfl
        · exact withoutFiles_copyOver world source _ target
  · exact withoutFiles_copyOver world source target target

@[simp] theorem withoutFiles_moveAside : (world.moveAside source target).2.withoutFiles = world.withoutFiles := by
  unfold moveAside
  split
  · split
    · exact withoutFiles_moveAcross world source target
    · exact withoutFiles_rename world source target
  · split
    · exact withoutFiles_moveAcross world source target
    · rfl

end Operations

end World

namespace Relocation

/-- Making the root of an exclusion tree reports that it was made, and nothing else. -/
theorem withoutFiles_createRoot (world : World) (exclusion : Path) : (createRoot world exclusion).2.withoutFiles =
    world.reporting (fun _ => .made exclusion) (createRoot world exclusion).1 := by
  have hmade := world.withoutFiles_makeDir exclusion
  unfold createRoot
  cases hresult : world.makeDir exclusion with
  | mk result made =>
      rw [hresult] at hmade
      cases result with
      | ok done => exact congrArg (World.report · _) hmade
      | error error => exact hmade

/-- Setting a file aside reports that it was moved, if it was, and nothing else. -/
theorem withoutFiles_relocate (world : World) (source : Path) (relative : String) (exclusion : Path) :
    (relocate world source relative exclusion).2.withoutFiles =
      world.reporting (.moved source) (relocate world source relative exclusion).1 := by
  have hmade := world.withoutFiles_makeDirs (targetOf exclusion relative).parent
  rcases relocate_stages world source relative exclusion with ⟨_, hrefused⟩ |
    ⟨-, -, ⟨_, made, hmake, hfailed⟩ | ⟨made, hmake, hmoves⟩⟩
  · rw [hrefused, World.reporting]
  · rw [hmake] at hmade
    rw [hfailed]
    exact hmade
  · rw [hmake] at hmade
    have hmoved := (made.withoutFiles_moveAside source (targetOf exclusion relative)).trans hmade
    rcases hmoves with ⟨_, moved, hmove, hfailed⟩ | ⟨moved, hmove, hdone⟩
    · rw [hmove] at hmoved
      rw [hfailed]
      exact hmoved
    · rw [hmove] at hmoved
      rw [hdone]
      exact congrArg (World.report · _) hmoved

end Relocation
end ClassDump
