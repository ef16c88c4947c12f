import ClassDump.Proofs.Store.Leads
import ClassDump.Proofs.Text.Pieces
import ClassDump.Relocation

/-! Setting a file aside fails, if at all, by a refusal of the system: where no path holds a NUL, every operation on
files answers with success or with an error number, so that a handler of such errors sees every failure. -/

namespace ClassDump

namespace Path

theorem hasNul_eq_false_iff {path : Path} : path.hasNul = false ↔ ∀ part ∈ path.parts, '\x00' ∉ part.toList := by
  simp [hasNul]

theorem hasNul_child (path : Path) (name : String) :
    (path.child name).hasNul = (path.hasNul || name.toList.contains '\x00') := by
  simp [hasNul]

theorem hasNul_parent {path : Path} (h : path.hasNul = false) : path.parent.hasNul = false := by
  rw [hasNul_eq_false_iff] at h ⊢
  exact fun part hpart => h part (List.dropLast_subset _ hpart)

theorem nul_not_mem_text {path : Path} (h : path.hasNul = false) : '\x00' ∉ path.text.toList := by
  rw [hasNul_eq_false_iff] at h
  rw [text]
  split
  · decide
  · rw [String.toList_append, List.mem_append, not_or]
    constructor
    · cases path.anchor <;> decide
    · intro hmem
      rcases Text.mem_toList_intercalate hmem with hsep | ⟨part, hpart, hc⟩
      · exact absurd hsep (by decide)
      · exact h part hpart hc

theorem hasNul_relativeTo {path ancestor relative : Path} (h : path.hasNul = false)
    (hrelative : path.relativeTo? ancestor = some relative) : relative.hasNul = false := by
  rw [relativeTo?] at hrelative
  split at hrelative
  · cases hrelative
    rw [hasNul_eq_false_iff] at h ⊢
    exact fun part hpart => h part (List.drop_subset _ _ hpart)
  · cases hrelative

end Path

namespace Relocation

theorem hasNul_targetOf {exclusion : Path} (hexclusion : exclusion.hasNul = false) {relative : String}
    (hrelative : '\x00' ∉ relative.toList) : (targetOf exclusion relative).hasNul = false := by
  rw [Path.hasNul_eq_false_iff] at hexclusion ⊢
  intro part hpart
  rcases List.mem_append.mp hpart with hpart | hpart
  · exact hexclusion part hpart
  · exact fun hmem => hrelative (Text.mem_of_mem_splitAt (List.mem_filter.mp hpart).1 hmem).1

end Relocation

namespace World

/-- An operation fails, if at all, by a refusal of the system. -/
def RefusedOnly {α : Type} (result : Changed α) : Prop :=
  ∀ error, result.1 = .error error → ∃ refusal, error = .os refusal

theorem refusedOnly_ok {α : Type} (value : α) (world : World) : RefusedOnly (.ok value, world) := nofun

theorem refusedOnly_os {α : Type} (error : OsError) (world : World) :
    RefusedOnly ((.error (.os error), world) : Changed α) :=
  fun _ h => ⟨error, (Except.error.inj h).symm⟩

theorem refusedOnly_makeDir (world : World) {path : Path} (hpath : path.hasNul = false) :
    RefusedOnly (world.makeDir path) := by
  rw [makeDir, hpath]
  dsimp only
  rw [if_neg Bool.false_ne_true]
  split
  · exact refusedOnly_os _ _
  · split
    · exact refusedOnly_os _ _
    · exact refusedOnly_ok _ _

theorem refusedOnly_settle {path : Path} {result : Changed Unit} (h : RefusedOnly result) :
    RefusedOnly (makeDirsUpTo.settle path result) := by
  rw [makeDirsUpTo.settle.eq_def]
  split
  · split
    · exact refusedOnly_ok _ _
    · exact refusedOnly_os _ _
    · exact refusedOnly_os _ _
  · exact h

theorem refusedOnly_makeDirsUpTo (levels : Nat) (world : World) {path : Path} (hpath : path.hasNul = false) :
    RefusedOnly (makeDirsUpTo levels world path) := by
  induction levels generalizing world path with
  | zero =>
      rw [makeDirsUpTo]
      split
      · exact refusedOnly_os _ _
      · exact refusedOnly_settle (refusedOnly_makeDir world hpath)
  | succ above ih =>
      rw [makeDirsUpTo]
      split
      · next made _ =>
        have habove := ih made (Path.hasNul_parent hpath)
        dsimp only
        split
        · next heq =>
          rw [heq] at habove
          intro error h
          exact habove error h
        · exact refusedOnly_settle (refusedOnly_makeDir _ hpath)
      · exact refusedOnly_settle (refusedOnly_makeDir world hpath)

theorem refusedOnly_rename (world : World) {source target : Path} (hsource : source.hasNul = false)
    (htarget : target.hasNul = false) : RefusedOnly (world.rename source target) := by
  rw [rename, hsource, htarget]
  simp only [Bool.or_self, Bool.false_eq_true, if_false]
  split
  · exact refusedOnly_os _ _
  · exact refusedOnly_os _ _
  · split
    · exact refusedOnly_os _ _
    · split
      · exact refusedOnly_os _ _
      · split
        · exact refusedOnly_os _ _
        · exact refusedOnly_os _ _
        · split
          · exact refusedOnly_os _ _
          · exact refusedOnly_ok _ _

theorem refusedOnly_removeTree (world : World) (path : Path) : RefusedOnly (world.removeTree path) := by
  rw [removeTree]
  dsimp only
  split
  · split
    · exact refusedOnly_os _ _
    · exact refusedOnly_os _ _
  · exact refusedOnly_ok _ _

theorem refusedOnly_copyTree (world : World) (source given : Path) {target : Path} (htarget : target.hasNul = false) :
    RefusedOnly (world.copyTree source target given) := by
  have hmade := refusedOnly_makeDir world htarget
  rw [copyTree]
  split
  · exact refusedOnly_os _ _
  · exact refusedOnly_os _ _
  · exact refusedOnly_os _ _
  · exact refusedOnly_os _ _
  · split
    · next heq =>
      rw [heq] at hmade
      exact hmade
    · exact refusedOnly_removeTree _ _

theorem refusedOnly_makeLink (world : World) (goal : String) (path : Path) : RefusedOnly (world.makeLink goal path) := by
  rw [makeLink]
  split
  · exact refusedOnly_os _ _
  · split
    · exact refusedOnly_os _ _
    · exact refusedOnly_ok _ _

theorem refusedOnly_writeFile (world : World) (path : Path) (data : Bytes) :
    RefusedOnly (world.writeFile path data) := by
  rw [writeFile]
  split
  · exact refusedOnly_os _ _
  · split
    · exact refusedOnly_os _ _
    · exact refusedOnly_os _ _
    · exact refusedOnly_ok _ _

theorem refusedOnly_copyFile (world : World) (source target : Path) : RefusedOnly (world.copyFile source target) := by
  rw [copyFile]
  split
  · exact refusedOnly_os _ _
  · split
    · exact refusedOnly_writeFile world target _
    · exact refusedOnly_os _ _
    · exact refusedOnly_os _ _
    · exact refusedOnly_os _ _

theorem refusedOnly_copyAndRemove (world : World) (source given : Path) {target : Path}
    (htarget : target.hasNul = false) : RefusedOnly (world.copyAndRemove source target given) := by
  have hremoving {copied : Changed Unit} (h : RefusedOnly copied) : RefusedOnly (removing source copied) := by
    rw [removing.eq_def]
    split
    · exact refusedOnly_ok _ _
    · exact h
  rw [copyAndRemove]
  split
  · exact hremoving (refusedOnly_makeLink world _ target)
  · exact refusedOnly_copyTree world source given htarget
  · exact hremoving (refusedOnly_copyFile world source target)

theorem refusedOnly_renameWithin (world : World) {source target : Path} (hsource : source.hasNul = false)
    (htarget : target.hasNul = false) : RefusedOnly (world.renameWithin source target) := by
  rw [renameWithin]
  split
  · exact refusedOnly_os _ _
  · exact refusedOnly_rename world hsource htarget

theorem refusedOnly_copyOver (world : World) (given : Path) {source target : Path} (hsource : source.hasNul = false)
    (htarget : target.hasNul = false) : RefusedOnly (world.copyOver source target given) := by
  rw [copyOver]
  split
  · exact refusedOnly_copyAndRemove world source given htarget
  · exact refusedOnly_renameWithin world hsource htarget

theorem refusedOnly_moveAcross (world : World) {source target : Path} (hsource : source.hasNul = false)
    (htarget : target.hasNul = false) : RefusedOnly (world.moveAcross source target) := by
  have hname : ¬isNameless source → (target.child source.name).hasNul = false := by
    intro hnameless
    have hmem : source.name ∈ source.parts := Path.name_mem_parts fun hempty => by
      simp [isNameless, hempty] at hnameless
    rw [Path.hasNul_child, htarget, Bool.false_or, List.contains_eq_mem, decide_eq_false_iff_not]
    exact Path.hasNul_eq_false_iff.mp hsource _ hmem
  rw [moveAcross]
  dsimp only
  split
  · split
    · exact refusedOnly_renameWithin world hsource htarget
    · split
      · exact refusedOnly_os _ _
      · next hnameless =>
        split
        · exact refusedOnly_os _ _
        · exact refusedOnly_copyOver world target hsource (hname hnameless)
  · exact refusedOnly_copyOver world target hsource htarget

theorem refusedOnly_moveAside (world : World) {source target : Path} (hsource : source.hasNul = false)
    (htarget : target.hasNul = false) : RefusedOnly (world.moveAside source target) := by
  rw [moveAside]
  split
  · split
    · exact refusedOnly_moveAcross world hsource htarget
    · exact refusedOnly_rename world hsource htarget
  · split
    · exact refusedOnly_moveAcross world hsource htarget
    · exact refusedOnly_os _ _

end World

namespace Relocation

/-- Setting a file aside fails by a refusal of the system only. A source with a NUL is not there to begin with. -/
theorem refusedOnly_relocate (world : World) (source : Path) {relative : String} {exclusion : Path}
    (hexclusion : exclusion.hasNul = false) (hrelative : source.hasNul = false → '\x00' ∉ relative.toList) :
    World.RefusedOnly (relocate world source relative exclusion) := by
  cases hsource : source.hasNul with
  | true =>
      have hmissing : world.pathExists source = .ok false := World.ask_of_hasNul hsource fun _ => true
      rw [relocate, hmissing]
      exact World.refusedOnly_os _ _
  | false =>
      have htarget := hasNul_targetOf hexclusion (hrelative hsource)
      have hdirs := World.refusedOnly_makeDirsUpTo (targetOf exclusion relative).parent.parts.length world
        (Path.hasNul_parent htarget)
      rw [relocate]
      split
      · exact World.refusedOnly_os _ _
      · exact World.refusedOnly_os _ _
      · exact World.refusedOnly_os _ _
      · exact World.refusedOnly_os _ _
      · split
        · next heq =>
          rw [World.makeDirs] at heq
          rw [heq] at hdirs
          intro error h
          cases h
          exact hdirs _ rfl
        · next made heq =>
          have hmoved := World.refusedOnly_moveAside made hsource htarget
          split
          · next hfailed =>
            rw [hfailed] at hmoved
            intro error h
            cases h
            exact hmoved _ rfl
          · exact World.refusedOnly_ok _ _

end Relocation
end ClassDump
