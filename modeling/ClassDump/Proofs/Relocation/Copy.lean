import ClassDump.Proofs.Relocation.Displaced
import ClassDump.Proofs.Store.Entry
import ClassDump.Proofs.Store.Silent
import ClassDump.Relocation

/-! Moving an entry by copying it and removing it then. A failure on the way leaves the world as it was, since nothing
is removed before all of it is copied. Where nothing stands at the target, the copy is the only new thing, and in the end
as much has come about as by a move in one step. -/

namespace ClassDump

namespace World

variable {world after : World} {source target path : Path} {above there : Location} {node : Node}

/-- What stood at the old location stands at the new one, and nothing else is changed. -/
structure Moved (world : World) (old new : Location) (node : Node) (after : World) : Prop where
  leaf : node.isDir = false
  was : world.root.bare? old = some node
  root : after.root.bare? = Function.update (Function.update world.root.bare? old none) new (some node)
  rest : after.silent.withRoot world.root = world.silent

theorem Moved.of_silent {later : World} {old new : Location} (h : world.Moved old new node after)
    (hsilent : later.silent = after.silent) : world.Moved old new node later := by
  rw [eq_of_silent hsilent]
  exact ⟨h.leaf, h.was, h.root, h.rest⟩

/-- A path that leads to a directory leads there after the move, unless it led over what was moved or over what it took
the place of. -/
theorem Moved.leads {n : Nat} {old new : Location} (h : world.Moved old new node after)
    (hend : world.root.DeadEnd old) (hfree : world.root.bare? new = none) (hleads : world.Leads n path there)
    (hthere : world.root.HasDir there) : after.Leads n path there := by
  have hstart : after.start path = world.start path := by
    have hworking := congrArg World.workingDir h.rest
    rw [World.start, World.start, show after.workingDir = world.workingDir from hworking]
  obtain ⟨rest, hparts, hreach⟩ := hleads
  rw [← hstart] at hparts hreach
  refine ⟨rest, hparts, hreach.of_kept (fun location other hother hnot => ?_) hthere⟩
  have hnew : location ≠ new := by
    rintro rfl
    rw [hfree] at hother
    cases hother
  have hold : location ≠ old := by
    rintro rfl
    exact hnot hend
  rw [h.root, Function.update_of_ne hnew, Function.update_of_ne hold, hother]

/-- An operation that fails leaves the world as it was. -/
def AllOrNothing (world : World) (result : Changed Unit) : Prop :=
  ∀ error, result.1 = .error error → result.2 = world

theorem allOrNothing_ok (world after : World) : world.AllOrNothing (.ok (), after) := nofun

theorem allOrNothing_error (world : World) (error : FileError) : world.AllOrNothing (.error error, world) :=
  fun _ _ => rfl

theorem allOrNothing_makeLink (world : World) (goal : String) (path : Path) :
    world.AllOrNothing (world.makeLink goal path) := by
  rw [makeLink]
  split
  · exact allOrNothing_error _ _
  · split
    · exact allOrNothing_error _ _
    · exact allOrNothing_ok _ _

theorem allOrNothing_writeFile (world : World) (path : Path) (data : Bytes) :
    world.AllOrNothing (world.writeFile path data) := by
  rw [writeFile]
  split
  · exact allOrNothing_error _ _
  · split
    · exact allOrNothing_error _ _
    · exact allOrNothing_error _ _
    · exact allOrNothing_ok _ _

theorem allOrNothing_copyFile (world : World) (source target : Path) :
    world.AllOrNothing (world.copyFile source target) := by
  rw [copyFile]
  split
  · exact allOrNothing_error _ _
  · split
    · exact allOrNothing_writeFile world target _
    · exact allOrNothing_error _ _
    · exact allOrNothing_error _ _
    · exact allOrNothing_error _ _

theorem AllOrNothing.removing {result : Changed Unit} (h : world.AllOrNothing result) (source : Path) :
    world.AllOrNothing (removing source result) := by
  rw [removing.eq_def]
  split
  · exact allOrNothing_ok _ _
  · exact h

theorem exists_of_removing {result : Changed Unit} (h : removing source result = (.ok (), after)) :
    ∃ copied, result = (.ok (), copied) := by
  obtain ⟨⟨⟩, copied⟩ := result
  · cases h
  · exact ⟨copied, rfl⟩

section Vacant

variable (h : world.Makable path above) (hname : LegalName path.name)
include h hname

theorem Makable.slot (nameless : Errno) : world.slot path nameless = .ok ⟨above, path.name, none⟩ := by
  obtain ⟨n, hn, hleads, -⟩ := exists_leads_of_locateFrom h.parent
  obtain ⟨entries, hentries⟩ := Node.hasDir_iff.mp h.parentDir
  have hchild := Path.child_name_parent h.ne_empty
  have hslot := hleads.slot hn hentries hname (hchild.symm ▸ h.short) nameless
  rwa [hchild, Node.bare?_eq_none_iff.mp h.free] at hslot

theorem Makable.locateFrom : world.locateFrom linkMax path = .error .noEntry := by
  obtain ⟨n, hn, hleads, -⟩ := exists_leads_of_locateFrom h.parent
  have hchild : path.parent.descend [path.name] = path := by
    rw [← Path.child_eq_descend, Path.child_name_parent h.ne_empty]
  have hlocate := @Leads.locateFrom_of_missing _ _ _ _ [path.name] hleads hn (hchild.symm ▸ h.short)
    (fun name hmem => List.mem_singleton.mp hmem ▸ hname.isName) h.parentDir (fun prior hprior found hfound => ?_)
    (Node.not_hasDir_of_free h.free)
  · rwa [hchild] at hlocate
  · rcases List.prefix_concat_iff.mp (show prior <+: [] ++ [path.name] from hprior) with rfl | hnil
    · rw [show above ++ ([] ++ [path.name]) = above ++ [path.name] from rfl, h.free] at hfound
      cases hfound
    · rw [List.prefix_nil.mp hnil, List.append_nil]
      exact h.parentDir

theorem Makable.makeLink (goal : String) :
    world.makeLink goal path = (.ok (), world.withRoot (world.root.put (above ++ [path.name]) (.link goal))) := by
  unfold World.makeLink
  rw [h.slot hname]
  rfl

theorem Makable.writeFile (data : Bytes) :
    world.writeFile path data = (.ok (), world.withRoot (world.root.put (above ++ [path.name]) (.file data))) := by
  have hlocation : world.writeLocation path = .ok (above ++ [path.name]) := by
    unfold World.writeLocation
    rw [h.locateFrom hname, h.slot hname]
    rfl
  unfold World.writeFile
  rw [hlocation]
  dsimp only
  rw [Node.bare?_eq_none_iff.mp h.free]
  rfl

end Vacant

namespace EntryAt

variable (h : world.EntryAt source above node)
include h

theorem copyAndRemove_of_link {goal : String} (hlink : node = .link goal) (target given : Path) :
    world.copyAndRemove source target given = removing source (world.makeLink goal target) := by
  unfold World.copyAndRemove
  rw [h.lstat, hlink]

theorem copyAndRemove_of_not_link (hlink : node.isLink = false) (target given : Path) :
    world.copyAndRemove source target given = removing source (world.copyFile source target) := by
  have hdir : world.isDir source ≠ .ok true := h.isLink_or_not_isDir.resolve_left (by simp [hlink])
  unfold World.copyAndRemove
  rw [h.lstat]
  split
  · next heq =>
    cases heq
    cases hlink
  · next htrue _ => exact absurd htrue hdir
  · rfl

theorem allOrNothing_copyAndRemove (target given : Path) :
    world.AllOrNothing (world.copyAndRemove source target given) := by
  cases hlink : node.isLink with
  | true =>
      obtain ⟨goal, hgoal⟩ := Node.isLink_iff.mp hlink
      rw [h.copyAndRemove_of_link hgoal]
      exact (allOrNothing_makeLink world goal target).removing source
  | false =>
      rw [h.copyAndRemove_of_not_link hlink]
      exact (allOrNothing_copyFile world source target).removing source

/-- What is copied to a free place and then removed is moved there. -/
theorem moved_of_copied {name : String} (hworking : world.root.HasDir world.workingDir.location)
    (hparent : world.root.HasDir there) (hfree : world.root.bare? (there ++ [name]) = none) :
    world.Moved (above ++ [source.name]) (there ++ [name]) node
      ((world.withRoot (world.root.put (there ++ [name]) node)).remove source) := by
  have hput := Node.bare?_put h.leaf hparent (Node.not_hasDir_of_free hfree)
  have hcopied : (world.withRoot (world.root.put (there ++ [name]) node)).EntryAt source above node := by
    refine h.mono rfl fun location found hfound => ?_
    change (world.root.put (there ++ [name]) node).bare? location = some found
    rw [hput, Function.update_of_ne, hfound]
    rintro rfl
    cases hfree.symm.trans hfound
  have hstands : ¬above ++ [source.name] <+: world.workingDir.location := by
    rintro ⟨rest, hrest⟩
    rw [← hrest] at hworking
    have hdir := Node.hasDir_of_hasDir_append hworking
    rw [Node.HasDir, h.there] at hdir
    cases hdir
    cases h.leaf
  have hworkingDir : world.workingDir.removedAt (above ++ [source.name]) = world.workingDir :=
    if_neg (mt List.isPrefixOf_iff_prefix.mp hstands)
  unfold World.remove
  rw [hcopied.slot]
  refine ⟨h.leaf, h.there, Node.bare?_put_erase h.leaf h.get? hparent hfree, ?_⟩
  simp only [removeAt, withRoot, silent, hworkingDir]

/-- To a free place anything but a special file is copied. -/
theorem copyAndRemove_of_free (htarget : world.Makable target there) (hname : LegalName target.name)
    (hworking : world.root.HasDir world.workingDir.location) (given : Path) :
    (node.isSpecial = false ∧ ∃ after, world.copyAndRemove source target given = (.ok (), after) ∧
        world.Moved (above ++ [source.name]) (there ++ [target.name]) node after) ∨
      (node.isSpecial = true ∧
        ∃ refusal, world.copyAndRemove source target given = (.error (.os refusal), world)) := by
  have hmoved := h.moved_of_copied hworking htarget.parentDir htarget.free
  have hapart : world.sameThing source target = false := by
    unfold World.sameThing
    rw [htarget.locateFrom hname]
    split
    · next heq => cases heq
    · rfl
  cases node with
  | dir entries => cases h.leaf
  | link goal =>
      refine .inl ⟨rfl, _, ?_, hmoved⟩
      rw [h.copyAndRemove_of_link rfl, htarget.makeLink hname]
      rfl
  | file data =>
      refine .inl ⟨rfl, _, ?_, hmoved⟩
      rw [h.copyAndRemove_of_not_link rfl, copyFile, hapart, if_neg Bool.false_ne_true, h.stat_of_not_link rfl]
      dsimp only
      rw [htarget.writeFile hname]
      rfl
  | special =>
      refine .inr ⟨rfl, .pipe source.text, ?_⟩
      rw [h.copyAndRemove_of_not_link rfl, copyFile, hapart, if_neg Bool.false_ne_true, h.stat_of_not_link rfl]
      rfl

/-- Nothing is copied to a path that leads nowhere and whose last name is in no directory. -/
theorem exists_slot_of_copyAndRemove {given : Path} {errno : Errno}
    (hmissing : world.locateFrom linkMax target = .error errno)
    (hcopy : world.copyAndRemove source target given = (.ok (), after)) :
    ∃ nameless slot, world.slot target nameless = .ok slot := by
  cases hlink : node.isLink with
  | true =>
      obtain ⟨goal, hgoal⟩ := Node.isLink_iff.mp hlink
      rw [h.copyAndRemove_of_link hgoal] at hcopy
      obtain ⟨copied, hmade⟩ := exists_of_removing hcopy
      unfold World.makeLink at hmade
      split at hmade
      · cases hmade
      · next slot hslot => exact ⟨_, slot, hslot⟩
  | false =>
      rw [h.copyAndRemove_of_not_link hlink] at hcopy
      obtain ⟨copied, hwritten⟩ := exists_of_removing hcopy
      unfold World.copyFile at hwritten
      split at hwritten
      · cases hwritten
      · split at hwritten
        · unfold World.writeFile at hwritten
          split at hwritten
          · cases hwritten
          · next location hlocation =>
            unfold World.writeLocation at hlocation
            rw [hmissing] at hlocation
            cases hslot : world.slot target .isDirectory with
            | ok slot => exact ⟨_, slot, hslot⟩
            | error other =>
                rw [hslot] at hlocation
                dsimp only [bind, Except.bind] at hlocation
                split at hlocation
                · cases hlocation
                · cases hlocation
        · cases hwritten
        · cases hwritten
        · cases hwritten

end EntryAt

end World
end ClassDump
