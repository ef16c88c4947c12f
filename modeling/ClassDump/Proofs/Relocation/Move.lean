import ClassDump.Proofs.Relocation.Copy

/-! Moving one entry, whatever else is in the world. A move fails and nothing is done, or it goes to a slot in which no
directory stands, and takes the place of what is there. To a free place an entry is moved unless the system refuses that,
and to another device, where it is copied, as well as on the same. -/

namespace ClassDump

/-- The system is about to refuse to move what the path names, or cannot copy it to where it would go. -/
def Relocation.Faulty (world : World) (path : Path) : Prop :=
  (∃ errno, world.faults.move.lookup path.text = some errno ∧ errno ≠ .crossDevice) ∨
    (path.text ∈ world.faults.apart ∧ world.lstat path = .ok .special)

theorem Relocation.not_faulty_of_faultless {world : World} (hfaults : world.faults = {}) (path : Path) :
    ¬Relocation.Faulty world path := by
  unfold Relocation.Faulty
  rw [hfaults]
  rintro (⟨errno, ⟨⟩, -⟩ | ⟨⟨⟩, -⟩)

namespace World

variable {world after : World} {source target path : Path} {above there : Location} {node : Node}

theorem moved_transfer {old new : Slot} (hworking : world.root.HasDir world.workingDir.location)
    (hleaf : node.isDir = false) (hwas : world.root.get? old.location = some node)
    (hparent : world.root.HasDir new.parent) (hplace : ¬world.root.HasDir new.location) :
    world.Moved old.location new.location node (world.transfer old new node) := by
  have hbare := (Node.bare?_eq_some_iff hleaf).mpr hwas
  have hkept : ∀ location, ¬world.root.HasDir location → ¬location <+: world.workingDir.location := by
    rintro location hnot ⟨rest, hrest⟩
    rw [← hrest] at hworking
    exact hnot (Node.hasDir_of_hasDir_append hworking)
  have hold : ¬world.root.HasDir old.location := by
    rw [Node.HasDir, hbare]
    rintro ⟨⟩
    cases hleaf
  unfold World.transfer
  split
  · next hsame =>
    refine ⟨hleaf, hbare, ?_, rfl⟩
    rw [← hsame, Function.update_idem, ← hbare, Function.update_eq_self]
  · have hold' := hkept _ hold
    have hnew' := hkept _ hplace
    rw [← List.isPrefixOf_iff_prefix] at hold' hnew'
    refine ⟨hleaf, hbare, Node.bare?_erase_put hleaf hwas hparent hplace, ?_⟩
    simp only [Place.removedAt, Place.moved, if_neg hold', if_neg hnew', World.silent, World.withRoot]

/-- A rename goes through where both slots are found, the source is there and nothing speaks against the target. -/
theorem rename_of_slots {old new : Slot} (hsource : source.hasNul = false) (htarget : target.hasNul = false)
    (hold : world.slot source .busy = .ok old) (hnew : world.slot target .busy = .ok new) (hnode : old.node = some node)
    (hrefusal : moveRefusal old new node = none) :
    world.rename source target = (.ok (), world.transfer old new node) := by
  obtain ⟨oldHolder, holdHolder, holdSlot⟩ := exists_holder_of_slot hold
  obtain ⟨newHolder, hnewHolder, hnewSlot⟩ := exists_holder_of_slot hnew
  have hnamed := isNameless_of_slot hold
  have hnamed' := isNameless_of_slot hnew
  unfold World.rename
  simp only [hsource, htarget, holdHolder, hnewHolder, hnamed, hnamed', holdSlot, hnewSlot, hnode, hrefusal,
    Bool.or_self, Bool.false_eq_true, if_false]

/-- A rename is refused and nothing is done, or what stands in the slot of the source goes to the slot of the target. -/
theorem rename_cases (world : World) (source target : Path) :
    (∃ error, world.rename source target = (.error error, world)) ∨
      ∃ old new node, target.hasNul = false ∧ world.slot source .busy = .ok old ∧ world.slot target .busy = .ok new ∧
        old.node = some node ∧ moveRefusal old new node = none ∧
        world.rename source target = (.ok (), world.transfer old new node) := by
  unfold rename
  split
  · exact .inl ⟨_, rfl⟩
  · next hnul =>
    dsimp only
    split
    · exact .inl ⟨_, rfl⟩
    · exact .inl ⟨_, rfl⟩
    · next oldHolder newHolder hold hnew =>
      split
      · exact .inl ⟨_, rfl⟩
      · split
        · exact .inl ⟨_, rfl⟩
        · next old hslot =>
          split
          · exact .inl ⟨_, rfl⟩
          · exact .inl ⟨_, rfl⟩
          · next node new hnode hslot' =>
            split
            · exact .inl ⟨_, rfl⟩
            · next hrefusal =>
              refine .inr ⟨old, new, node, ?_, ?_, ?_, hnode, hrefusal, rfl⟩
              · simp only [Bool.or_eq_true, not_or, Bool.not_eq_true] at hnul
                exact hnul.2
              · unfold World.slot
                rw [hold]
                exact hslot
              · unfold World.slot
                rw [hnew]
                exact hslot'

/-- Nothing speaks against moving what is no directory to a slot in a directory in which no directory stands. -/
theorem moveRefusal_eq_none {old new : Slot} (hleaf : node.isDir = false)
    (hold : world.root.bare? old.location = some node) (hnew : world.root.get? new.location = new.node)
    (hparent : world.root.HasDir new.parent) (hplace : ¬world.root.HasDir new.location) :
    moveRefusal old new node = none := by
  have hbelow : ¬(old.location ≠ new.location ∧ old.location <+: new.location) := by
    rintro ⟨hne, hprefix⟩
    obtain ⟨rest, hrest⟩ := (List.prefix_concat_iff.mp hprefix).resolve_left hne
    rw [← hrest] at hparent
    have hdir := Node.hasDir_of_hasDir_append hparent
    rw [Node.HasDir, hold] at hdir
    cases hdir
    cases hleaf
  have habove : ¬(old.location ≠ new.location ∧ new.location <+: old.location) := by
    rintro ⟨hne, hprefix⟩
    obtain ⟨rest, hrest⟩ := (List.prefix_concat_iff.mp hprefix).resolve_left hne.symm
    have hdir := Node.hasDir_of_bare? hold
    rw [← hrest] at hdir
    exact hplace (Node.hasDir_of_hasDir_append hdir)
  rw [← List.isPrefixOf_iff_prefix] at hbelow habove
  unfold moveRefusal
  dsimp only
  rw [if_neg (by simpa using hbelow), if_neg (by simpa using habove)]
  split
  · rfl
  · cases hleaf
  · cases hleaf
  · next hdir =>
    exact absurd (Node.hasDir_iff.mpr ⟨_, hnew.trans hdir⟩) hplace
  · rfl

theorem allOrNothing_rename (world : World) (source target : Path) :
    world.AllOrNothing (world.rename source target) := by
  rcases rename_cases world source target with ⟨error, hfailed⟩ | ⟨old, new, found, -, -, -, -, -, hdone⟩
  · rw [hfailed]
    exact allOrNothing_error world error
  · rw [hdone]
    exact allOrNothing_ok world _

theorem allOrNothing_renameWithin (world : World) (source target : Path) :
    world.AllOrNothing (world.renameWithin source target) := by
  rw [renameWithin]
  split
  · exact allOrNothing_error _ _
  · exact allOrNothing_rename world source target

theorem moveAcross_eq_copyOver (h : world.isDir target ≠ .ok true) :
    world.moveAcross source target = world.copyOver source target target := by
  unfold World.moveAcross
  split
  · next htrue => exact absurd htrue h
  · rfl

theorem copyOver_of_crosses (h : world.crosses source target = true) (given : Path) :
    world.copyOver source target given = world.copyAndRemove source target given := by
  unfold World.copyOver World.renameWithin
  rw [if_pos h]

theorem copyOver_of_ok (hnear : world.crosses source target = false)
    (hrename : world.rename source target = (.ok (), after)) (given : Path) :
    world.copyOver source target given = (.ok (), after) := by
  unfold World.copyOver World.renameWithin
  rw [if_neg (by simp [hnear]), hrename]

theorem crosses_eq_false_of_not_mem (h : source.text ∉ world.faults.apart) (target : Path) :
    world.crosses source target = false := by
  have hapart : world.faults.apart.contains source.text = false := by simpa using h
  unfold World.crosses
  rw [hapart]
  rfl

namespace EntryAt

variable (h : world.EntryAt source above node)
include h

theorem rename_of_slot {new : Slot} (hworking : world.root.HasDir world.workingDir.location)
    (htarget : target.hasNul = false) (hslot : world.slot target .busy = .ok new)
    (hplace : ¬world.root.HasDir new.location) :
    ∃ after, world.rename source target = (.ok (), after) ∧
      world.Moved (above ++ [source.name]) new.location node after := by
  obtain ⟨-, -, -, -, there, entries, -, hentries, rfl⟩ := exists_above_of_slot hslot
  have hparent : world.root.HasDir there := Node.hasDir_iff.mpr ⟨entries, hentries⟩
  have hrefusal : moveRefusal ⟨above, source.name, some node⟩ ⟨there, target.name, entries.lookup target.name⟩ node =
      none :=
    moveRefusal_eq_none h.leaf h.there (Node.get?_child hentries target.name) hparent hplace
  refine ⟨_, rename_of_slots h.noNul htarget (h.slot .busy) hslot rfl hrefusal, ?_⟩
  exact @moved_transfer _ _ ⟨above, source.name, some node⟩ ⟨there, target.name, entries.lookup target.name⟩ hworking
    h.leaf h.get? hparent hplace

theorem allOrNothing_copyOver (target given : Path) : world.AllOrNothing (world.copyOver source target given) := by
  rw [copyOver]
  split
  · exact h.allOrNothing_copyAndRemove target given
  · exact allOrNothing_renameWithin world source target

theorem allOrNothing_moveAcross (target : Path) : world.AllOrNothing (world.moveAcross source target) := by
  rw [moveAcross]
  dsimp only
  split
  · split
    · exact allOrNothing_renameWithin world source target
    · split
      · exact allOrNothing_error _ _
      · split
        · exact allOrNothing_error _ _
        · exact h.allOrNothing_copyOver _ target
  · exact h.allOrNothing_copyOver target target

/-- A failed move changes nothing. -/
theorem allOrNothing_moveAside (target : Path) : world.AllOrNothing (world.moveAside source target) := by
  rw [moveAside]
  split
  · split
    · exact h.allOrNothing_moveAcross target
    · exact allOrNothing_rename world source target
  · split
    · exact h.allOrNothing_moveAcross target
    · exact allOrNothing_error _ _

section Free

variable (htarget : world.Makable target there) (hname : LegalName target.name)
include htarget hname

theorem crosses_eq : world.crosses source target = world.faults.apart.contains source.text := by
  obtain ⟨oldHolder, hold, -⟩ := exists_holder_of_slot (h.slot .busy)
  obtain ⟨newHolder, hnew, -⟩ := exists_holder_of_slot (htarget.slot hname .busy)
  unfold World.crosses
  rw [h.noNul, htarget.noNul, hold, hnew]
  simp [Except.isOk, Except.toBool]

variable (hworking : world.root.HasDir world.workingDir.location)
include hworking

theorem rename_of_free : ∃ after, world.rename source target = (.ok (), after) ∧
    world.Moved (above ++ [source.name]) (there ++ [target.name]) node after :=
  @rename_of_slot _ _ target _ _ h ⟨there, target.name, none⟩ hworking htarget.noNul (htarget.slot hname .busy)
    (Node.not_hasDir_of_free htarget.free)

/-- To a free place an entry goes within one device by a rename and from one device to another by a copy, which cannot be
made of a special file. -/
theorem copyOver_of_free :
    (¬(source.text ∈ world.faults.apart ∧ world.lstat source = .ok .special) ∧
        ∃ after, world.copyOver source target target = (.ok (), after) ∧
          world.Moved (above ++ [source.name]) (there ++ [target.name]) node after) ∨
      ((source.text ∈ world.faults.apart ∧ world.lstat source = .ok .special) ∧
        ∃ refusal, world.copyOver source target target = (.error (.os refusal), world)) := by
  have hspecial : world.lstat source = .ok .special ↔ node.isSpecial = true := by
    rw [h.lstat, Except.ok.injEq, Node.isSpecial_iff]
  by_cases hapart : source.text ∈ world.faults.apart
  · rw [copyOver_of_crosses (by rw [h.crosses_eq htarget hname]; simpa using hapart), hspecial]
    rcases h.copyAndRemove_of_free htarget hname hworking target with ⟨hplain, hdone⟩ | ⟨hpipe, hfailed⟩
    · exact .inl ⟨by simp [hplain], hdone⟩
    · exact .inr ⟨⟨hapart, hpipe⟩, hfailed⟩
  · obtain ⟨after, hdone, hmoved⟩ := h.rename_of_free htarget hname hworking
    exact .inl ⟨fun hboth => hapart hboth.1, after,
      copyOver_of_ok (crosses_eq_false_of_not_mem hapart target) hdone target, hmoved⟩

/-- To a free place an entry is moved, on the same device or another, unless the system refuses that or the entry cannot
be copied. -/
theorem moveAside_of_free :
    (¬Relocation.Faulty world source ∧ ∃ after, world.moveAside source target = (.ok (), after) ∧
        world.Moved (above ++ [source.name]) (there ++ [target.name]) node after) ∨
      (Relocation.Faulty world source ∧
        ∃ refusal, world.moveAside source target = (.error (.os refusal), world)) := by
  have hover := h.copyOver_of_free htarget hname hworking
  have hacross : world.moveAcross source target = world.copyOver source target target :=
    moveAcross_eq_copyOver (ask_ne_true_of_stat (stat_of_locateFrom_error (htarget.locateFrom hname)))
  unfold moveAside Relocation.Faulty
  cases hfault : world.faults.move.lookup source.text with
  | none =>
      dsimp only
      split
      · rw [hacross]
        simpa using hover
      · next hnear =>
        rw [h.crosses_eq htarget hname] at hnear
        refine .inl ⟨by simpa using fun hmem => absurd hmem (by simpa using hnear), ?_⟩
        exact h.rename_of_free htarget hname hworking
  | some errno =>
      dsimp only
      by_cases hcross : errno = .crossDevice
      · rw [if_pos hcross, hacross]
        simpa [hcross] using hover
      · rw [if_neg hcross]
        exact .inr ⟨.inl ⟨errno, rfl, hcross⟩, _, rfl⟩

end Free

/-- A move goes nowhere where the target is missing and its last name is in no directory. -/
theorem exists_slot_of_moveAside {errno : Errno} (hmissing : world.locateFrom linkMax target = .error errno)
    (hmove : world.moveAside source target = (.ok (), after)) : ∃ new, world.slot target .busy = .ok new := by
  have hrename : ∀ {after}, world.rename source target = (.ok (), after) → ∃ new, world.slot target .busy = .ok new := by
    intro after hdone
    rcases rename_cases world source target with ⟨error, hfailed⟩ | ⟨_, new, _, -, -, hnew, -⟩
    · cases hfailed.symm.trans hdone
    · exact ⟨new, hnew⟩
  have hover : world.copyOver source target target = (.ok (), after) → ∃ new, world.slot target .busy = .ok new := by
    intro hdone
    unfold copyOver renameWithin at hdone
    split at hdone
    · obtain ⟨nameless, new, hslot⟩ := h.exists_slot_of_copyAndRemove hmissing hdone
      exact ⟨new, slot_of_slot hslot .busy⟩
    · split at hdone
      · cases hdone
      · exact hrename hdone
  have hacross : world.moveAcross source target = world.copyOver source target target :=
    moveAcross_eq_copyOver (ask_ne_true_of_stat (stat_of_locateFrom_error hmissing))
  unfold moveAside at hmove
  rw [hacross] at hmove
  split at hmove
  · split at hmove
    · exact hover hmove
    · exact hrename hmove
  · split at hmove
    · exact hover hmove
    · cases hmove

section Missing

variable (hworking : world.root.HasDir world.workingDir.location) (hnormal : target.IsNormal)
  (hmissing : world.pathExists target ≠ .ok true) (hmove : world.moveAside source target = (.ok (), after))
include hworking hnormal hmissing hmove

end Missing

end EntryAt

end World
end ClassDump
