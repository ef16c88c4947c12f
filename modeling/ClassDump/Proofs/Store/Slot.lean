import ClassDump.Proofs.Store.Legal

/-! What is done to the last name of a path. Where the path above it leads to a directory, the name is looked up among
the entries there, and the operations on it answer by what the entry is. -/

namespace ClassDump

namespace Node

variable {root : Node} {here : Location} {names : List String}

/-- A look-up finds nothing where a directory is missing on the way down and no link or file is in its place. -/
theorem locate_of_missing (hnames : ∀ name ∈ names, IsName name) (hhere : root.HasDir here)
    (hways : ∀ above, above <+: names → ∀ node, root.bare? (here ++ above) = some node → root.HasDir (here ++ above))
    (hmissing : ¬root.HasDir (here ++ names)) (links : Nat) : root.locate links here names = .error .noEntry := by
  rw [locate_eq]
  induction names generalizing here with
  | nil => exact absurd (by simpa using hhere) hmissing
  | cons name rest ih =>
      rw [follow_name (hnames name List.mem_cons_self) hhere]
      have hway := hways [name] (by simp)
      cases hbare : root.bare? (here ++ [name]) with
      | none => rfl
      | some node =>
          have hdir := hway node hbare
          rw [HasDir, hbare, Option.some.injEq] at hdir
          subst hdir
          refine ih (fun other hother => hnames other (List.mem_cons_of_mem _ hother)) hbare ?_
            (by simpa using hmissing)
          intro above habove node hnode
          have habove' := hways (name :: above) (by simpa using habove) node (by simpa using hnode)
          simpa using habove'

end Node

namespace World

def withRoot (world : World) (root : Node) : World :=
  { world with root := root }

variable {world : World} {n : Nat} {path : Path} {there : Location} {entries : List (String × Node)} {name : String}

/-- Where a path leads to a directory, a path further down leads to a directory there. -/
theorem Leads.descend_names {names : List String} (h : world.Leads n path there)
    (hnames : ∀ name ∈ names, IsName name) (hdir : world.root.HasDir (there ++ names)) :
    world.Leads n (path.descend names) (there ++ names) :=
  h.descend (Node.reach_names hnames hdir rfl)

theorem slot_of_tooLong (hname : path.name ≠ "") (hlength : pathMax ≤ path.byteLength) (nameless : Errno) :
    world.slot path nameless = .error .nameTooLong := by
  unfold World.slot World.holder World.locateParent
  rw [if_neg hname, if_pos hlength]
  rfl

theorem holder_of_locateFrom {errno : Errno} (hname : name ≠ "") (hlength : (path.child name).byteLength < pathMax)
    (h : world.locateFrom linkMax path = .error errno) : world.holder (path.child name) = .error errno := by
  unfold World.holder World.locateParent
  rw [Path.name_child, if_neg hname, if_neg (Nat.not_le.mpr hlength), Path.parent_child, h]
  rfl

/-- A path further down whose last directory is missing leads nowhere. -/
theorem Leads.locateFrom_of_missing {names : List String} (h : world.Leads n path there) (hn : n ≤ linkMax)
    (hlength : (path.descend names).byteLength < pathMax)
    (hnames : ∀ name ∈ names, IsName name) (hdir : world.root.HasDir there)
    (hways : ∀ above, above <+: names → ∀ node, world.root.bare? (there ++ above) = some node →
      world.root.HasDir (there ++ above))
    (hmissing : ¬world.root.HasDir (there ++ names)) :
    world.locateFrom linkMax (path.descend names) = .error .noEntry := by
  rw [h.locateFrom_descend hlength, if_pos hn, Node.locate_of_missing hnames hdir hways hmissing]
  rfl

theorem slot_child (hentries : world.root.get? there = some (.dir entries)) (hname : LegalName name) (path : Path)
    (nameless : Errno) :
    Holder.slot ⟨some there, entries⟩ (path.child name) nameless =
      .ok ⟨there, name, world.root.get? (there ++ [name])⟩ := by
  have hnameless : isNameless (path.child name) = false := by
    simp [isNameless, hname.ne_empty, hname.isName.2.1]
  rw [Holder.slot, hnameless, Node.get?_child hentries]
  simp [Nat.not_lt.mpr hname.isName.2.2]

section Entry

variable (h : world.Leads n path there) (hn : n ≤ linkMax) (hentries : world.root.get? there = some (.dir entries))
  (hname : LegalName name) (hlength : (path.child name).byteLength < pathMax)
include h hn hentries hname hlength

theorem Leads.holder : world.holder (path.child name) = .ok ⟨some there, entries⟩ := by
  have habove := Nat.lt_of_le_of_lt (Path.byteLength_le_child path name) hlength
  unfold World.holder World.locateParent
  rw [Path.name_child, if_neg hname.ne_empty, if_neg (Nat.not_le.mpr hlength), Path.parent_child,
    h.locateFrom habove hn]
  simp [bind, Except.bind, hentries]

theorem Leads.slot (nameless : Errno) :
    world.slot (path.child name) nameless = .ok ⟨there, name, world.root.get? (there ++ [name])⟩ := by
  unfold World.slot
  rw [h.holder hn hentries hname hlength]
  exact slot_child hentries hname path nameless

theorem Leads.lstat {node : Node} (hnode : world.root.get? (there ++ [name]) = some node) :
    world.lstat (path.child name) = .ok node := by
  have habove := Nat.lt_of_le_of_lt (Path.byteLength_le_child path name) hlength
  rw [Node.get?_child hentries] at hnode
  unfold World.lstat World.locateParent
  rw [Path.name_child, if_neg (not_or.mpr ⟨hname.ne_empty, hname.isName.2.1⟩), if_neg (Nat.not_le.mpr hlength),
    Path.parent_child, h.locateFrom habove hn]
  simp [bind, Except.bind, hentries, hnode, Nat.not_lt.mpr hname.isName.2.2]

end Entry

/-- What a path must be like so that a directory can be made at it. -/
structure Makable (world : World) (path : Path) (above : Location) : Prop where
  noNul : path.hasNul = false
  short : path.byteLength < pathMax
  ne_empty : path.name ≠ ""
  ne_up : path.name ≠ ".."
  nameShort : path.name.utf8ByteSize ≤ nameMax
  parent : world.locateFrom linkMax path.parent = .ok ⟨above, []⟩
  parentDir : world.root.HasDir above
  free : world.root.bare? (above ++ [path.name]) = none

theorem exists_slot_of_makeDir {after : World} (h : world.makeDir path = (.ok (), after)) :
    path.hasNul = false ∧ ∃ slot, world.slot path .fileExists = .ok slot ∧ slot.node = none ∧
      after = world.withRoot (world.root.put slot.location (.dir [])) := by
  unfold World.makeDir at h
  split at h
  · cases h
  · next hnul =>
    refine ⟨by simpa using hnul, ?_⟩
    dsimp only at h
    split at h
    · cases h
    · next slot hslot =>
      split at h
      · cases h
      · next hnode =>
        cases h
        exact ⟨slot, hslot, hnode, rfl⟩

theorem exists_above_of_holder {holder : Holder} {above : Location} (h : world.holder path = .ok holder)
    (hlocation : holder.location = some above) :
    path.byteLength < pathMax ∧ world.locateFrom linkMax path.parent = .ok ⟨above, []⟩ ∧
      world.root.get? above = some (.dir holder.entries) := by
  unfold World.holder World.locateParent at h
  split at h
  · cases h
    cases hlocation
  · split at h
    · cases h
    · next hlength =>
      cases hparent : world.locateFrom linkMax path.parent with
      | error errno =>
          rw [hparent] at h
          cases h
      | ok place =>
          obtain ⟨location, removed⟩ := place
          rw [hparent] at h
          cases removed with
          | cons first rest =>
              cases h
              cases hlocation
          | nil =>
              simp only [bind, Except.bind, List.isEmpty_nil, Bool.not_true, Bool.false_eq_true, if_false] at h
              split at h
              · next entries hentries =>
                cases h
                cases hlocation
                exact ⟨Nat.not_le.mp hlength, rfl, hentries⟩
              · cases h
              · cases h

theorem exists_holder_of_slot {slot : Slot} {nameless : Errno} (h : world.slot path nameless = .ok slot) :
    ∃ holder, world.holder path = .ok holder ∧ holder.slot path nameless = .ok slot := by
  unfold World.slot at h
  cases hholder : world.holder path with
  | error errno =>
      rw [hholder] at h
      cases h
  | ok holder =>
      rw [hholder] at h
      exact ⟨holder, rfl, h⟩

/-- A slot that is found is in the directory that the path above leads to. -/
theorem exists_above_of_slot {slot : Slot} {nameless : Errno} (h : world.slot path nameless = .ok slot) :
    path.byteLength < pathMax ∧ path.name ≠ "" ∧ path.name ≠ ".." ∧ path.name.utf8ByteSize ≤ nameMax ∧
      ∃ above entries, world.locateFrom linkMax path.parent = .ok ⟨above, []⟩ ∧
        world.root.get? above = some (.dir entries) ∧ slot = ⟨above, path.name, entries.lookup path.name⟩ := by
  obtain ⟨holder, hholder, hslot⟩ := exists_holder_of_slot h
  unfold Holder.slot at hslot
  split at hslot
  · cases hslot
  · next hnamed =>
    split at hslot
    · cases hslot
    · next above hlocation =>
      split at hslot
      · cases hslot
      · next hshort =>
        cases hslot
        obtain ⟨hlength, hparent, hentries⟩ := exists_above_of_holder hholder hlocation
        simp only [isNameless, Bool.or_eq_true, decide_eq_true_eq, not_or] at hnamed
        exact ⟨hlength, hnamed.1, hnamed.2, Nat.not_lt.mp hshort, above, holder.entries, hparent, hentries, rfl⟩

theorem isNameless_of_slot {slot : Slot} {nameless : Errno} (h : world.slot path nameless = .ok slot) :
    isNameless path = false := by
  obtain ⟨-, hempty, hup, -⟩ := exists_above_of_slot h
  simp [isNameless, hempty, hup]

theorem slot_of_slot {slot : Slot} {nameless : Errno} (h : world.slot path nameless = .ok slot) (other : Errno) :
    world.slot path other = .ok slot := by
  obtain ⟨holder, hholder, hslot⟩ := exists_holder_of_slot h
  have hnamed := isNameless_of_slot h
  unfold World.slot
  rw [hholder]
  unfold Holder.slot at hslot
  dsimp only [bind, Except.bind]
  unfold Holder.slot
  rw [hnamed, if_neg Bool.false_ne_true] at hslot ⊢
  exact hslot

/-- A directory that was made could be made, and it was made at the end of its path. -/
theorem exists_makable_of_makeDir {after : World} (h : world.makeDir path = (.ok (), after)) :
    ∃ above, world.Makable path above ∧ after = world.withRoot (world.root.put (above ++ [path.name]) (.dir [])) := by
  obtain ⟨hnul, slot, hslot, hnode, hafter⟩ := exists_slot_of_makeDir h
  obtain ⟨hlength, hempty, hup, hshort, above, entries, habove, hentries, rfl⟩ := exists_above_of_slot hslot
  have hfree : world.root.get? (above ++ [path.name]) = none := (Node.get?_child hentries path.name).trans hnode
  exact ⟨above, ⟨hnul, hlength, hempty, hup, hshort, habove, Node.hasDir_iff.mpr ⟨entries, hentries⟩,
    Node.bare?_eq_none_iff.mpr hfree⟩, hafter⟩

theorem Leads.stat_of_missing (h : world.Leads n path there) (hdir : world.root.HasDir there) (hdot : name ≠ ".")
    (hup : name ≠ "..") (hmissing : world.root.bare? (there ++ [name]) = none) :
    ∃ errno, world.stat (path.child name) = .error errno := by
  by_cases hlength : pathMax ≤ (path.child name).byteLength
  · exact ⟨_, stat_of_tooLong hlength⟩
  · obtain ⟨entries, hentries⟩ := Node.hasDir_iff.mp hdir
    have hlookup : entries.lookup name = none :=
      (Node.get?_child hentries name).symm.trans (Node.bare?_eq_none_iff.mp hmissing)
    have hlocate := h.locateFrom_descend (Nat.not_le.mp hlength) linkMax
    rw [Node.locate_eq, Node.follow, hentries] at hlocate
    simp only [if_neg hdot, if_neg hup, hlookup] at hlocate
    split at hlocate
    · split at hlocate
      · exact ⟨_, stat_of_locateFrom_error hlocate⟩
      · exact ⟨_, stat_of_locateFrom_error hlocate⟩
    · exact ⟨_, stat_of_locateFrom_error hlocate⟩

end World
end ClassDump
