import ClassDump.Proofs.Store.Slot

/-! The entry that a path names. A path without a name only ever leads to a directory. What else a path names, unless it
is a directory, stands under its last name in the directory that the path above leads to. -/

namespace ClassDump

namespace World

variable {world : World} {path : Path} {n : Nat} {above there : Location} {node found : Node}

/-- In the directory that the path above leads to, the last name of the path stands for something that is no
directory. -/
structure EntryAt (world : World) (path : Path) (above : Location) (node : Node) : Prop where
  noNul : path.hasNul = false
  short : path.byteLength < pathMax
  leads : ∃ n ≤ linkMax, world.Leads n path.parent above
  legalName : LegalName path.name
  leaf : node.isDir = false
  there : world.root.bare? (above ++ [path.name]) = some node

namespace EntryAt

variable (h : world.EntryAt path above node)
include h

theorem mono {other : World} (hworking : other.workingDir = world.workingDir)
    (hkept : ∀ location found, world.root.bare? location = some found → other.root.bare? location = some found) :
    other.EntryAt path above node where
  noNul := h.noNul
  short := h.short
  leads := by
    obtain ⟨n, hn, hleads⟩ := h.leads
    exact ⟨n, hn, hleads.mono hworking hkept⟩
  legalName := h.legalName
  leaf := h.leaf
  there := hkept _ _ h.there

theorem get? : world.root.get? (above ++ [path.name]) = some node :=
  (Node.bare?_eq_some_iff h.leaf).mp h.there

theorem lstat : world.lstat path = .ok node := by
  obtain ⟨n, hn, hleads⟩ := h.leads
  obtain ⟨entries, hentries⟩ := Node.hasDir_iff.mp (Node.hasDir_of_bare? h.there)
  have hchild := Path.child_name_parent h.legalName.ne_empty
  have hlstat := hleads.lstat hn hentries h.legalName (hchild.symm ▸ h.short) h.get?
  rwa [hchild] at hlstat

theorem slot (nameless : Errno) : world.slot path nameless = .ok ⟨above, path.name, some node⟩ := by
  obtain ⟨n, hn, hleads⟩ := h.leads
  obtain ⟨entries, hentries⟩ := Node.hasDir_iff.mp (Node.hasDir_of_bare? h.there)
  have hchild := Path.child_name_parent h.legalName.ne_empty
  have hslot := hleads.slot hn hentries h.legalName (hchild.symm ▸ h.short) nameless
  rwa [hchild, h.get?] at hslot

theorem stat_of_not_link (hlink : node.isLink = false) : world.stat path = .ok node := by
  obtain ⟨n, hn, hleads⟩ := h.leads
  have hfound := hleads.descend (.down h.legalName.isName h.there hlink (.done _))
  rw [← Path.child_eq_descend, Path.child_name_parent h.legalName.ne_empty] at hfound
  rw [stat_of_locateFrom (hfound.locateFrom h.short hn), h.get?]

/-- Only as a link the entry can pass for a directory. -/
theorem isLink_or_not_isDir : node.isLink = true ∨ world.isDir path ≠ .ok true := by
  cases hlink : node.isLink with
  | true => exact .inl rfl
  | false =>
      refine .inr fun hdir => ?_
      have hask : world.isDir path = .ok node.isDir := ask_of_stat h.noNul (h.stat_of_not_link hlink)
      rw [hask, h.leaf] at hdir
      cases hdir

end EntryAt

end World
end ClassDump
