import ClassDump.Proofs.Relocation.Effect

/-! The world in which the root of the exclusion tree was just made. It has one more directory than before, which is
empty, and every path still leads where it led. -/

namespace ClassDump

namespace World

variable {world : World} {path : Path} {above : Location}

def withDir (world : World) (location : Location) : World :=
  world.withRoot (world.root.put location (.dir []))

theorem Legal.of_silent {other : World} (hsilent : world.silent = other.silent) (h : other.Legal) : world.Legal := by
  rw [eq_of_silent hsilent]
  exact ⟨h.root, h.workingDir⟩

namespace Makable

theorem of_silent {other : World} (hsilent : world.silent = other.silent) (h : other.Makable path above) :
    world.Makable path above := by
  rw [eq_of_silent hsilent]
  exact ⟨h.noNul, h.short, h.ne_empty, h.ne_up, h.nameShort, h.parent, h.parentDir, h.free⟩

variable (h : world.Makable path above)
include h

theorem bare?_withDir :
    (world.withDir (above ++ [path.name])).root.bare? =
      Function.update world.root.bare? (above ++ [path.name]) (some (.dir [])) :=
  Node.bare?_put_dir h.parentDir (Node.bare?_eq_none_iff.mp h.free)

theorem hasDir_withDir : (world.withDir (above ++ [path.name])).root.HasDir (above ++ [path.name]) := by
  rw [Node.HasDir, h.bare?_withDir, Function.update_self]

theorem bare?_kept {location : Location} {node : Node} (hnode : world.root.bare? location = some node) :
    (world.withDir (above ++ [path.name])).root.bare? location = some node := by
  rw [h.bare?_withDir, Function.update_of_ne, hnode]
  rintro rfl
  rw [h.free] at hnode
  cases hnode

theorem bare?_of_ne {location : Location} (hne : location ≠ above ++ [path.name]) :
    (world.withDir (above ++ [path.name])).root.bare? location = world.root.bare? location := by
  rw [h.bare?_withDir, Function.update_of_ne hne]

theorem leads_withDir {n : Nat} {other : Path} {there : Location} (hleads : world.Leads n other there) :
    (world.withDir (above ++ [path.name])).Leads n other there :=
  hleads.mono rfl fun _ _ hnode => h.bare?_kept hnode

theorem legalName (hnormal : path.IsNormal) : LegalName path.name := by
  have hmem := Path.name_mem_parts h.ne_empty
  obtain ⟨hempty, hdot, hslash⟩ := hnormal _ hmem
  exact ⟨⟨hdot, h.ne_up, h.nameShort⟩, hempty, hslash, Path.hasNul_eq_false_iff.mp h.noNul _ hmem⟩

theorem legal_withDir (hlegal : world.Legal) (hnormal : path.IsNormal) :
    (world.withDir (above ++ [path.name])).Legal where
  root location node hnode name hname := by
    by_cases hlocation : location = above ++ [path.name]
    · subst hlocation
      rcases List.mem_append.mp hname with hname | hname
      · exact hlegal.root above _ h.parentDir name hname
      · rw [List.mem_singleton.mp hname]
        exact h.legalName hnormal
    · rw [h.bare?_of_ne hlocation] at hnode
      exact hlegal.root location node hnode name hname
  workingDir := h.bare?_kept hlegal.workingDir

theorem pathExists_eq (hnormal : path.IsNormal) : world.pathExists path = .ok false := by
  have hchild := Path.child_name_parent h.ne_empty
  obtain ⟨n, hn, hleads, -⟩ := exists_leads_of_locateFrom h.parent
  have hmissing : ¬world.root.HasDir (above ++ [path.name]) := by
    rw [Node.HasDir, h.free]
    rintro ⟨⟩
  have hlocate : world.locateFrom linkMax path = .error .noEntry := by
    have hlength := h.short
    rw [← hchild] at hlength ⊢
    refine @Leads.locateFrom_of_missing _ _ _ _ [path.name] hleads hn hlength ?_ h.parentDir ?_ hmissing
    · exact fun name hname => List.mem_singleton.mp hname ▸ (h.legalName hnormal).isName
    · intro upper hupper node hnode
      rcases List.prefix_cons_iff.mp hupper with rfl | ⟨rest, rfl, hrest⟩
      · rw [List.append_nil]
        exact h.parentDir
      · rw [List.prefix_nil.mp hrest, h.free] at hnode
        cases hnode
  exact ask_of_noEntry h.noNul (stat_of_locateFrom_error hlocate)

theorem makeDir_eq (hnormal : path.IsNormal) :
    world.makeDir path = (.ok (), world.withDir (above ++ [path.name])) := by
  have hchild := Path.child_name_parent h.ne_empty
  have hshort := h.short
  obtain ⟨n, hn, hleads, -⟩ := exists_leads_of_locateFrom h.parent
  obtain ⟨entries, hentries⟩ := Node.hasDir_iff.mp h.parentDir
  rw [← hchild] at hshort
  have hslot := hleads.slot hn hentries (h.legalName hnormal) hshort .fileExists
  rw [hchild, Node.bare?_eq_none_iff.mp h.free] at hslot
  unfold World.makeDir
  rw [h.noNul, hslot]
  rfl

end Makable
end World

namespace Relocation

variable {world : World} {classdump exclusion : Path} {dump above : Location}

/-- Once the root of the exclusion tree was made outside the class dump, the class dump can be set aside there. -/
theorem setup_of_makable (hlegal : world.Legal) (hnormal : exclusion.IsNormal)
    (hdump : world.locateFrom linkMax classdump = .ok ⟨dump, []⟩) (hdir : world.root.HasDir dump)
    (h : world.Makable exclusion above) (hapart : ¬dump <+: above ++ [exclusion.name]) :
    Setup (world.withDir (above ++ [exclusion.name])) classdump exclusion dump (above ++ [exclusion.name]) where
  legal := h.legal_withDir hlegal hnormal
  site :=
    { dumpDir := h.bare?_kept hdir
      exclusionDir := h.hasDir_withDir
      fresh := by
        intro first rest
        rw [h.bare?_of_ne (by simp), Node.bare?_eq_none_iff]
        refine Node.get?_below_of_not_hasDir ?_ first rest
        rw [Node.HasDir, h.free]
        rintro ⟨⟩
      apart := hapart }
  dumpLeads := by
    obtain ⟨n, hn, hleads, -⟩ := World.exists_leads_of_locateFrom hdump
    exact ⟨n, hn, h.leads_withDir hleads⟩
  exclusionLeads := by
    obtain ⟨n, hn, hleads, -⟩ := World.exists_leads_of_locateFrom h.parent
    exact ⟨n, hn, above, h.leads_withDir hleads, rfl⟩
  named := h.legalName hnormal
  short := h.short
  noNul := h.noNul

end Relocation
end ClassDump
