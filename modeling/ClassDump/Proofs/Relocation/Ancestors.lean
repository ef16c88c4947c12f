import ClassDump.Proofs.Relocation.Prepared
import ClassDump.Proofs.Store.Entry

/-! The directories above a target. Making them leaves all that was there as it was, and every new directory is one that
the path or a part of it leads to. If the last of them is new, nothing stands in it, so that any name in it is free; this
takes that every double dot of the path stands after a directory that was there before, since behind a new one it may
lead anywhere. -/

namespace ClassDump

namespace World

variable {world made : World} {path : Path} {above there : Location} {n : Nat}

theorem Makable.leads_new (h : world.Makable path above) (hnormal : path.IsNormal) :
    ∃ n, (world.withDir (above ++ [path.name])).Leads n path (above ++ [path.name]) := by
  obtain ⟨n, -, hleads, -⟩ := exists_leads_of_locateFrom h.parent
  have hnames : ∀ name ∈ [path.name], IsName name := fun name hname =>
    List.mem_singleton.mp hname ▸ (h.legalName hnormal).isName
  have hchild := (h.leads_withDir hleads).descend_names hnames h.hasDir_withDir
  rw [← Path.child_eq_descend, Path.child_name_parent h.ne_empty] at hchild
  exact ⟨n, hchild⟩

/-- Directories were made to which the path or a part of it leads, and nothing else was changed. -/
structure MadeAlong (world : World) (path : Path) (made : World) : Prop where
  rest : made.silent.withRoot world.root = world.silent
  kept : ∀ location node, world.root.bare? location = some node → made.root.bare? location = some node
  added : ∀ location node, made.root.bare? location = some node → world.root.bare? location = none →
    node = .dir [] ∧ ∃ n parts, parts <+: path.parts ∧ made.Leads n ⟨path.anchor, parts⟩ location

namespace MadeAlong

variable (h : world.MadeAlong path made)
include h

theorem workingDir_eq : made.workingDir = world.workingDir := by
  have hrest := congrArg World.workingDir h.rest
  exact hrest

theorem faults_eq : made.faults = world.faults := by
  have hrest := congrArg World.faults h.rest
  exact hrest

theorem leads {other : Path} (hleads : world.Leads n other there) : made.Leads n other there :=
  hleads.mono h.workingDir_eq h.kept

theorem withDir (hnormal : path.IsNormal) (hmakable : made.Makable path above) :
    world.MadeAlong path (made.withDir (above ++ [path.name])) where
  rest := h.rest
  kept location node hnode := hmakable.bare?_kept (h.kept location node hnode)
  added location node hnode hnone := by
    by_cases hlocation : location = above ++ [path.name]
    · subst hlocation
      rw [hmakable.hasDir_withDir] at hnode
      obtain ⟨n, hleads⟩ := hmakable.leads_new hnormal
      exact ⟨(Option.some.inj hnode).symm, n, path.parts, List.prefix_refl _, hleads⟩
    · rw [hmakable.bare?_of_ne hlocation] at hnode
      obtain ⟨hdir, n, parts, hparts, hleads⟩ := h.added location node hnode hnone
      exact ⟨hdir, n, parts, hparts, hmakable.leads_withDir hleads⟩

end MadeAlong

/-- Every double dot of the path stands after a directory. -/
def UpsFromDirs (world : World) (path : Path) : Prop :=
  ∀ above below, path.parts = above ++ ".." :: below → world.isDir ⟨path.anchor, above⟩ = .ok true

theorem UpsFromDirs.parent (h : world.UpsFromDirs path) : world.UpsFromDirs path.parent := by
  intro above below hparts
  obtain ⟨last, hlast⟩ := List.dropLast_prefix path.parts
  have hall : path.parts = above ++ ".." :: (below ++ last) := by
    rw [← hlast, show path.parts.dropLast = _ from hparts, List.append_assoc, List.cons_append]
  exact h above (below ++ last) hall

end World
end ClassDump
