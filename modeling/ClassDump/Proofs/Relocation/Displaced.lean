import ClassDump.Proofs.Store.Reach

/-! A class dump some of whose files and links were set aside. What stood at a relative location of the dump stands at
the same relative location of the exclusion tree, all other files and links stand where they stood, and every directory
is still there. Since nothing that leads on to a directory is ever set aside, every way to a directory is still open. -/

namespace ClassDump

open Node

/-- Something other than a directory stands at the location, and if it is a link no directory is behind it. -/
def Node.DeadEnd (base : Node) (location : Location) : Prop :=
  ∃ node, node.isDir = false ∧ base.bare? location = some node ∧
    ∀ target, node = .link target → ∀ n there,
      base.Reach n (targetStart target location.dropLast) (targetComponents target) there → ¬base.HasDir there

namespace Node

theorem DeadEnd.not_hasDir {base : Node} {location : Location} (h : base.DeadEnd location) :
    ¬base.HasDir location := by
  obtain ⟨node, hnode, hbare, -⟩ := h
  intro hdir
  rw [HasDir, hbare] at hdir
  cases hdir
  cases hnode

/-- No components lead over a dead end to a directory. -/
theorem DeadEnd.not_hasDir_of_reach {base : Node} {n : Nat} {here there : Location} {name : String}
    (h : base.DeadEnd (here ++ [name])) (hname : IsName name) (hreach : base.Reach n here [name] there) :
    ¬base.HasDir there := by
  obtain ⟨node, hnode, hbare, hdead⟩ := h
  cases hreach with
  | dot => exact absurd rfl hname.1
  | up => exact absurd rfl hname.2.1
  | down _ hfound _ hrest =>
      cases hrest
      intro hdir
      rw [hbare] at hfound
      rw [HasDir, hbare] at hdir
      cases hdir
      cases hnode
  | @link _ _ _ _ _ target _ hfound hrest =>
      rw [hbare] at hfound
      rw [List.append_nil] at hrest
      rw [List.dropLast_concat] at hdead
      exact hdead target (Option.some.inj hfound) _ _ hrest

theorem not_deadEnd_of_hasDir {base : Node} {location : Location} (h : base.HasDir location) :
    ¬base.DeadEnd location :=
  fun hend => hend.not_hasDir h

/-- Every way to a directory stays open while all but dead ends stays. -/
theorem Reach.of_kept {base root : Node} {n : Nat} {here there : Location} {components : List String}
    (hkept : ∀ location node, base.bare? location = some node → ¬base.DeadEnd location →
      root.bare? location = some node)
    (hreach : base.Reach n here components there) (hthere : base.HasDir there) :
    root.Reach n here components there := by
  induction hreach with
  | done here => exact .done here
  | dot hdir _ ih => exact .dot (hkept _ _ hdir (not_deadEnd_of_hasDir hdir)) (ih hthere)
  | up hdir _ ih => exact .up (hkept _ _ hdir (not_deadEnd_of_hasDir hdir)) (ih hthere)
  | @down n here name rest there node hname hnode hlink hrest ih =>
      have hdir := hrest.hasDir hthere
      exact .down hname (hkept _ _ hdir (not_deadEnd_of_hasDir hdir)) rfl (ih hthere)
  | @link n here name rest there target hname hnode hrest ih =>
      refine .link hname (hkept _ _ hnode fun hend => ?_) (ih hthere)
      -- a dead end leads on to no directory
      obtain ⟨found, -, hfound, hdead⟩ := hend
      rw [hnode] at hfound
      obtain ⟨k, l, mid, -, hfirst, hsecond⟩ := hrest.split rfl
      refine hdead target (Option.some.inj hfound).symm k mid ?_ (hsecond.hasDir hthere)
      rwa [List.dropLast_concat]

end Node

namespace Relocation

/-- Where a class dump and its exclusion tree are: the exclusion tree is empty, and it is not below the dump. -/
structure Site (base : Node) (dump exclusion : Location) : Prop where
  dumpDir : base.HasDir dump
  exclusionDir : base.HasDir exclusion
  fresh : ∀ first rest, base.bare? (exclusion ++ first :: rest) = none
  apart : ¬dump <+: exclusion

/-- What stood at some relative locations of the dump was set aside, each once. -/
structure Displaced (base : Node) (dump exclusion : Location) (moved : List Location) (root : Node) : Prop where
  once : moved.Nodup
  ends : ∀ relative ∈ moved, base.DeadEnd (dump ++ relative)
  leaf : ∀ location node, node.isDir = false →
    (root.bare? location = some node ↔
      (∃ relative ∈ moved, location = exclusion ++ relative ∧ base.bare? (dump ++ relative) = some node) ∨
        (base.bare? location = some node ∧ ∀ relative ∈ moved, location ≠ dump ++ relative))
  kept : ∀ location, base.HasDir location → root.HasDir location
  made : ∀ location, root.HasDir location →
    base.HasDir location ∨ ∃ relative, location = exclusion ++ relative ∧ base.HasDir (dump ++ relative)

variable {base root : Node} {dump exclusion : Location} {moved : List Location} {relative : Location} {name : String}

namespace Site

variable (hsite : Site base dump exclusion)
include hsite

/-- Nothing in the dump is in the exclusion tree. -/
theorem not_below (relative : Location) : ¬exclusion <+: dump ++ relative := by
  intro h
  rcases List.prefix_or_prefix_of_prefix h (List.prefix_append dump relative) with hbelow | hbelow
  · obtain ⟨rest, rfl⟩ := hbelow
    cases rest with
    | nil => exact hsite.apart (by simp)
    | cons first rest =>
        have hdump := hsite.dumpDir
        rw [HasDir, hsite.fresh] at hdump
        cases hdump
  · exact hsite.apart hbelow

theorem dump_ne_exclusion (relative other : Location) : dump ++ relative ≠ exclusion ++ other := by
  intro h
  exact hsite.not_below relative (h ▸ List.prefix_append exclusion other)

theorem free {relative : Location} (hrelative : relative ≠ []) : base.bare? (exclusion ++ relative) = none := by
  cases relative with
  | nil => exact absurd rfl hrelative
  | cons first rest => exact hsite.fresh first rest

theorem ne_nil_of_deadEnd {relative : Location} (h : base.DeadEnd (dump ++ relative)) : relative ≠ [] := by
  rintro rfl
  exact h.not_hasDir (by simpa using hsite.dumpDir)

end Site

theorem displaced_nil (base : Node) (dump exclusion : Location) : Displaced base dump exclusion [] base where
  once := List.nodup_nil
  ends := nofun
  leaf location node _ := by simp
  kept _ h := h
  made _ h := .inl h

namespace Displaced

theorem bare?_eq {location : Location} {node : Node} (h : Displaced base dump exclusion moved root)
    (hnode : base.bare? location = some node) (hmoved : ∀ relative ∈ moved, location ≠ dump ++ relative) :
    root.bare? location = some node := by
  rcases bare_of_bare? hnode with hleaf | rfl
  · exact (h.leaf location node hleaf).mpr (.inr ⟨hnode, hmoved⟩)
  · exact h.kept location hnode

/-- Every way to a directory is still open. -/
theorem reach {n : Nat} {here there : Location} {components : List String}
    (h : Displaced base dump exclusion moved root) (hreach : base.Reach n here components there)
    (hthere : base.HasDir there) : root.Reach n here components there :=
  hreach.of_kept (fun _ _ hnode hend => h.bare?_eq hnode fun relative hrelative hlocation =>
    hend (hlocation ▸ h.ends relative hrelative)) hthere

section InSite

variable (hsite : Site base dump exclusion) (h : Displaced base dump exclusion moved root)
include hsite h

theorem hasDir_dump (hdir : root.HasDir (dump ++ relative)) : base.HasDir (dump ++ relative) := by
  rcases h.made _ hdir with hbase | ⟨other, hother, -⟩
  · exact hbase
  · exact absurd hother (hsite.dump_ne_exclusion relative other)

/-- What is no directory and still in the dump was there from the start. -/
theorem bare?_dump {node : Node} (hnode : node.isDir = false) (hbare : root.bare? (dump ++ relative) = some node) :
    base.bare? (dump ++ relative) = some node ∧ relative ∉ moved := by
  rcases (h.leaf _ node hnode).mp hbare with ⟨other, -, hother, -⟩ | ⟨hbase, hmoved⟩
  · exact absurd hother (hsite.dump_ne_exclusion relative other)
  · exact ⟨hbase, fun hmem => hmoved relative hmem rfl⟩

/-- What was set aside is no more in the dump. -/
theorem gone (hmoved : relative ∈ moved) : root.bare? (dump ++ relative) = none := by
  cases hbare : root.bare? (dump ++ relative) with
  | none => rfl
  | some node =>
      rcases bare_of_bare? hbare with hnode | rfl
      · exact absurd hmoved (h.bare?_dump hsite hnode hbare).2
      · exact absurd (h.hasDir_dump hsite hbare) (h.ends relative hmoved).not_hasDir

/-- What was not set aside has its place in the exclusion tree free. -/
theorem free (hend : base.DeadEnd (dump ++ relative)) (hmoved : relative ∉ moved) :
    root.bare? (exclusion ++ relative) = none := by
  have hfree := hsite.free (hsite.ne_nil_of_deadEnd hend)
  cases hbare : root.bare? (exclusion ++ relative) with
  | none => rfl
  | some node =>
      rcases bare_of_bare? hbare with hnode | rfl
      · rcases (h.leaf _ node hnode).mp hbare with ⟨other, hother, hlocation, -⟩ | ⟨hbase, -⟩
        · rw [List.append_cancel_left hlocation] at hmoved
          exact absurd hother hmoved
        · rw [hfree] at hbase
          cases hbase
      · rcases h.made _ hbare with hbase | ⟨other, hlocation, hdir⟩
        · rw [HasDir, hfree] at hbase
          cases hbase
        · rw [← List.append_cancel_left hlocation] at hdir
          exact absurd hdir hend.not_hasDir

/-- In the exclusion tree, nothing but directories stands for the directories of the dump. -/
theorem hasDir_exclusion {node : Node} (hdir : base.HasDir (dump ++ relative))
    (hbare : root.bare? (exclusion ++ relative) = some node) : root.HasDir (exclusion ++ relative) := by
  rcases bare_of_bare? hbare with hnode | rfl
  · rcases (h.leaf _ node hnode).mp hbare with ⟨other, hother, hlocation, -⟩ | ⟨hbase, -⟩
    · rw [List.append_cancel_left hlocation] at hdir
      exact absurd hdir (h.ends other hother).not_hasDir
    · by_cases hrelative : relative = []
      · subst hrelative
        rw [List.append_nil]
        exact h.kept _ hsite.exclusionDir
      · rw [hsite.free hrelative] at hbase
        cases hbase
  · exact hbare

omit hsite in
/-- A directory of the dump gets its counterpart in the exclusion tree. -/
theorem put_dir (hdir : base.HasDir (dump ++ (relative ++ [name]))) (hparent : root.HasDir (exclusion ++ relative))
    (hfree : root.bare? (exclusion ++ (relative ++ [name])) = none) :
    Displaced base dump exclusion moved (root.put (exclusion ++ (relative ++ [name])) (.dir [])) := by
  have hput : (root.put (exclusion ++ (relative ++ [name])) (.dir [])).bare? =
      Function.update root.bare? (exclusion ++ (relative ++ [name])) (some (.dir [])) := by
    rw [← List.append_assoc] at hfree ⊢
    exact bare?_put_dir hparent (bare?_eq_none_iff.mp hfree)
  have hbare : ∀ location, location ≠ exclusion ++ (relative ++ [name]) →
      (root.put (exclusion ++ (relative ++ [name])) (.dir [])).bare? location = root.bare? location := by
    intro location hne
    rw [hput, Function.update_of_ne hne]
  have hnew : (root.put (exclusion ++ (relative ++ [name])) (.dir [])).HasDir (exclusion ++ (relative ++ [name])) := by
    rw [HasDir, hput, Function.update_self]
  constructor
  case once => exact h.once
  case ends => exact h.ends
  case leaf =>
    intro location node hnode
    by_cases hne : location = exclusion ++ (relative ++ [name])
    · rw [← h.leaf location node hnode]
      subst hne
      rw [HasDir] at hnew
      rw [hnew, hfree]
      constructor
      · rintro ⟨⟩
        cases hnode
      · rintro ⟨⟩
    · rw [hbare location hne]
      exact h.leaf location node hnode
  case kept =>
    intro location hlocation
    by_cases hne : location = exclusion ++ (relative ++ [name])
    · exact hne ▸ hnew
    · rw [HasDir, hbare location hne]
      exact h.kept location hlocation
  case made =>
    intro location hlocation
    by_cases hne : location = exclusion ++ (relative ++ [name])
    · exact .inr ⟨relative ++ [name], hne, hdir⟩
    · rw [HasDir, hbare location hne] at hlocation
      exact h.made location hlocation

/-- A dead end of the dump goes to its place in the exclusion tree. -/
theorem move {node after : Node} (hend : base.DeadEnd (dump ++ relative)) (hnode : node.isDir = false)
    (hwas : root.bare? (dump ++ relative) = some node)
    (hmoved : after.bare? =
      Function.update (Function.update root.bare? (dump ++ relative) none) (exclusion ++ relative) (some node)) :
    Displaced base dump exclusion (relative :: moved) after := by
  obtain ⟨hbase, hnot⟩ := h.bare?_dump hsite hnode hwas
  have hfree := h.free hsite hend hnot
  have hdirs : ∀ location, after.HasDir location ↔ root.HasDir location :=
    fun _ => hasDir_of_moved hnode hwas hfree hmoved
  have hapart : exclusion ++ relative ≠ dump ++ relative := (hsite.dump_ne_exclusion _ _).symm
  constructor
  case once => exact List.nodup_cons.mpr ⟨hnot, h.once⟩
  case ends =>
    intro other hmem
    rcases List.mem_cons.mp hmem with rfl | hmem
    · exact hend
    · exact h.ends other hmem
  case leaf =>
    intro location found hfound
    by_cases htarget : location = exclusion ++ relative
    · subst htarget
      rw [hmoved, Function.update_self]
      constructor
      · rintro ⟨rfl⟩
        exact .inl ⟨_, List.mem_cons_self, rfl, hbase⟩
      · rintro (⟨other, -, hlocation, hother⟩ | ⟨hother, -⟩)
        · rw [← List.append_cancel_left hlocation, hbase] at hother
          exact hother
        · rw [hsite.free (hsite.ne_nil_of_deadEnd hend)] at hother
          cases hother
    by_cases hsource : location = dump ++ relative
    · subst hsource
      rw [hmoved, Function.update_of_ne hapart.symm, Function.update_self]
      constructor
      · rintro ⟨⟩
      · rintro (⟨other, -, hlocation, -⟩ | ⟨-, hother⟩)
        · exact absurd hlocation (hsite.dump_ne_exclusion _ _)
        · exact absurd rfl (hother _ List.mem_cons_self)
    · rw [hmoved, Function.update_of_ne htarget, Function.update_of_ne hsource, h.leaf location found hfound]
      simp only [List.mem_cons, exists_eq_or_imp, forall_eq_or_imp, htarget, hsource, false_and, false_or,
        not_false_eq_true, true_and, ne_eq]
  case kept => exact fun location hlocation => (hdirs location).mpr (h.kept location hlocation)
  case made => exact fun location hlocation => h.made location ((hdirs location).mp hlocation)

end InSite

end Displaced
end Relocation
end ClassDump
