import ClassDump.Proofs.Store.Slot

/-! Worlds that have come out of another one without anything being created: entries are gone at most, and files may say
something else. Whatever a path still leads to, it has led to before, over as many links. -/

namespace ClassDump

namespace Node

variable {root : Node} {here : Location}

/-- What stands somewhere in the tree stood there in the other one, though a file may have held other data. -/
def Within (root base : Node) : Prop :=
  ∀ location node, root.bare? location = some node →
    ∃ old, base.bare? location = some old ∧ (old = node ∨ old.isFile = true ∧ node.isFile = true)

theorem Within.refl (root : Node) : root.Within root :=
  fun _ node hnode => ⟨node, hnode, .inl rfl⟩

theorem Within.trans {middle base : Node} (h : root.Within middle) (hmiddle : middle.Within base) :
    root.Within base := by
  intro location node hnode
  obtain ⟨old, hold, hsame⟩ := h location node hnode
  obtain ⟨older, holder, hbefore⟩ := hmiddle location old hold
  refine ⟨older, holder, ?_⟩
  rcases hsame with rfl | ⟨hfile, hnow⟩
  · exact hbefore
  · rcases hbefore with rfl | ⟨hfirst, -⟩
    · exact .inr ⟨hfile, hnow⟩
    · exact .inr ⟨hfirst, hnow⟩

theorem Within.bare?_eq {base node : Node} (h : root.Within base) (hnode : root.bare? here = some node)
    (hfile : node.isFile = false) : base.bare? here = some node := by
  obtain ⟨old, hold, rfl | ⟨-, hnow⟩⟩ := h here node hnode
  · exact hold
  · rw [hfile] at hnow
    cases hnow

theorem Within.hasDir {base : Node} (h : root.Within base) (hdir : root.HasDir here) : base.HasDir here :=
  h.bare?_eq hdir rfl

theorem Within.legal {base : Node} (h : root.Within base) (hlegal : base.Legal) : root.Legal := by
  intro location node hnode
  obtain ⟨old, hold, -⟩ := h location node hnode
  exact hlegal location old hold

theorem Within.reach {base : Node} (h : root.Within base) {n : Nat} {components : List String} {there : Location}
    (hreach : root.Reach n here components there) : base.Reach n here components there := by
  induction hreach with
  | done here => exact .done here
  | dot hdir _ ih => exact .dot (h.hasDir hdir) ih
  | up hdir _ ih => exact .up (h.hasDir hdir) ih
  | down hname hnode hlink _ ih =>
      obtain ⟨old, hold, rfl | ⟨hfile, -⟩⟩ := h _ _ hnode
      · exact .down hname hold hlink ih
      · refine .down hname hold ?_ ih
        cases old with
        | file data => rfl
        | link target => cases hfile
        | dir entries => cases hfile
        | special => cases hfile
  | link hname hnode _ ih => exact .link hname (h.bare?_eq hnode rfl) ih

/-- As many double dots as a directory has names below another one lead up to that one. -/
theorem reach_ups {names : List String} (hdir : root.HasDir (here ++ names)) :
    root.Reach 0 (here ++ names) (List.replicate names.length "..") here := by
  induction names generalizing here with
  | nil =>
      rw [List.append_nil]
      exact .done here
  | cons name rest ih =>
      rw [List.append_cons] at hdir ⊢
      have hlast : root.Reach 0 (here ++ [name]) [".."] here := by
        refine .up (hasDir_of_hasDir_append hdir) ?_
        rw [List.dropLast_concat]
        exact .done here
      rw [List.length_cons, List.replicate_succ']
      exact (ih hdir).append hlast

theorem within_erase {name : String} (hdir : root.HasDir here) : (root.erase (here ++ [name])).Within root := by
  intro location node hnode
  by_cases hbelow : here ++ [name] <+: location
  · obtain ⟨rest, rfl⟩ := hbelow
    have hget := @get?_replaced_append root here name (fun _ => none) hdir rest
    rw [bare?, List.append_assoc, List.singleton_append] at hnode
    change Option.map bare ((root.replaced (here ++ [name]) fun _ => none).get? _) = _ at hnode
    rw [hget] at hnode
    cases hnode
  · have hsame := bare?_replaced_of_not_prefix (fun _ => none) hdir hbelow
    exact ⟨node, hsame.symm.trans hnode, .inl rfl⟩

end Node

namespace World

/-- The world has come out of the other one without anything being created. The working directory is the one that it
was, though it may be among what was removed. -/
structure Within (world base : World) : Prop where
  root : world.root.Within base.root
  workingDir : ∃ gone, base.workingDir.location = world.workingDir.location ++ gone ∧
    world.workingDir.removed = gone ++ base.workingDir.removed

namespace Within

variable {world base : World}

theorem refl (world : World) : world.Within world :=
  ⟨.refl _, [], (List.append_nil _).symm, rfl⟩

theorem trans {middle : World} (h : world.Within middle) (hmiddle : middle.Within base) : world.Within base := by
  obtain ⟨gone, hlocation, hremoved⟩ := h.workingDir
  obtain ⟨before, hbefore, hbase⟩ := hmiddle.workingDir
  refine ⟨h.root.trans hmiddle.root, gone ++ before, ?_, ?_⟩
  · rw [hbefore, hlocation, List.append_assoc]
  · rw [hremoved, hbase, List.append_assoc]

variable {n : Nat} {path : Path} {there : Location}

/-- Where a path leads now, it has led before. -/
theorem leads (h : world.Within base) (hlegal : base.Legal) (hleads : world.Leads n path there) :
    base.Leads n path there := by
  obtain ⟨rest, hparts, hreach⟩ := hleads
  unfold Leads start at *
  cases habsolute : path.isAbsolute with
  | true =>
      rw [habsolute] at hparts hreach
      exact ⟨rest, hparts, h.root.reach hreach⟩
  | false =>
      obtain ⟨gone, hlocation, hremoved⟩ := h.workingDir
      rw [habsolute] at hparts hreach
      simp only [Bool.false_eq_true, if_false] at hparts hreach ⊢
      -- what was removed of the way up from the working directory are directories still
      have hdir := hlegal.workingDir
      rw [hlocation] at hdir
      refine ⟨List.replicate gone.length ".." ++ rest, ?_, ?_⟩
      · rw [hparts, hremoved, List.length_append, Nat.add_comm,
          ← List.replicate_append_replicate, List.append_assoc]
      · rw [hlocation]
        have hall := (Node.reach_ups hdir).append (h.root.reach hreach)
        rwa [Nat.zero_add] at hall

end Within

theorem within_removeAt {world : World} {above : Location} (hdir : world.root.HasDir above) (name : String) :
    (world.removeAt (above ++ [name])).Within world where
  root := Node.within_erase hdir
  workingDir := by
    unfold removeAt Place.removedAt
    dsimp only
    split
    · next hbelow =>
      have habove := (List.prefix_append above [name]).trans (List.isPrefixOf_iff_prefix.mp hbelow)
      rw [List.dropLast_concat, Place.clearedBelow, if_pos (List.isPrefixOf_iff_prefix.mpr habove)]
      exact ⟨_, (List.prefix_iff_eq_append.mp habove).symm, rfl⟩
    · exact ⟨[], (List.append_nil _).symm, rfl⟩

theorem within_remove (world : World) (path : Path) : (world.remove path).Within world := by
  unfold remove
  split
  · next parent name _ hslot =>
    obtain ⟨-, -, -, -, above, entries, -, hentries, hsame⟩ := exists_above_of_slot hslot
    obtain ⟨rfl, rfl, -⟩ := Slot.mk.inj hsame
    exact within_removeAt (Node.hasDir_iff.mpr ⟨entries, hentries⟩) _
  · exact .refl world

end World
end ClassDump
