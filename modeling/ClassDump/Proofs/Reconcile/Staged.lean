import ClassDump.Proofs.Reconcile.Isolation
import ClassDump.Proofs.Walk.Abreast
import ClassDump.Proofs.Walk.Seen

/-! A class dump as it is seen before it is pruned, and while it is. What is a directory at the start stays one, since
every way to a directory stays open. A link that leads nowhere at the start may come to lead to a directory, and one
that leads to a file comes to lead nowhere when the file is moved. -/

namespace ClassDump

open Relocation

namespace Reconcile

/-- The world in which a class dump is about to be pruned, and the world before, in which the exclusion tree was not yet
there: nothing is gone, and the dump is the same. -/
structure Staged (task : Task) (before base : World) (dump out : Location) : Prop where
  setup : Setup base task.classdump task.exclusion dump out
  leads : ∃ n ≤ linkMax, before.Leads n task.classdump dump
  same : ∀ relative, base.root.bare? (dump ++ relative) = before.root.bare? (dump ++ relative)
  kept : ∀ location node, before.root.bare? location = some node → base.root.bare? location = some node
  rest : before.withRoot base.root = base
  conserved : ∀ moved after, Displaced base.root dump out moved after → Conserved before.root after dump out moved

variable {task : Task} {before base world : World} {dump out : Location} {moved later : List Location}
  {relative : Location} {name : String}

theorem staged_of_makable {above : Location} (hlegal : before.Legal) (hexclusion : task.exclusion.IsNormal)
    (hdump : before.locateFrom linkMax task.classdump = .ok ⟨dump, []⟩) (hdir : before.root.HasDir dump)
    (hmakable : before.Makable task.exclusion above) (hapart : ¬dump <+: above ++ [task.exclusion.name]) :
    Staged task before (before.withDir (above ++ [task.exclusion.name])) dump (above ++ [task.exclusion.name]) where
  setup := setup_of_makable hlegal hexclusion hdump hdir hmakable hapart
  leads := by
    obtain ⟨n, hn, hleads, -⟩ := World.exists_leads_of_locateFrom hdump
    exact ⟨n, hn, hleads⟩
  same := bare?_withDir_of_apart hmakable hapart
  kept _ _ hnode := hmakable.bare?_kept hnode
  rest := rfl
  conserved _ _ h :=
    conserved_of_displaced hmakable (setup_of_makable hlegal hexclusion hdump hdir hmakable hapart).site h

/-- A link of the dump that does not lead nowhere, by a path that is not too long. -/
def Way (base : World) (classdump : Path) (dump relative : Location) : Prop :=
  (∃ target, base.root.bare? (dump ++ relative) = some (.link target)) ∧
    (classdump.descend relative).byteLength < pathMax ∧ ¬base.root.DeadEnd (dump ++ relative)

/-- While these entries of the dump were moved, the last one first in the list, there was a moment at which the
condition held. -/
def AtMoment (before : World) (dump out : Location) (moved : List Location) (condition : World → Prop) : Prop :=
  ∃ earlier root, earlier <:+ moved ∧ Conserved before.root root dump out earlier ∧ condition (before.withRoot root)

theorem AtMoment.mono {condition : World → Prop} (h : AtMoment before dump out moved condition)
    (hlater : moved <:+ later) : AtMoment before dump out later condition := by
  obtain ⟨earlier, root, hsuffix, hconserved, hcondition⟩ := h
  exact ⟨earlier, root, hsuffix.trans hlater, hconserved, hcondition⟩

/-- The relative location is that of a link in the dump which led to no directory at the start, and to one at some
moment. -/
def Task.Turned (task : Task) (before : World) (dump out : Location) (moved : List Location) (relative : Location) :
    Prop :=
  (∃ target, before.root.get? (dump ++ relative) = some (.link target)) ∧
    before.isDir (task.classdump.descend relative) ≠ .ok true ∧
      AtMoment before dump out moved fun world => world.isDir (task.classdump.descend relative) = .ok true

theorem Task.Turned.mono (h : task.Turned before dump out moved relative) (hlater : moved <:+ later) :
    task.Turned before dump out later relative :=
  ⟨h.1, h.2.1, h.2.2.mono hlater⟩

theorem Task.Turned.short (h : task.Turned before dump out moved relative) :
    (task.classdump.descend relative).byteLength < pathMax := by
  obtain ⟨-, -, earlier, root, -, -, hisDir⟩ := h
  obtain ⟨-, node, hstat, -⟩ := World.ask_eq_true hisDir
  exact World.short_of_stat hstat

/-- The entry at the relative location cannot be moved: it is a link which led nowhere at some moment, or its path or
the new one is too long. -/
def Task.Stuck (task : Task) (before : World) (dump out : Location) (moved : List Location) (relative : Location) :
    Prop :=
  ∃ node, node.isDir = false ∧ before.root.get? (dump ++ relative) = some node ∧
    (node.isLink = true ∧
        AtMoment before dump out moved (fun world => world.pathExists (task.classdump.descend relative) ≠ .ok true) ∨
      pathMax ≤ (task.classdump.descend relative).byteLength ∨
      pathMax ≤ (task.exclusion.descend relative).byteLength)

theorem Task.Stuck.mono (h : task.Stuck before dump out moved relative) (hlater : moved <:+ later) :
    task.Stuck before dump out later relative := by
  obtain ⟨node, hnode, hget, hwhy⟩ := h
  exact ⟨node, hnode, hget, hwhy.imp (fun hlink => ⟨hlink.1, hlink.2.mono hlater⟩) id⟩

namespace Staged

variable (hstaged : Staged task before base dump out)
include hstaged

theorem leadsKept {n : Nat} {path : Path} {there : Location} (hleads : before.Leads n path there) :
    base.Leads n path there := by
  obtain ⟨rest, hparts, hreach⟩ := hleads
  have hstart : base.start path = before.start path := by
    rw [← hstaged.rest]
    rfl
  refine ⟨rest, ?_, ?_⟩
  · rw [hstart]
    exact hparts
  · rw [hstart]
    exact hreach.mono hstaged.kept

theorem leads_dump (hdir : base.root.HasDir (dump ++ relative)) :
    ∃ n ≤ linkMax, before.Leads n (task.classdump.descend relative) (dump ++ relative) := by
  obtain ⟨n, hn, hleads⟩ := hstaged.leads
  have hnames := hstaged.setup.legalNames hdir
  rw [Node.HasDir, hstaged.same] at hdir
  exact ⟨n, hn, hleads.descend_names (fun name hname => (hnames name hname).isName) hdir⟩

/-- A link that leads to a directory from the start is no dead end, and it leads there still. -/
theorem leads_of_link {target : String} {found : Node}
    (hlink : before.root.bare? (dump ++ (relative ++ [name])) = some (.link target))
    (hstat : before.stat (task.classdump.descend (relative ++ [name])) = .ok found) (hisDir : found.isDir = true) :
    ¬base.root.DeadEnd (dump ++ (relative ++ [name])) ∧
      (task.classdump.descend (relative ++ [name])).byteLength < pathMax ∧
        ∃ n ≤ linkMax, ∃ there, base.Leads n (task.classdump.descend (relative ++ [name])) there ∧
          base.root.HasDir there := by
  have hbase := hlink
  rw [← hstaged.same] at hbase
  have hname := (hstaged.setup.legalNames hbase name (by simp)).isName
  rw [← List.append_assoc] at hbase
  obtain ⟨n, hn, hleads⟩ := hstaged.leads_dump (Node.hasDir_of_bare? hbase)
  have hchild : task.classdump.descend (relative ++ [name]) = (task.classdump.descend relative).child name :=
    Path.descend_append _ _ _
  rw [hchild] at hstat ⊢
  obtain ⟨m, final, hreach, hm, hfinal, hlength⟩ := hleads.exists_reach_of_stat hstat
  have hbaseReach := hreach.mono hstaged.kept
  have hthere : base.root.HasDir final := hstaged.kept _ _ (Node.hasDir_of_isDir hfinal hisDir)
  rw [← List.append_assoc]
  refine ⟨fun hend => hend.not_hasDir_of_reach hname hbaseReach hthere, hlength, n + m, hm, final, ?_, hthere⟩
  exact (hstaged.leadsKept hleads).descend hbaseReach

section Still

variable (h : SetAside base dump out moved world)
include h

theorem silent_eq : world.silent = (before.withRoot world.root).silent := by
  have hrest := h.rest
  rw [← hstaged.rest] at hrest
  have hagain := congrArg (·.withRoot world.root) hrest
  exact hagain

theorem atMoment {condition : World → Prop} (hcondition : condition (before.withRoot world.root)) :
    AtMoment before dump out moved condition :=
  ⟨moved, world.root, List.suffix_rfl, hstaged.conserved _ _ h.tree, hcondition⟩

/-- What stands in the dump stood there from the start. -/
theorem bare?_before {node : Node} (hbare : world.root.bare? (dump ++ relative) = some node) :
    before.root.bare? (dump ++ relative) = some node := by
  rw [← hstaged.same]
  rcases Node.bare_of_bare? hbare with hnode | rfl
  · exact (h.tree.bare?_dump hstaged.setup.site hnode hbare).1
  · exact h.tree.hasDir_dump hstaged.setup.site hbare

theorem bare?_still {node : Node} (hbare : before.root.bare? (dump ++ relative) = some node)
    (hnot : relative ∉ moved) : world.root.bare? (dump ++ relative) = some node := by
  rw [← hstaged.same] at hbare
  exact h.tree.bare?_eq hbare fun other hother hsame => hnot (List.append_cancel_left hsame ▸ hother)

end Still

section Shown

variable (h : SetAside base dump out moved world) (hnot : relative ++ [name] ∉ moved) {node : Node}
  (hbare : before.root.bare? (dump ++ (relative ++ [name])) = some node)
include h hnot hbare

/-- What is shown as a directory at the start is shown as one still. -/
theorem shown_dir (hshown : (before.seen (task.classdump.descend relative) (name, node)).isDir = true) :
    (∃ found, world.root.bare? (dump ++ (relative ++ [name])) = some found ∧
        (world.seen (task.classdump.descend relative) (name, found)).isDir = true) ∧
      (base.root.HasDir (dump ++ (relative ++ [name])) ∨ Way base task.classdump dump (relative ++ [name])) := by
  have hstill := hstaged.bare?_still h hbare hnot
  rcases World.isDir_seen_iff.mp hshown with hnode | ⟨hlink, found, hstat, hisDir⟩
  · refine ⟨⟨node, hstill, World.isDir_seen_iff.mpr (.inl hnode)⟩, .inl ?_⟩
    rcases Node.bare_of_bare? hbare with hother | rfl
    · rw [hnode] at hother
      cases hother
    · rw [Node.HasDir, hstaged.same]
      exact hbare
  · obtain ⟨target, rfl⟩ := Node.isLink_iff.mp hlink
    have hchild : task.classdump.descend (relative ++ [name]) = (task.classdump.descend relative).child name :=
      Path.descend_append _ _ _
    rw [← hchild] at hstat
    obtain ⟨hend, hlength, n, hn, there, hleads, hthere⟩ := hstaged.leads_of_link hbare hstat hisDir
    obtain ⟨entries, hentries⟩ := Node.hasDir_iff.mp (h.tree.kept _ hthere)
    have hworld := World.stat_of_locateFrom ((h.leads hleads hthere).locateFrom hlength hn)
    rw [hentries, hchild] at hworld
    refine ⟨⟨_, hstill, World.isDir_seen_iff.mpr (.inr ⟨rfl, _, hworld, rfl⟩)⟩, .inr ⟨⟨target, ?_⟩, hlength, hend⟩⟩
    rw [hstaged.same]
    exact hbare

omit hnot in
/-- What comes to be shown as a directory is a link that leads to one now. -/
theorem turned_of_shown (hnul : task.classdump.hasNul = false)
    (hbefore : (before.seen (task.classdump.descend relative) (name, node)).isDir = false)
    (hshown : (world.seen (task.classdump.descend relative) (name, node)).isDir = true) :
    task.Turned before dump out moved (relative ++ [name]) := by
  have hnode : node.isDir = false := by
    simp only [World.seen, Bool.or_eq_false_iff] at hbefore
    exact hbefore.1
  rcases World.isDir_seen_iff.mp hshown with hother | ⟨hlink, found, hstat, hisDir⟩
  · rw [hnode] at hother
    cases hother
  · have hget := (Node.bare?_eq_some_iff hnode).mp hbare
    have hchild : task.classdump.descend (relative ++ [name]) = (task.classdump.descend relative).child name :=
      Path.descend_append _ _ _
    refine ⟨?_, fun hstart => ?_, hstaged.atMoment h ?_⟩
    · obtain ⟨target, rfl⟩ := Node.isLink_iff.mp hlink
      exact ⟨target, hget⟩
    · obtain ⟨-, start, hfirst, hdir⟩ := World.ask_eq_true hstart
      rw [hchild] at hfirst
      rw [World.isDir_seen_iff.mpr (.inr ⟨hlink, start, hfirst, hdir⟩)] at hbefore
      cases hbefore
    · have hbase := hbare
      rw [← hstaged.same] at hbase
      have hfree := Path.hasNul_descend hnul (hstaged.setup.legalNames hbase)
      rw [← World.isDir_of_silent (hstaged.silent_eq h)]
      rw [← hchild] at hstat
      exact (World.ask_of_stat hfree hstat).trans (congrArg Except.ok hisDir)

end Shown

/-- What is shown of a directory below which nothing was set aside yet. -/
theorem shown_of_entries (h : SetAside base dump out moved world) (hnul : task.classdump.hasNul = false)
    (hdir : base.root.HasDir (dump ++ relative)) (hfresh : ∀ other ∈ moved, ¬relative <+: other)
    {entries others : List (String × Node)} {text : String}
    (htext : ((Walk.Place.ofPath task.classdump).descend relative).text = text)
    (hentries : before.root.get? (dump ++ relative) = some (.dir entries))
    (hothers : world.root.get? (dump ++ relative) = some (.dir others))
    (hlist : world.list text (task.classdump.descend relative) =
      .ok ((Node.dir others).children.map (world.seen (task.classdump.descend relative)))) :
    Walk.Shown (fun location => base.root.HasDir (dump ++ location)) (Way base task.classdump dump)
      (Candidate base task.classdump dump) (task.Turned before dump out moved) relative
      ((Node.dir entries).children.map (before.seen (task.classdump.descend relative)))
      ((Node.dir others).children.map (world.seen (task.classdump.descend relative))) := by
  have hnot : ∀ name, relative ++ [name] ∉ moved := fun name hmem => hfresh _ hmem (List.prefix_append _ _)
  have hseen : ∀ name isDir,
      ⟨name, isDir⟩ ∈ (Node.dir others).children.map (world.seen (task.classdump.descend relative)) ↔
        ∃ node, world.root.bare? (dump ++ (relative ++ [name])) = some node ∧
          (world.seen (task.classdump.descend relative) (name, node)).isDir = isDir := by
    intro name isDir
    rw [World.mem_seen_iff hothers, List.append_assoc]
  constructor
  case names =>
    intro name isDir hmem
    obtain ⟨node, hnode, -⟩ := (hseen name isDir).mp hmem
    have hbefore := hstaged.bare?_before h hnode
    rw [← List.append_assoc] at hbefore
    exact ⟨_, (World.mem_seen_iff hentries).mpr ⟨node, hbefore, rfl⟩⟩
  case dirs =>
    intro name hmem
    obtain ⟨node, hnode, hisDir⟩ := (World.mem_seen_iff hentries).mp hmem
    rw [List.append_assoc] at hnode
    obtain ⟨hstill, hkind⟩ := hstaged.shown_dir h (hnot name) hnode hisDir
    exact ⟨(hseen name true).mpr hstill, hkind⟩
  case files =>
    intro name hmem
    obtain ⟨node, hnode, hisDir⟩ := (World.mem_seen_iff hentries).mp hmem
    rw [List.append_assoc] at hnode
    have hstill := hstaged.bare?_still h hnode (hnot name)
    cases hnow : (world.seen (task.classdump.descend relative) (name, node)).isDir with
    | true =>
        exact .inr ⟨(hseen name true).mpr ⟨node, hstill, hnow⟩, hstaged.turned_of_shown h hnode hnul hisDir hnow⟩
    | false =>
        have hmem' := (hseen name false).mpr ⟨node, hstill, hnow⟩
        rw [← htext] at hlist
        obtain ⟨names, last, hpath, hcandidate⟩ :=
          leaf_of_listed hstaged.setup h ⟨relative, rfl, fun _ _ => hdir⟩
            ((Walk.Place.path_descend_ofPath task.classdump relative).symm ▸ hlist) hmem' rfl
        rw [Walk.Place.child_descend_ofPath] at hpath
        rw [← Path.descend_injective _ hpath] at hcandidate
        exact .inl ⟨hmem', hcandidate⟩

/-- A directory of the dump is listed at the start and later, or neither. What is shown as a directory at the start is
shown as one later too. -/
theorem list_cases (h : SetAside base dump out moved world) {dry : World} (hdry : dry.silent = before.silent)
    (hfaults : before.faults = {}) (hnormal : task.classdump.IsNormal) (hnul : task.classdump.hasNul = false)
    (hdir : base.root.HasDir (dump ++ relative)) (hfresh : ∀ other ∈ moved, ¬relative <+: other) :
    (∃ error refusal,
      dry.list ((Walk.Place.ofPath task.classdump).descend relative).text (task.classdump.descend relative) =
        .error error ∧
      world.list ((Walk.Place.ofPath task.classdump).descend relative).text (task.classdump.descend relative) =
        .error refusal) ∨
    ∃ listed seen,
      dry.list ((Walk.Place.ofPath task.classdump).descend relative).text (task.classdump.descend relative) =
        .ok listed ∧
      world.list ((Walk.Place.ofPath task.classdump).descend relative).text (task.classdump.descend relative) =
        .ok seen ∧
      Walk.Shown (fun location => base.root.HasDir (dump ++ location)) (Way base task.classdump dump)
        (Candidate base task.classdump dump) (task.Turned before dump out moved) relative listed seen := by
  have hspelled := ((Walk.Place.spelled_ofPath hnormal).descend (hstaged.setup.legalNames hdir)).length
  rw [Walk.Place.path_descend_ofPath] at hspelled
  generalize htext : ((Walk.Place.ofPath task.classdump).descend relative).text = text at hspelled ⊢
  rw [World.list_of_silent hdry]
  obtain ⟨n, hn, hleads⟩ := hstaged.leads_dump hdir
  obtain ⟨m, hm, hworld⟩ := h.leads_dump hstaged.setup hdir
  have hbefore := hdir
  rw [Node.HasDir, hstaged.same] at hbefore
  obtain ⟨entries, hentries⟩ := Node.hasDir_iff.mp hbefore
  obtain ⟨others, hothers⟩ := Node.hasDir_iff.mp (h.tree.kept _ hdir)
  have hfault : before.faults.list.lookup text = none := by
    rw [hfaults]
    rfl
  have hfault' : world.faults.list.lookup text = none := by
    rw [h.faults_eq, ← hstaged.rest]
    exact hfault
  rw [hleads.list_eq hn hfault hspelled hentries, hworld.list_eq hm hfault' hspelled hothers]
  split
  · exact .inl ⟨_, _, rfl, rfl⟩
  · next hshort =>
    have hlist := (hworld.list_eq hm hfault' hspelled hothers).trans (if_neg hshort)
    exact .inr ⟨_, _, rfl, rfl, hstaged.shown_of_entries h hnul hdir hfresh htext hentries hothers hlist⟩

end Staged
end Reconcile
end ClassDump
