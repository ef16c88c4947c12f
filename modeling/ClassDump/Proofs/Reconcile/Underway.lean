import ClassDump.Proofs.Reconcile.Completion
import ClassDump.Proofs.Relocation.Prepared
import ClassDump.Proofs.Walk.Invariant
import ClassDump.Proofs.Walk.Notes
import ClassDump.Proofs.Walk.Place
import ClassDump.Proofs.Walk.Seen

/-! A class dump while it is pruned. The classes that were pruned so far are those that were set aside, and every call
of the error handler is one entry skipped. The walk only comes to directories of the dump and only hands over what is
no directory, however the links of the dump change their meaning on the way. -/

namespace ClassDump

open Relocation

namespace Reconcile

/-- The relative location is that of a class that is not to be kept. -/
def Task.Prunes (task : Task) (relative : Location) : Prop :=
  isClassFile (task.classdump.descend relative) = true ∧ task.references.contains (Path.mk .here relative).text = false

/-- The scan of a class dump with the calls of its error handler, after some locations were set aside. -/
structure Underway (task : Task) (base : World) (dump out : Location) (moved : List Location)
    (state : Scan × List Path) : Prop where
  aside : SetAside base dump out moved state.1.world
  prunes : ∀ relative ∈ moved, task.Prunes relative
  pruned : state.1.pruned = moved.length
  skipped : state.1.skipped = state.2.length

variable {task : Task} {base : World} {dump out : Location} {moved : List Location} {scan after : Scan}
  {calls : List Path}

/-- Reports and what is kept leave it as it is. -/
theorem Underway.of_silent (h : Underway task base dump out moved (scan, calls))
    (hworld : after.world.silent = scan.world.silent) (hpruned : after.pruned = scan.pruned)
    (hskipped : after.skipped = scan.skipped) : Underway task base dump out moved (after, calls) where
  aside := h.aside.of_silent hworld
  prunes := h.prunes
  pruned := hpruned.trans h.pruned
  skipped := hskipped.trans h.skipped

/-- What a visit of a candidate does: it passes over what is no class, keeps a class that is referenced, and sets any
other one aside or meets a refusal. -/
theorem candidate_cases (hsetup : Setup base task.classdump task.exclusion dump out) (hdry : task.dryRun = false)
    (h : SetAside base dump out moved scan.world) {relative : Location} {name : String}
    (hcandidate : Candidate base task.classdump dump (relative ++ [name])) :
    (isClassFile (task.classdump.descend (relative ++ [name])) = false ∧
      visit task (task.classdump.descend (relative ++ [name])) scan = (.ok .proceed, scan)) ∨
    (isClassFile (task.classdump.descend (relative ++ [name])) = true ∧
      task.references.contains (Path.mk .here (relative ++ [name])).text = true ∧
      ∃ next, visit task (task.classdump.descend (relative ++ [name])) scan = Scan.proceed task.interval next ∧
        next.world.silent = scan.world.silent ∧ next.kept = scan.kept + 1 ∧ next.pruned = scan.pruned ∧
        next.skipped = scan.skipped) ∨
    (task.Prunes (relative ++ [name]) ∧ ¬Faulty base (task.classdump.descend (relative ++ [name])) ∧
      ∃ next, visit task (task.classdump.descend (relative ++ [name])) scan = Scan.proceed task.interval next ∧
        SetAside base dump out ((relative ++ [name]) :: moved) next.world ∧ next.kept = scan.kept ∧
        next.pruned = scan.pruned + 1 ∧ next.skipped = scan.skipped) ∨
    (task.Prunes (relative ++ [name]) ∧
      (scan.world.pathExists (task.classdump.descend (relative ++ [name])) = .ok true →
        (task.exclusion.descend (relative ++ [name])).byteLength < pathMax →
          Faulty base (task.classdump.descend (relative ++ [name]))) ∧
      ∃ error next, visit task (task.classdump.descend (relative ++ [name])) scan = (.error (.os error), next) ∧
        SetAside base dump out moved next.world ∧ next.kept = scan.kept ∧ next.pruned = scan.pruned ∧
        next.skipped = scan.skipped) := by
  cases hclass : isClassFile (task.classdump.descend (relative ++ [name])) with
  | false => exact .inl ⟨rfl, visit_of_not_isClassFile hclass scan⟩
  | true =>
      refine .inr ?_
      rw [visit_descend hclass]
      cases hreferences : task.references.contains (Path.mk .here (relative ++ [name])).text with
      | true =>
          obtain ⟨logged, hlogged, heq⟩ := exists_decideOn_of_referenced
            (task.classdump.descend (relative ++ [name])) scan hreferences
          exact .inl ⟨rfl, rfl, _, heq, hlogged.silent, rfl, rfl, rfl⟩
      | false =>
          refine .inr ?_
          obtain ⟨logged, hlogged, heq⟩ := exists_decideOn_of_relocate
            (task.classdump.descend (relative ++ [name])) scan hreferences hdry
          rcases (h.of_silent hlogged.silent).relocate_cases hsetup hcandidate with
            ⟨world, hrelocate, hworld, hsound⟩ | ⟨error, world, hrelocate, hworld, hfault⟩
          · rw [hrelocate] at heq
            exact .inl ⟨⟨hclass, hreferences⟩, hsound, _, heq, hworld, rfl, rfl, rfl⟩
          · rw [hrelocate] at heq
            refine .inr ⟨⟨hclass, hreferences⟩, ?_, error, _, heq, hworld, rfl, rfl, rfl⟩
            rwa [World.pathExists_of_silent hlogged.silent] at hfault

theorem Underway.visit (hsetup : Setup base task.classdump task.exclusion dump out) (hdry : task.dryRun = false)
    {relative : Location} {name : String}
    (hcandidate : Candidate base task.classdump dump (relative ++ [name]))
    (h : Underway task base dump out moved (scan, calls)) :
    ∃ later, Underway task base dump out later
      ((Reconcile.visit task (task.classdump.descend (relative ++ [name])) scan).2, calls) := by
  rcases candidate_cases hsetup hdry h.aside hcandidate with ⟨-, heq⟩ | ⟨-, -, next, heq, hworld, -, hpruned, hskipped⟩ |
    ⟨hprunes, -, next, heq, hworld, -, hpruned, hskipped⟩ | ⟨-, -, error, next, heq, hworld, -, hpruned, hskipped⟩
  · rw [heq]
    exact ⟨moved, h⟩
  · obtain ⟨hsilent, -, hpruned', hskipped'⟩ := Scan.proceed_silent task.interval next
    rw [heq]
    exact ⟨moved, h.of_silent (hsilent.trans hworld) (hpruned'.trans hpruned) (hskipped'.trans hskipped)⟩
  · have hstep : Underway task base dump out ((relative ++ [name]) :: moved) (next, calls) := by
      refine ⟨hworld, fun other hother => ?_, hpruned.trans (congrArg (· + 1) h.pruned), hskipped.trans h.skipped⟩
      rcases List.mem_cons.mp hother with rfl | hother
      · exact hprunes
      · exact h.prunes other hother
    obtain ⟨hsilent, -, hpruned', hskipped'⟩ := Scan.proceed_silent task.interval next
    rw [heq]
    exact ⟨_, hstep.of_silent hsilent hpruned' hskipped'⟩
  · rw [heq]
    exact ⟨moved, hworld, h.prunes, hpruned.trans h.pruned, hskipped.trans h.skipped⟩

theorem Underway.skip (h : Underway task base dump out moved (scan, calls)) (path : Path) (error : OsError) :
    Underway task base dump out moved (Reconcile.skip path error scan, path :: calls) where
  aside := h.aside.of_silent (World.silent_log _ _ _ _)
  prunes := h.prunes
  pruned := h.pruned
  skipped := by
    change scan.skipped + 1 = calls.length + 1
    rw [show scan.skipped = calls.length from h.skipped]

/-- A directory that the walk comes to: if it can be listed, it is one of the dump. -/
def Branch (task : Task) (base : World) (dump : Location) (place : Walk.Place) (world : World) : Prop :=
  ∃ relative, place = (Walk.Place.ofPath task.classdump).descend relative ∧
    ∀ listed, world.list place.text place.path = .ok listed → base.root.HasDir (dump ++ relative)

/-- An entry that the walk hands over: it is no directory of the dump. -/
def Leaf (task : Task) (base : World) (dump : Location) (path : Path) : Prop :=
  ∃ relative name, path = task.classdump.descend (relative ++ [name]) ∧
    Candidate base task.classdump dump (relative ++ [name])

/-- A link of the dump that leads somewhere is still in its place and taken for a link. -/
theorem isLink_of_stat {later : World} (hsetup : Setup base task.classdump task.exclusion dump out)
    (hlater : SetAside base dump out moved later) (hnul : task.classdump.hasNul = false) {relative : Location}
    {name : String} {node found : Node} (hbare : base.root.bare? (dump ++ (relative ++ [name])) = some node)
    (hlink : node.isLink = true) (hshort : (task.classdump.descend (relative ++ [name])).byteLength < pathMax)
    (hstat : later.stat (task.classdump.descend (relative ++ [name])) = .ok found) :
    later.isLink (task.classdump.descend (relative ++ [name])) = true := by
  obtain ⟨target, rfl⟩ := Node.isLink_iff.mp hlink
  have hlegal := hsetup.legalNames hbare
  have hname := hlegal name (by simp)
  have hfree := Path.hasNul_descend hnul hlegal
  have hbase := Node.hasDir_above hbare
  obtain ⟨n, hn, hleads⟩ := hlater.leads_dump hsetup hbase
  have hnot : relative ++ [name] ∉ moved := by
    intro hmoved
    have hgone := hlater.tree.gone hsetup.site hmoved
    rw [← List.append_assoc] at hgone
    obtain ⟨errno, herror⟩ := hleads.stat_of_missing (hlater.tree.kept _ hbase) hname.isName.1 hname.isName.2.1 hgone
    rw [Path.child_eq_descend, ← Path.descend_append, hstat] at herror
    cases herror
  have hstill := hlater.tree.bare?_eq hbare fun other hother heq => hnot (List.append_cancel_left heq ▸ hother)
  rw [Node.bare?_eq_some_iff rfl, ← List.append_assoc] at hstill
  rw [Path.descend_append, ← Path.child_eq_descend] at hshort hfree ⊢
  exact hleads.isLink_child hn hname hshort hfree hstill

section Listed

variable {world later : World} {place : Walk.Place} {listed : List World.Listed}
  {entry : World.Listed} (hsetup : Setup base task.classdump task.exclusion dump out)
  (h : SetAside base dump out moved world) (hplace : Branch task base dump place world)
  (hlist : world.list place.text place.path = .ok listed) (hentry : entry ∈ listed)
include hsetup h hplace hlist hentry

/-- What is listed in a directory of the dump stands there. -/
theorem exists_node_of_listed :
    ∃ relative node, place = (Walk.Place.ofPath task.classdump).descend relative ∧
      base.root.HasDir (dump ++ relative) ∧ LegalName entry.name ∧
        world.root.get? (dump ++ (relative ++ [entry.name])) = some node ∧
          entry = world.seen (task.classdump.descend relative) (entry.name, node) := by
  obtain ⟨relative, rfl, hdir⟩ := hplace
  have hbase := hdir listed hlist
  obtain ⟨-, -, entries, hstat, rfl⟩ := World.exists_entries_of_list hlist
  obtain ⟨⟨name, node⟩, hmem, rfl⟩ := List.mem_map.mp hentry
  rw [Walk.Place.path_descend_ofPath] at hstat
  obtain ⟨n, hn, hleads⟩ := h.leads_dump hsetup hbase
  have hget := (Node.get?_child (hleads.get?_of_stat hstat) name).trans (Node.mem_distinct_iff.mp hmem)
  rw [List.append_assoc] at hget
  refine ⟨relative, node, rfl, hbase, ?_, hget, by rw [Walk.Place.path_descend_ofPath]; rfl⟩
  cases hnode : node.isDir with
  | false =>
      have hbare := (h.tree.bare?_dump hsetup.site hnode ((Node.bare?_eq_some_iff hnode).mpr hget)).1
      exact hsetup.legalNames hbare name (by simp)
  | true =>
      have hthere := Node.hasDir_of_isDir hget hnode
      exact hsetup.legalNames (h.tree.hasDir_dump hsetup.site hthere) name (by simp)

theorem leaf_of_listed (hisDir : entry.isDir = false) : Leaf task base dump (place.path.child entry.name) := by
  obtain ⟨relative, node, rfl, hbase, hname, hget, hseen⟩ := exists_node_of_listed hsetup h hplace hlist hentry
  rw [hseen] at hisDir
  simp only [World.seen, Bool.or_eq_false_iff] at hisDir
  obtain ⟨hnode, hlink⟩ := hisDir
  have hbare := (h.tree.bare?_dump hsetup.site hnode ((Node.bare?_eq_some_iff hnode).mpr hget)).1
  refine ⟨relative, entry.name, Walk.Place.child_descend_ofPath _ _ _, node, hnode, hbare,
    fun n there hleads hthere => ?_⟩
  by_contra hfits
  obtain ⟨hlength, hn⟩ := not_or.mp hfits
  obtain ⟨m, -, hparent⟩ := h.leads_dump hsetup hbase
  obtain ⟨entries, hentries⟩ := Node.hasDir_iff.mp (h.tree.kept _ hthere)
  have hstat := World.stat_of_locateFrom ((h.leads hleads hthere).locateFrom (Nat.not_le.mp hlength) (Nat.not_lt.mp hn))
  -- neither a file nor a special file is a way to a directory
  have hapart : ∀ found : Node, world.root.get? (dump ++ (relative ++ [entry.name])) = some found →
      found.isDir = false → found.isLink = false → ¬base.root.HasDir there := by
    intro found hfound hleaf hplain hdir
    have hstands := (@Node.bare?_eq_some_iff world.root _ _ hleaf).mpr hfound
    rw [← List.append_assoc] at hstands
    have hway := hparent.descend (.down hname.isName hstands hplain (.done _))
    rw [← Path.descend_append] at hway
    obtain ⟨-, rfl⟩ := (h.leads hleads hdir).unique hway
    rw [h.tree.kept _ hdir] at hstands
    cases hstands
    cases hleaf
  cases node with
  | dir inner => cases hnode
  | file data => exact absurd hthere (hapart (.file data) hget rfl rfl)
  | special => exact absurd hthere (hapart .special hget rfl rfl)
  | link target =>
      rw [Path.child_eq_descend, ← Path.descend_append, hstat, hentries] at hlink
      cases hlink

/-- What is listed as a directory is one of the dump when the walk comes to it, or it cannot be listed. -/
theorem branch_of_listed (hnormal : task.classdump.IsNormal) (hnul : task.classdump.hasNul = false)
    {others : List Location}
    (hlater : SetAside base dump out others later) (hisDir : entry.isDir = true)
    (hlink : later.isLink (place.path.child entry.name) = false) :
    Branch task base dump (place.child entry.name) later := by
  obtain ⟨relative, node, rfl, hbase, hname, hget, hseen⟩ := exists_node_of_listed hsetup h hplace hlist hentry
  refine ⟨relative ++ [entry.name], (Walk.Place.descend_concat _ _ _).symm, fun inner hinner => ?_⟩
  cases hnode : node.isDir with
  | true => exact h.tree.hasDir_dump hsetup.site (Node.hasDir_of_isDir hget hnode)
  | false =>
      exfalso
      have hbare := (h.tree.bare?_dump hsetup.site hnode ((Node.bare?_eq_some_iff hnode).mpr hget)).1
      obtain ⟨-, htext, found, hstat, -⟩ := World.exists_entries_of_list hinner
      have hislink : node.isLink = true := by
        rw [hseen] at hisDir
        simp only [World.seen, hnode, Bool.false_or, Bool.and_eq_true] at hisDir
        exact hisDir.1
      rw [Walk.Place.child_descend_ofPath] at hlink
      rw [← Walk.Place.descend_concat] at htext hstat
      have hshort := Nat.lt_of_le_of_lt
        ((Walk.Place.spelled_ofPath hnormal).descend (hsetup.legalNames hbare)).length htext
      rw [Walk.Place.path_descend_ofPath] at hstat hshort
      rw [isLink_of_stat hsetup hlater hnul hbare hislink hshort hstat] at hlink
      cases hlink

end Listed

end Reconcile
end ClassDump
