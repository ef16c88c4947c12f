import ClassDump.Proofs.Reconcile.Outside
import ClassDump.Proofs.Walk.Outline
import Mathlib.Data.Set.Card

/-! Pruning a class dump without links, where moves and listings may fail. What becomes of a class is decided by the
class alone: by its relative location, the references and the failure that is about to hit its move. Only a directory
that cannot be listed keeps the walk from what lies below it. The counts of the run are the numbers of classes of each
fate. -/

namespace ClassDump

open Relocation

theorem ncard_eq_length {α : Type} {list : List α} (h : list.Nodup) {set : Set α} (hset : ∀ a, a ∈ set ↔ a ∈ list) :
    set.ncard = list.length := by
  classical
  have hfinset : set = (list.toFinset : Set α) := by
    ext a
    rw [hset, List.coe_toFinset]
    rfl
  rw [hfinset, Set.ncard_coe_finset, List.toFinset_card_of_nodup h]

namespace Reconcile

/-- What becomes of an entry of a class dump that the walk comes to: it is no class file and left alone, it is
referenced and kept, it goes to the exclusion tree, or the system refuses to move it. -/
inductive Fate where
  | passed
  | kept
  | moved
  | refused
deriving DecidableEq

variable {task : Task} {world base : World} {dump out : Location} {relative : Location}

/-- What becomes of the entry at a relative location, by itself. -/
def Task.fate (task : Task) (world : World) (relative : Location) : Fate :=
  if isClassFile (task.classdump.descend relative) = false then .passed
  else if task.references.contains (Path.mk .here relative).text then .kept
  else
    match world.faults.move.lookup (task.classdump.descend relative).text with
    | none => .moved
    | some errno => if errno = .crossDevice then .moved else .refused

def Task.Closed (task : Task) (world : World) (relative : Location) : Prop :=
  (world.faults.list.lookup ((Walk.Place.ofPath task.classdump).descend relative).text).isSome = true

instance (task : Task) (world : World) : DecidablePred (task.Closed world) :=
  fun _ => inferInstanceAs (Decidable (_ = true))

theorem fate_eq_passed (h : isClassFile (task.classdump.descend relative) = false) :
    task.fate world relative = .passed :=
  if_pos h

theorem fate_eq_kept (hclass : isClassFile (task.classdump.descend relative) = true)
    (hreferences : task.references.contains (Path.mk .here relative).text = true) :
    task.fate world relative = .kept := by
  unfold Task.fate
  rw [if_neg (by simp [hclass]), if_pos hreferences]

/-- A class that is not referenced is moved unless the system refuses that; otherwise it could only be a special file
that would have to be copied. -/
theorem fate_of_prunes (world : World) (h : task.Prunes relative) :
    (task.fate world relative = .moved ∧ (Faulty world (task.classdump.descend relative) →
        (task.classdump.descend relative).text ∈ world.faults.apart ∧
          world.lstat (task.classdump.descend relative) = .ok .special)) ∨
      (task.fate world relative = .refused ∧ Faulty world (task.classdump.descend relative)) := by
  obtain ⟨hclass, hreferences⟩ := h
  unfold Task.fate Faulty
  rw [if_neg (by simp [hclass]), if_neg (by simp [hreferences])]
  cases hfault : world.faults.move.lookup (task.classdump.descend relative).text with
  | none =>
      refine .inl ⟨rfl, ?_⟩
      rintro (⟨errno, ⟨⟩, -⟩ | hspecial)
      exact hspecial
  | some errno =>
      by_cases hcross : errno = .crossDevice
      · refine .inl ⟨if_pos hcross, ?_⟩
        rintro (⟨other, ⟨⟩, hne⟩ | hspecial)
        · exact absurd hcross hne
        · exact hspecial
      · exact .inr ⟨if_neg hcross, .inl ⟨errno, rfl, hcross⟩⟩

theorem prunes_of_fate_eq_moved (h : task.fate world relative = .moved) : task.Prunes relative := by
  unfold Task.fate at h
  split at h
  · cases h
  · next hclass =>
    split at h
    · cases h
    · next hreferences => exact ⟨by simpa using hclass, by simpa using hreferences⟩

/-- Without faults no directory is closed. -/
theorem visible_of_faultless (hfaults : world.faults = {}) : Walk.Visible (task.Closed world) relative := by
  intro above _ _ hclosed
  rw [Task.Closed, hfaults] at hclosed
  cases hclosed

theorem fate_eq_moved (hfaults : world.faults = {}) (h : task.Prunes relative) : task.fate world relative = .moved := by
  rcases fate_of_prunes world h with ⟨hmoved, -⟩ | ⟨-, hfaulty⟩
  · exact hmoved
  · exact absurd hfaulty (not_faulty_of_faultless hfaults _)

/-- The locations of what was handed over, of one fate. -/
def handed (task : Task) (world : World) (fate : Fate) (steps : List Walk.Step) : List Location :=
  (Walk.visits steps).filter fun relative => task.fate world relative = fate

section Handed

variable {fate : Fate} {steps : List Walk.Step}

theorem mem_handed_iff : relative ∈ handed task world fate steps ↔
    .visit relative ∈ steps ∧ task.fate world relative = fate := by
  rw [handed, List.mem_filter, Walk.mem_visits_iff, decide_eq_true_iff]

theorem handed_visit : handed task world fate (.visit relative :: steps) =
    if task.fate world relative = fate then relative :: handed task world fate steps
    else handed task world fate steps := by
  have hvisits : Walk.visits (.visit relative :: steps) = relative :: Walk.visits steps := rfl
  rw [handed, hvisits, List.filter_cons]
  simp only [decide_eq_true_iff]
  rfl

theorem length_handed_visit : (handed task world fate (.visit relative :: steps)).length =
    (handed task world fate steps).length + if task.fate world relative = fate then 1 else 0 := by
  rw [handed_visit]
  split <;> rfl

theorem nodup_handed (h : steps.Nodup) : (handed task world fate steps).Nodup :=
  (Walk.nodup_visits h).filter _

end Handed

/-- The scan after some steps of the walk: what was handed over was moved, or counted, as its fate says. -/
structure Tally (task : Task) (base : World) (dump out : Location) (steps : List Walk.Step) (scan : Scan) : Prop where
  aside : SetAside base dump out (handed task base .moved steps) scan.world
  kept : scan.kept = (handed task base .kept steps).length
  pruned : scan.pruned = (handed task base .moved steps).length
  skipped : scan.skipped = (handed task base .refused steps).length + (Walk.fails steps).length

/-- A class dump that can be gone through: it has no links, its directories can be listed unless the system is about to
refuse that, what goes to the exclusion tree has short enough paths, and what would have to be copied can be. -/
structure Plain (task : Task) (world : World) (dump : Location) : Prop where
  noLink : ∀ relative node, world.root.bare? (dump ++ relative) = some node → node.isLink = false
  dirs : ∀ relative, (Walk.Visible (task.Closed world) relative) → ¬task.Closed world relative →
    world.root.HasDir (dump ++ relative) →
      ((Walk.Place.ofPath task.classdump).descend relative).text.utf8ByteSize < pathMax
  files : ∀ relative, (Walk.Step.visit relative).Due world.root dump (task.Closed world) →
    task.fate world relative = .moved → (task.classdump.descend relative).byteLength < pathMax ∧
      (task.exclusion.descend relative).byteLength < pathMax
  copied : ∀ relative, (task.classdump.descend relative).text ∈ world.faults.apart →
    world.root.bare? (dump ++ relative) ≠ some .special

/-- A class dump is plain if nothing in it is a link or special and all its paths are short enough. -/
theorem plain_of_flatten (h : ∀ entry ∈ world.root.flatten [], dump <+: entry.1 →
      entry.2.bare.isLink = false ∧ entry.2.bare.isSpecial = false ∧
      ((Walk.Place.ofPath task.classdump).descend (entry.1.drop dump.length)).text.utf8ByteSize < pathMax ∧
      (task.classdump.descend (entry.1.drop dump.length)).byteLength < pathMax ∧
      (task.exclusion.descend (entry.1.drop dump.length)).byteLength < pathMax) : Plain task world dump := by
  have hall : ∀ relative node, world.root.bare? (dump ++ relative) = some node →
      node.isLink = false ∧ node.isSpecial = false ∧
      ((Walk.Place.ofPath task.classdump).descend relative).text.utf8ByteSize < pathMax ∧
      (task.classdump.descend relative).byteLength < pathMax ∧
        (task.exclusion.descend relative).byteLength < pathMax := by
    intro relative node hbare
    have hentry := @Node.forall_of_flatten world.root (fun location node => dump <+: location →
      node.isLink = false ∧ node.isSpecial = false ∧
      ((Walk.Place.ofPath task.classdump).descend (location.drop dump.length)).text.utf8ByteSize < pathMax ∧
      (task.classdump.descend (location.drop dump.length)).byteLength < pathMax ∧
      (task.exclusion.descend (location.drop dump.length)).byteLength < pathMax) h _ _ hbare (List.prefix_append _ _)
    rwa [List.drop_left] at hentry
  constructor
  case noLink => exact fun relative node hbare => (hall relative node hbare).1
  case dirs => exact fun relative _ _ hdir => (hall relative _ hdir).2.2.1
  case files =>
    rintro relative ⟨-, node, -, hbare⟩ -
    exact (hall relative node hbare).2.2.2
  case copied =>
    intro relative _ hbare
    cases (hall relative _ hbare).2.1

theorem isLink_dumpDir {exclusion : Path} {moved : List Location}
    (hsetup : Setup base task.classdump exclusion dump out) (h : SetAside base dump out moved world)
    (hdir : base.root.HasDir (dump ++ relative)) (hne : relative ≠ []) :
    world.isLink (task.classdump.descend relative) = false := by
  obtain ⟨n, hn, hleads⟩ := hsetup.dumpLeads
  exact Walk.isLink_descend_of_hasDir ⟨n, hn, h.leads hleads hsetup.site.dumpDir⟩ (hsetup.legalNames hdir)
    (h.tree.kept _ hdir) hne

namespace Tally

variable {steps : List Walk.Step} {scan after : Scan}

theorem start (h : world.silent = base.silent) : Tally task base dump out [] ⟨world, 0, 0, 0⟩ where
  aside := (setAside_nil base dump out).of_silent h
  kept := rfl
  pruned := rfl
  skipped := rfl

theorem of_silent (h : Tally task base dump out steps scan) (hworld : after.world.silent = scan.world.silent)
    (hkept : after.kept = scan.kept) (hpruned : after.pruned = scan.pruned) (hskipped : after.skipped = scan.skipped) :
    Tally task base dump out steps after where
  aside := h.aside.of_silent hworld
  kept := hkept.trans h.kept
  pruned := hpruned.trans h.pruned
  skipped := hskipped.trans h.skipped

/-- One more entry was handed over and counted as its fate says. -/
theorem visited (h : Tally task base dump out steps scan)
    (haside : SetAside base dump out (handed task base .moved (.visit relative :: steps)) after.world)
    (hkept : after.kept = scan.kept + if task.fate base relative = .kept then 1 else 0)
    (hpruned : after.pruned = scan.pruned + if task.fate base relative = .moved then 1 else 0)
    (hskipped : after.skipped = scan.skipped + if task.fate base relative = .refused then 1 else 0) :
    Tally task base dump out (.visit relative :: steps) after where
  aside := haside
  kept := by rw [hkept, h.kept, length_handed_visit]
  pruned := by rw [hpruned, h.pruned, length_handed_visit]
  skipped := by
    have hfails : Walk.fails (.visit relative :: steps) = Walk.fails steps := rfl
    rw [hskipped, h.skipped, length_handed_visit, hfails, Nat.add_right_comm]

/-- A directory that cannot be listed is skipped. -/
theorem fail (h : Tally task base dump out steps scan) (relative : Location) (path : Path) (error : OsError) :
    Tally task base dump out (.fail relative :: steps) (skip path error scan) where
  aside := h.aside.of_silent (World.silent_log _ _ _ _)
  kept := h.kept
  pruned := h.pruned
  skipped := congrArg (· + 1) h.skipped

theorem proceeded (h : Tally task base dump out steps scan) (hregular : task.IsRegular) :
    ∃ after, scan.proceed task.interval = (.ok .proceed, after) ∧ Tally task base dump out steps after := by
  obtain ⟨after, hafter, hsilent, hkept, hpruned, hskipped⟩ := Scan.proceed_eq hregular scan
  exact ⟨after, hafter, h.of_silent hsilent hkept hpruned hskipped⟩

section InSetup

variable (h : Tally task base dump out steps scan) (hplain : Plain task base dump)
  (hsetup : Setup base task.classdump task.exclusion dump out)
include h hplain hsetup

omit h in
/-- Where there are no links, what is no directory does not lead to one. -/
theorem candidate_of_plain {name : String} {node : Node} (hnode : node.isDir = false)
    (hbare : base.root.bare? (dump ++ (relative ++ [name])) = some node) :
    Candidate base task.classdump dump (relative ++ [name]) := by
  refine ⟨node, hnode, hbare, fun n there hleads hthere => ?_⟩
  exfalso
  have hlegal := hsetup.legalNames hbare
  have hlink := hplain.noLink _ _ hbare
  obtain ⟨m, -, hdump⟩ := hsetup.dumpLeads
  have hfound := hdump.descend (Node.reach_names (fun name hname => (hlegal name hname).isName) hbare hlink)
  obtain ⟨-, rfl⟩ := hleads.unique hfound
  rw [Node.HasDir, hbare] at hthere
  cases hthere
  cases hnode

/-- What is visited is counted, and moved if it has to be. -/
theorem visit (hregular : task.IsRegular) (hdry : task.dryRun = false) (hnul : task.classdump.hasNul = false)
    (hdue : (Walk.Step.visit relative).Due base.root dump (task.Closed base)) (hnew : .visit relative ∉ steps) :
    ∃ next, Tally task base dump out (.visit relative :: steps) next ∧
      (Reconcile.visit task (task.classdump.descend relative) scan = (.ok .proceed, next) ∨
        ∃ error inner, Reconcile.visit task (task.classdump.descend relative) scan = (.error (.os error), inner) ∧
          next = skip (task.classdump.descend relative) error inner) := by
  obtain ⟨-, node, hnode, hbare⟩ := id hdue
  obtain ⟨names, name, rfl⟩ := hsetup.exists_concat hnode hbare
  have hcandidate := candidate_of_plain hplain hsetup hnode hbare
  rcases candidate_cases hsetup hdry h.aside hcandidate with ⟨hclass, heq⟩ |
    ⟨hclass, hreferences, next, heq, hworld, hkept, hpruned, hskipped⟩ |
    ⟨hprunes, hsound, next, heq, hworld, hkept, hpruned, hskipped⟩ |
    ⟨hprunes, hfault, error, next, heq, hworld, hkept, hpruned, hskipped⟩
  · have hfate := @fate_eq_passed task base _ hclass
    refine ⟨scan, h.visited ?_ (by rw [hfate]; rfl) (by rw [hfate]; rfl) (by rw [hfate]; rfl), .inl heq⟩
    rw [handed_visit, hfate]
    exact h.aside
  · have hfate := @fate_eq_kept task base _ hclass hreferences
    have hnext : Tally task base dump out (.visit (names ++ [name]) :: steps) next := by
      refine h.visited ?_ (by rw [hfate]; exact hkept) (by rw [hfate]; exact hpruned) (by rw [hfate]; exact hskipped)
      rw [handed_visit, hfate]
      exact h.aside.of_silent hworld
    obtain ⟨after, hafter, htally⟩ := hnext.proceeded hregular
    exact ⟨after, htally, .inl (heq.trans hafter)⟩
  · obtain ⟨hfate, -⟩ := (fate_of_prunes base hprunes).resolve_right fun hrefused => hsound hrefused.2
    have hnext : Tally task base dump out (.visit (names ++ [name]) :: steps) next := by
      refine h.visited ?_ (by rw [hfate]; exact hkept) (by rw [hfate]; exact hpruned) (by rw [hfate]; exact hskipped)
      rw [handed_visit, if_pos hfate]
      exact hworld
    obtain ⟨after, hafter, htally⟩ := hnext.proceeded hregular
    exact ⟨after, htally, .inl (heq.trans hafter)⟩
  · have hfate : task.fate base (names ++ [name]) = .refused := by
      rcases fate_of_prunes base hprunes with ⟨hmoved, hcopied⟩ | ⟨hrefused, -⟩
      · -- a file that is found is only refused if the system was about to
        obtain ⟨hsource, htarget⟩ := hplain.files _ hdue hmoved
        have hnot : names ++ [name] ∉ handed task base .moved steps := fun hmem => hnew (mem_handed_iff.mp hmem).1
        have hexists := h.aside.pathExists_source hsetup hbare hnode (hplain.noLink _ _ hbare) hnot hnul hsource
        obtain ⟨hapart, hspecial⟩ := hcopied (hfault hexists htarget)
        have hentry := (setAside_nil base dump out).entryAt_source hsetup
          (h.aside.deadEnd_of_pathExists hsetup hcandidate hexists) ((Node.bare?_eq_some_iff hnode).mp hbare)
          (Path.hasNul_descend hnul (hsetup.legalNames hbare)) hsource
        obtain rfl := Except.ok.inj (hentry.lstat.symm.trans hspecial)
        exact absurd hbare (hplain.copied _ hapart)
      · exact hrefused
    refine ⟨_, h.visited ?_ ?_ ?_ ?_, .inr ⟨error, next, heq, rfl⟩⟩
    · rw [handed_visit, hfate]
      exact hworld.of_silent (World.silent_log _ _ _ _)
    · rw [hfate]
      exact hkept
    · rw [hfate]
      exact hpruned
    · rw [hfate]
      exact congrArg (· + 1) hskipped

theorem listed (hnormal : task.classdump.IsNormal) (hvisible : Walk.Visible (task.Closed base) relative)
    (hopen : ¬task.Closed base relative) (hdir : base.root.HasDir (dump ++ relative))
    (hfresh : ∀ done ∈ steps, ¬relative <+: done.relative) :
    ∃ entries,
      scan.world.list ((Walk.Place.ofPath task.classdump).descend relative).text (task.classdump.descend relative) =
        .ok entries ∧
      (∀ name, name ∈ Walk.namesWhere (!·.isDir) entries ↔
        ∃ node, node.isDir = false ∧ base.root.bare? (dump ++ (relative ++ [name])) = some node) ∧
      ∀ name, name ∈ Walk.namesWhere (·.isDir) entries ↔ base.root.HasDir (dump ++ (relative ++ [name])) := by
  have hlegal := hsetup.legalNames hdir
  have hspelled := ((Walk.Place.spelled_ofPath hnormal).descend hlegal).length
  rw [Walk.Place.path_descend_ofPath] at hspelled
  have hfault : scan.world.faults.list.lookup ((Walk.Place.ofPath task.classdump).descend relative).text = none := by
    rw [h.aside.faults_eq]
    exact Option.not_isSome_iff_eq_none.mp hopen
  have hleaf : ∀ name node, node.isDir = false →
      (scan.world.root.bare? (dump ++ (relative ++ [name])) = some node ↔
        base.root.bare? (dump ++ (relative ++ [name])) = some node) := by
    intro name node hnode
    refine ⟨fun hbare => (h.aside.tree.bare?_dump hsetup.site hnode hbare).1, fun hbare => ?_⟩
    refine h.aside.tree.bare?_eq hbare fun other hother hsame => ?_
    rw [← List.append_cancel_left hsame] at hother
    exact hfresh _ (mem_handed_iff.mp hother).1 (List.prefix_append _ _)
  have hlinks : ∀ name node, scan.world.root.bare? (dump ++ relative ++ [name]) = some node → node.isLink = false := by
    intro name node hbare
    rw [List.append_assoc] at hbare
    rcases Node.bare_of_bare? hbare with hnode | rfl
    · exact hplain.noLink _ _ ((hleaf name node hnode).mp hbare)
    · rfl
  obtain ⟨n, hn, hleads⟩ := h.aside.leads_dump hsetup hdir
  obtain ⟨entries, hlist, hfiles, hdirs⟩ := Walk.exists_list_of_plain hleads hn hfault hspelled
    (hplain.dirs relative hvisible hopen hdir) (h.aside.tree.kept _ hdir) hlinks
  refine ⟨entries, hlist, fun name => ?_, fun name => ?_⟩
  · rw [hfiles, List.append_assoc]
    exact exists_congr fun node => and_congr_right fun hnode => hleaf name node hnode
  · rw [hdirs, List.append_assoc]
    exact ⟨h.aside.tree.hasDir_dump hsetup.site, h.aside.tree.kept _⟩

end InSetup

end Tally

/-- The walk through a plain class dump comes to every entry that no closed directory hides. -/
theorem follows_visitor (hplain : Plain task base dump) (hsetup : Setup base task.classdump task.exclusion dump out)
    (hregular : task.IsRegular) (hdry : task.dryRun = false) (hnormal : task.classdump.IsNormal)
    (hnul : task.classdump.hasNul = false) :
    Walk.Follows (visitor task) task.classdump base.root dump (task.Closed base) (Tally task base dump out) where
  refused relative steps scan h hclosed := by
    obtain ⟨errno, herrno⟩ := Option.isSome_iff_exists.mp hclosed
    rw [← h.aside.faults_eq] at herrno
    exact ⟨_, World.list_of_fault herrno⟩
  listed _ _ _ h hvisible hopen hdir hfresh := h.listed hplain hsetup hnormal hvisible hopen hdir hfresh
  named _ _ hbare := hsetup.legalNames hbare
  isLink _ _ _ h _ hdir hne := isLink_dumpDir hsetup h.aside hdir hne
  visit relative steps state h hdue hnew := by
    obtain ⟨next, hnext, heq | ⟨error, inner, heq, rfl⟩⟩ := h.visit hplain hsetup hregular hdry hnul hdue hnew
    · exact ⟨_, Walk.hand_of_proceed heq, hnext⟩
    · exact ⟨_, Walk.hand_of_error heq rfl, hnext⟩
  fail relative _ _ error h _ _ := h.fail relative _ error

section Run

variable {above : Location}

theorem exists_prepare_of_makable (h : world.Makable task.exclusion above) (hnormal : task.exclusion.IsNormal) :
    ∃ prepared, prepare task world = (.ok (), prepared) ∧
      prepared.silent = (world.withDir (above ++ [task.exclusion.name])).silent := by
  unfold prepare Relocation.createRoot
  rw [h.makeDir_eq hnormal]
  exact ⟨_, rfl, rfl⟩

theorem bare?_withDir_of_apart (h : world.Makable task.exclusion above)
    (hapart : ¬dump <+: above ++ [task.exclusion.name]) (relative : Location) :
    (world.withDir (above ++ [task.exclusion.name])).root.bare? (dump ++ relative) =
      world.root.bare? (dump ++ relative) := by
  refine h.bare?_of_ne fun hsame => hapart ?_
  rw [← hsame]
  exact List.prefix_append _ _

theorem due_withDir_iff (h : world.Makable task.exclusion above) (hapart : ¬dump <+: above ++ [task.exclusion.name])
    {closed : Location → Prop} {step : Walk.Step} :
    step.Due (world.withDir (above ++ [task.exclusion.name])).root dump closed ↔ step.Due world.root dump closed := by
  cases step <;> simp only [Walk.Step.Due, Node.HasDir, bare?_withDir_of_apart h hapart]

theorem Plain.withDir (hplain : Plain task world dump) (h : world.Makable task.exclusion above)
    (hapart : ¬dump <+: above ++ [task.exclusion.name]) :
    Plain task (world.withDir (above ++ [task.exclusion.name])) dump where
  noLink relative node hbare := by
    rw [bare?_withDir_of_apart h hapart] at hbare
    exact hplain.noLink relative node hbare
  dirs relative hvisible hopen hdir := by
    rw [Node.HasDir, bare?_withDir_of_apart h hapart] at hdir
    exact hplain.dirs relative hvisible hopen hdir
  files relative hdue := hplain.files relative ((due_withDir_iff h hapart).mp hdue)
  copied relative hmem := by
    rw [bare?_withDir_of_apart h hapart]
    exact hplain.copied relative hmem

/-- The pruning of a plain class dump with an exclusion tree outside it goes through every entry that no closed
directory hides. -/
theorem exists_tally_of_run (hlegal : world.Legal) (hregular : task.IsRegular) (hdry : task.dryRun = false)
    (hclassdump : task.classdump.IsNormal) (hexclusion : task.exclusion.IsNormal)
    (hdump : world.locateFrom linkMax task.classdump = .ok ⟨dump, []⟩) (hdir : world.root.HasDir dump)
    (hmakable : world.Makable task.exclusion above) (hapart : ¬dump <+: above ++ [task.exclusion.name])
    (houtside : isInside task world = .ok false) (hplain : Plain task world dump) :
    ∃ stats after steps, ∃ scan : Scan, run task world = (.ok stats, after) ∧
      Conserved world.root after.root dump (above ++ [task.exclusion.name]) (handed task world .moved steps) ∧
      stats.kept = scan.kept ∧ stats.pruned = scan.pruned ∧ stats.skipped = scan.skipped ∧
      Tally task (world.withDir (above ++ [task.exclusion.name])) dump (above ++ [task.exclusion.name]) steps scan ∧
      steps.Nodup ∧ ∀ step, step ∈ steps ↔ Walk.Step.Due world.root dump (task.Closed world) step := by
  have hsetup := setup_of_makable hlegal hexclusion hdump hdir hmakable hapart
  obtain ⟨hnoNul, hnul⟩ := noNul_of_isInside houtside
  obtain ⟨prepared, hprepare, hprepared⟩ := exists_prepare_of_makable hmakable hexclusion
  obtain ⟨stats, after, hscan⟩ := scanDump_ok hregular hnoNul hnul prepared
  obtain ⟨count, scan, hwalk, hafter, hkept, hpruned, hskipped⟩ := exists_walk_of_scanDump hscan
  have hfollows := follows_visitor (hplain.withDir hmakable hapart) hsetup hregular hdry hclassdump hnul
  obtain ⟨_, _, steps, hwalk', htally, honce, hsteps⟩ := hfollows.exists_run hnul hsetup.site.dumpDir
    (Tally.start hprepared)
  obtain ⟨-, rfl⟩ := Prod.mk.inj (hwalk.symm.trans hwalk')
  refine ⟨stats, after, steps, scan, ?_, ?_, hkept, hpruned, hskipped, htally, honce,
    fun step => (hsteps step).trans (due_withDir_iff hmakable hapart)⟩
  · unfold run
    rw [houtside]
    dsimp only
    rw [hdry, if_neg Bool.false_ne_true, hprepare]
    exact hscan
  · rw [World.root_eq_of_silent hafter]
    exact conserved_of_displaced hmakable hsetup.site htally.aside.tree

end Run

/-- The locations of one fate among those that no closed directory hides. -/
def Task.comesTo (task : Task) (world : World) (dump : Location) (fate : Fate) : Set Location :=
  {relative | (Walk.Step.visit relative).Due world.root dump (task.Closed world) ∧ task.fate world relative = fate}

/-- The directories that cannot be listed and that no other one hides. -/
def Task.unlisted (task : Task) (world : World) (dump : Location) : Set Location :=
  {relative | (Walk.Step.fail relative).Due world.root dump (task.Closed world)}

/-- Pruning a class dump without links, where moves and listings may fail and nothing else does, returns. Exactly the
classes whose fate it is are moved, and the counts are the numbers of classes of each fate; a directory that cannot be
listed is skipped once with all that is in it. -/
theorem isolated_of_plain {above : Location} (hlegal : world.Legal) (hregular : task.IsRegular)
    (hdry : task.dryRun = false) (hclassdump : task.classdump.IsNormal) (hexclusion : task.exclusion.IsNormal)
    (hdump : world.locateFrom linkMax task.classdump = .ok ⟨dump, []⟩) (hdir : world.root.HasDir dump)
    (hmakable : world.Makable task.exclusion above) (hapart : ¬dump <+: above ++ [task.exclusion.name])
    (hanswered : task.Answered world) (hstanding : task.Standing world) (hplain : Plain task world dump) :
    ∃ stats after moved, run task world = (.ok stats, after) ∧
      Conserved world.root after.root dump (above ++ [task.exclusion.name]) moved ∧
      (∀ relative, relative ∈ moved ↔ relative ∈ task.comesTo world dump .moved) ∧
      stats.kept = (task.comesTo world dump .kept).ncard ∧ stats.pruned = (task.comesTo world dump .moved).ncard ∧
      stats.skipped = (task.comesTo world dump .refused).ncard + (task.unlisted world dump).ncard := by
  have houtside := isInside_of_makable hlegal hexclusion ⟨hdump, hdir⟩ hanswered hmakable hapart hstanding
  obtain ⟨stats, after, steps, scan, hrun, hconserved, hkept, hpruned, hskipped, htally, honce, hsteps⟩ :=
    exists_tally_of_run hlegal hregular hdry hclassdump hexclusion hdump hdir hmakable hapart houtside hplain
  have hhanded : ∀ fate relative,
      relative ∈ task.comesTo world dump fate ↔ relative ∈ handed task world fate steps := by
    intro fate relative
    rw [mem_handed_iff, hsteps]
    rfl
  have hcount : ∀ fate, (task.comesTo world dump fate).ncard =
      (handed task (world.withDir (above ++ [task.exclusion.name])) fate steps).length :=
    fun fate => ncard_eq_length (nodup_handed honce) (hhanded fate)
  have hfails : (task.unlisted world dump).ncard = (Walk.fails steps).length := by
    refine ncard_eq_length (Walk.nodup_fails honce) fun relative => ?_
    rw [Walk.mem_fails_iff, hsteps]
    rfl
  refine ⟨stats, after, _, hrun, hconserved, fun relative => (hhanded .moved relative).symm, ?_, ?_, ?_⟩
  · rw [hkept, htally.kept, hcount]
  · rw [hpruned, htally.pruned, hcount]
  · rw [hskipped, htally.skipped, hcount, hfails, Nat.cast_add]

/-- A dump with a class to keep, one to move, one that the system does not let go, and one in a directory that cannot be
listed. -/
def faultyDump : World where
  root := .dir
    [("dump", .dir
      [("K.class", .file [1]),
        ("p", .dir
          [("L.class", .file [2]),
            ("q", .dir [("M.class", .file [3]), ("r", .dir [("N.class", .file [4])])])])])]
  workingDir := ⟨[], []⟩
  home := "/"
  faults := { move := [("dump/p/L.class", .crossDevice), ("dump/p/q/M.class", ⟨13⟩)], list := [("dump/p/q/r", ⟨13⟩)] }

def pruneFaultyDump : Task where
  classdump := .ofText "dump"
  references := .ofList ["K.class"]
  exclusion := .ofText "aside"

/-- Neither failure touches the other classes. -/
theorem isolated_faultyDump :
    ∃ stats after moved, run pruneFaultyDump faultyDump = (.ok stats, after) ∧
      stats = { kept := 1, pruned := 1, skipped := 2, referenceSize := 1 } ∧ moved = [["p", "L.class"]] ∧
      Conserved faultyDump.root after.root ["dump"] ["aside"] moved := by
  have hregular : pruneFaultyDump.IsRegular := by
    rintro ⟨⟩
  have hlegal : faultyDump.Legal := ⟨Node.legal_of_flatten (by decide +kernel), rfl⟩
  have hdump : faultyDump.locateFrom linkMax pruneFaultyDump.classdump = .ok ⟨["dump"], []⟩ := by decide +kernel
  have hname : pruneFaultyDump.exclusion.name = "aside" := by decide
  have hmakable : faultyDump.Makable pruneFaultyDump.exclusion [] := by
    refine ⟨by decide, by decide +kernel, by decide, by decide, by decide, by decide +kernel, rfl, ?_⟩
    rw [hname]
    rfl
  have hapart : ¬["dump"] <+: [] ++ [pruneFaultyDump.exclusion.name] := by
    rw [hname]
    decide
  have hanswered : pruneFaultyDump.Answered faultyDump := by
    unfold Task.Answered
    decide +kernel
  have hplain : Plain pruneFaultyDump faultyDump ["dump"] := plain_of_flatten (by decide +kernel)
  have hstats : (run pruneFaultyDump faultyDump).1 =
      .ok { kept := 1, pruned := 1, skipped := 2, referenceSize := 1 } := by
    decide +kernel
  generalize hafter : run pruneFaultyDump faultyDump = result at hstats
  obtain ⟨stats, after, moved, hrun, hconserved, hmoved, -, hpruned, -⟩ :=
    isolated_of_plain hlegal hregular rfl (Path.isNormal_ofText "dump")
      (Path.isNormal_ofText "aside") hdump rfl hmakable hapart hanswered (.inl rfl) hplain
  obtain rfl := hafter.symm.trans hrun
  obtain rfl := Except.ok.inj hstats
  rw [hname] at hconserved
  have hmem : ["p", "L.class"] ∈ moved := by
    rw [hmoved]
    exact ⟨⟨by decide +kernel, .file [2], rfl, rfl⟩, by decide +kernel⟩
  have hone : moved.length = 1 := by
    rw [ncard_eq_length hconserved.once fun relative => (hmoved relative).symm] at hpruned
    exact Int.ofNat.inj hpruned.symm
  obtain ⟨only, rfl⟩ := List.length_eq_one_iff.mp hone
  obtain rfl := List.mem_singleton.mp hmem
  exact ⟨_, after, _, rfl, rfl, rfl, hconserved⟩

end Reconcile
end ClassDump
