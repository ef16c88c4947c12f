import ClassDump.Proofs.Reconcile.Staged

/-! A dry run side by side with the run that it rehearses. Both go through the directories of the class dump in the same
order and decide alike on every class that both come to. They part only at entries that cannot be set aside, which the
dry run counts as pruned all the same, and at links that lead nowhere to the dry run and have come to lead to a
directory for the other one. -/

namespace ClassDump

open Relocation

namespace Reconcile

def Task.rehearsal (task : Task) : Task :=
  { task with dryRun := true }

def Task.Keeps (task : Task) (relative : Location) : Prop :=
  isClassFile (task.classdump.descend relative) = true ∧ task.references.contains (Path.mk .here relative).text = true

variable {task : Task} {before base world : World} {dump out : Location} {moved later : List Location}
  {relative : Location} {name : String}

/-- The locations of the entries of one fate, among those that both runs came to or among those that only the dry run
came to. -/
def ofFate (both : Bool) (fate : Fate) (marks : List (Walk.Mark Fate)) : List Location :=
  (marks.filter fun mark => mark.both = both ∧ mark.note = fate).map (·.relative)

section Marks

variable {both : Bool} {fate : Fate} {mark : Walk.Mark Fate} {marks more : List (Walk.Mark Fate)}

theorem ofFate_cons : ofFate both fate (mark :: marks) =
    if mark.both = both ∧ mark.note = fate then mark.relative :: ofFate both fate marks
    else ofFate both fate marks := by
  rw [ofFate, List.filter_cons]
  simp only [decide_eq_true_iff]
  split <;> rfl

theorem mem_ofFate_iff : relative ∈ ofFate both fate marks ↔
    ∃ mark ∈ marks, (mark.both = both ∧ mark.note = fate) ∧ mark.relative = relative := by
  simp only [ofFate, List.mem_map, List.mem_filter, decide_eq_true_iff, and_assoc]

theorem nodup_ofFate (h : (marks.map (·.relative)).Nodup) : (ofFate both fate marks).Nodup :=
  h.sublist (List.filter_sublist.map _)

/-- An entry has one fate. -/
theorem disjoint_ofFate (h : (marks.map (·.relative)).Nodup) {other : Bool} {note : Fate}
    (hne : both = other → fate ≠ note) : (ofFate both fate marks).Disjoint (ofFate other note marks) := by
  intro relative hmem hother
  obtain ⟨mark, hmark, ⟨rfl, rfl⟩, rfl⟩ := mem_ofFate_iff.mp hmem
  obtain ⟨found, hfound, ⟨hboth, hnote⟩, hsame⟩ := mem_ofFate_iff.mp hother
  have heq := List.inj_on_of_nodup_map h hfound hmark hsame
  exact hne (heq ▸ hboth) (heq ▸ hnote)

theorem ofFate_suffix (h : marks <:+ more) : ofFate both fate marks <:+ ofFate both fate more :=
  (h.filter _).map _

end Marks

/-- What is known of an entry that at least the dry run came to. -/
def Task.Noted (task : Task) (before : World) (dump out : Location) (moved : List Location) (mark : Walk.Mark Fate) :
    Prop :=
  match mark.both, mark.note with
  | _, .passed => True
  | true, .kept => True
  | true, .moved => task.Prunes mark.relative
  | true, .refused => task.Prunes mark.relative ∧ task.Stuck before dump out moved mark.relative
  | false, .kept => task.Keeps mark.relative ∧ task.Turned before dump out moved mark.relative
  | false, .moved => task.Prunes mark.relative ∧ task.Turned before dump out moved mark.relative
  | false, .refused => False

theorem Task.Noted.mono {mark : Walk.Mark Fate} (h : task.Noted before dump out moved mark) (hlater : moved <:+ later) :
    task.Noted before dump out later mark := by
  obtain ⟨relative, both, note⟩ := mark
  cases both <;> cases note
  case false.kept => exact ⟨h.1, h.2.mono hlater⟩
  case false.moved => exact ⟨h.1, h.2.mono hlater⟩
  case true.refused => exact ⟨h.1, h.2.mono hlater⟩
  all_goals exact h

/-- The numbers of a dry run and of the other run beside it. -/
structure Counted (marks : List (Walk.Mark Fate)) (dry real : Scan) : Prop where
  kept : real.kept = (ofFate true .kept marks).length
  pruned : real.pruned = (ofFate true .moved marks).length
  skipped : real.skipped = dry.skipped + (ofFate true .refused marks).length
  dryKept : dry.kept = (ofFate true .kept marks).length + (ofFate false .kept marks).length
  dryPruned : dry.pruned =
    (ofFate true .moved marks).length + (ofFate true .refused marks).length + (ofFate false .moved marks).length

section Counted

variable {marks : List (Walk.Mark Fate)} {dry real dry' real' : Scan} {fate note : Fate}
  (h : Counted marks dry real) (hfate : fate ≠ .refused) (hskipped : dry'.skipped = dry.skipped)
  (hdryKept : dry'.kept = dry.kept + if fate = .kept then 1 else 0)
  (hdryPruned : dry'.pruned = dry.pruned + if fate = .moved then 1 else 0)
include h hfate hskipped hdryKept hdryPruned

theorem Counted.both (relative : Location) (hnote : note = fate ∨ note = .refused ∧ fate = .moved)
    (hkept : real'.kept = real.kept + if note = .kept then 1 else 0)
    (hpruned : real'.pruned = real.pruned + if note = .moved then 1 else 0)
    (hrefused : real'.skipped = real.skipped + if note = .refused then 1 else 0) :
    Counted (⟨relative, true, note⟩ :: marks) dry' real' := by
  obtain ⟨h1, h2, h3, h4, h5⟩ := h
  rcases hnote with rfl | ⟨rfl, rfl⟩
  · cases note
    case refused => exact absurd rfl hfate
    all_goals
      constructor <;> simp_all [ofFate_cons] <;> omega
  · constructor <;> simp_all [ofFate_cons] <;> omega

theorem Counted.dryOnly (relative : Location) : Counted (⟨relative, false, fate⟩ :: marks) dry' real := by
  obtain ⟨h1, h2, h3, h4, h5⟩ := h
  cases fate
  case refused => exact absurd rfl hfate
  all_goals
    constructor <;> simp_all [ofFate_cons] <;> omega

end Counted

/-- A dry run and the other run side by side, which have come to these entries so far. -/
structure Rehearsed (task : Task) (before base : World) (dump out : Location) (marks : List (Walk.Mark Fate))
    (dry real : Scan) : Prop where
  silent : dry.world.silent = before.silent
  aside : SetAside base dump out (ofFate true .moved marks) real.world
  once : (marks.map (·.relative)).Nodup
  noted : ∀ mark ∈ marks, task.Noted before dump out (ofFate true .moved marks) mark
  counted : Counted marks dry real

/-- Where no move is about to fail, a class is kept or moved, and anything else left alone. -/
theorem fate_cases (hfaults : before.faults = {}) (relative : Location) :
    (isClassFile (task.classdump.descend relative) = false ∧ task.fate before relative = .passed) ∨
      (task.Keeps relative ∧ task.fate before relative = .kept) ∨
        (task.Prunes relative ∧ task.fate before relative = .moved) := by
  cases hclass : isClassFile (task.classdump.descend relative) with
  | false => exact .inl ⟨rfl, fate_eq_passed hclass⟩
  | true =>
      cases hreferences : task.references.contains (Path.mk .here relative).text with
      | true => exact .inr (.inl ⟨⟨hclass, hreferences⟩, fate_eq_kept hclass hreferences⟩)
      | false => exact .inr (.inr ⟨⟨hclass, hreferences⟩, fate_eq_moved hfaults ⟨hclass, hreferences⟩⟩)

theorem fate_ne_refused (hfaults : before.faults = {}) : task.fate before relative ≠ .refused := by
  rcases @fate_cases task before hfaults relative with ⟨-, hfate⟩ | ⟨-, hfate⟩ | ⟨-, hfate⟩ <;> rw [hfate] <;> decide

/-- The visit of an entry by a dry run: it goes on, and the class is counted as its fate says. -/
theorem exists_visit_of_dryRun (hregular : task.IsRegular) (hdry : task.dryRun = true)
    (hfaults : before.faults = {}) (relative : Location) (scan : Scan) :
    ∃ after, visit task (task.classdump.descend relative) scan = (.ok .proceed, after) ∧
      after.world.silent = scan.world.silent ∧ after.skipped = scan.skipped ∧
        after.kept = scan.kept + (if task.fate before relative = .kept then 1 else 0) ∧
          after.pruned = scan.pruned + if task.fate before relative = .moved then 1 else 0 := by
  rcases @fate_cases task before hfaults relative with ⟨hclass, hfate⟩ | ⟨⟨hclass, hreferences⟩, hfate⟩ |
    ⟨⟨hclass, hreferences⟩, hfate⟩
  · rw [visit_of_not_isClassFile hclass, hfate]
    exact ⟨scan, rfl, rfl, rfl, rfl, rfl⟩
  · obtain ⟨logged, hlogged, heq⟩ :=
      exists_decideOn_of_referenced (task.classdump.descend relative) scan hreferences
    obtain ⟨after, hafter, hsilent, hkept, hpruned, hskipped⟩ := Scan.proceed_eq hregular
      { scan with world := logged, kept := scan.kept + 1 }
    rw [visit_descend hclass, heq, hfate]
    exact ⟨after, hafter, hsilent.trans hlogged.silent, hskipped, hkept, hpruned⟩
  · obtain ⟨logged, hlogged, heq⟩ :=
      exists_decideOn_of_dryRun (task.classdump.descend relative) scan hreferences hdry
    obtain ⟨after, hafter, hsilent, hkept, hpruned, hskipped⟩ := Scan.proceed_eq hregular
      { scan with world := logged, pruned := scan.pruned + 1 }
    rw [visit_descend hclass, heq, hfate]
    exact ⟨after, hafter, hsilent.trans hlogged.silent, hskipped, hkept, hpruned⟩

namespace Staged

variable (hstaged : Staged task before base dump out) (hfaults : before.faults = {})
  {marks : List (Walk.Mark Fate)} {scan : Scan}
include hstaged hfaults

/-- What the system refuses to move although no move is about to fail. -/
theorem stuck_of_refused (h : SetAside base dump out moved scan.world)
    (hcandidate : Candidate base task.classdump dump (relative ++ [name])) (hnot : relative ++ [name] ∉ moved)
    (hnul : task.classdump.hasNul = false)
    (hrefused : scan.world.pathExists (task.classdump.descend (relative ++ [name])) = .ok true →
      (task.exclusion.descend (relative ++ [name])).byteLength < pathMax →
        Faulty base (task.classdump.descend (relative ++ [name]))) :
    task.Stuck before dump out moved (relative ++ [name]) := by
  have hsound : ¬Faulty base (task.classdump.descend (relative ++ [name])) := by
    refine not_faulty_of_faultless ?_ _
    rw [← hstaged.rest]
    exact hfaults
  obtain ⟨node, hnode, hbase, -⟩ := hcandidate
  have hbare := hbase
  rw [hstaged.same] at hbare
  refine ⟨node, hnode, (Node.bare?_eq_some_iff hnode).mp hbare, ?_⟩
  by_cases htarget : (task.exclusion.descend (relative ++ [name])).byteLength < pathMax
  swap
  · exact .inr (.inr (Nat.not_lt.mp htarget))
  by_cases hsource : (task.classdump.descend (relative ++ [name])).byteLength < pathMax
  swap
  · exact .inr (.inl (Nat.not_lt.mp hsource))
  have hmissing : scan.world.pathExists (task.classdump.descend (relative ++ [name])) ≠ .ok true :=
    fun hexists => hsound (hrefused hexists htarget)
  refine .inl ⟨?_, hstaged.atMoment h ?_⟩
  · cases hlink : node.isLink with
    | true => rfl
    | false =>
        -- a file is found as long as it is in its place
        exact absurd (h.pathExists_source hstaged.setup hbase hnode hlink hnot hnul hsource) hmissing
  · rwa [← World.pathExists_of_silent (hstaged.silent_eq h)]

/-- The visit of a candidate by the run that moves: it is counted as its fate says, unless it cannot be moved. -/
theorem exists_visit (hregular : task.IsRegular) (hdry : task.dryRun = false) (hnul : task.classdump.hasNul = false)
    (h : SetAside base dump out (ofFate true .moved marks) scan.world)
    (hcandidate : Candidate base task.classdump dump (relative ++ [name]))
    (hfresh : ∀ mark ∈ marks, ¬relative ++ [name] <+: mark.relative) :
    ∃ note after,
      (visit task (task.classdump.descend (relative ++ [name])) scan = (.ok .proceed, after) ∨
        ∃ error inner, visit task (task.classdump.descend (relative ++ [name])) scan = (.error (.os error), inner) ∧
          after = skip (task.classdump.descend (relative ++ [name])) error inner) ∧
      SetAside base dump out (ofFate true .moved (⟨relative ++ [name], true, note⟩ :: marks)) after.world ∧
      task.Noted before dump out (ofFate true .moved (⟨relative ++ [name], true, note⟩ :: marks))
        ⟨relative ++ [name], true, note⟩ ∧
      (note = task.fate before (relative ++ [name]) ∨
        note = .refused ∧ task.fate before (relative ++ [name]) = .moved) ∧
      after.kept = scan.kept + (if note = .kept then 1 else 0) ∧
      after.pruned = scan.pruned + (if note = .moved then 1 else 0) ∧
      after.skipped = scan.skipped + if note = .refused then 1 else 0 := by
  rcases candidate_cases hstaged.setup hdry h hcandidate with ⟨hclass, heq⟩ |
    ⟨hclass, hreferences, next, heq, hworld, hkept, hpruned, hskipped⟩ |
    ⟨hprunes, -, next, heq, hworld, hkept, hpruned, hskipped⟩ |
    ⟨hprunes, hfault, error, next, heq, hworld, hkept, hpruned, hskipped⟩
  · exact ⟨.passed, scan, .inl heq, h, trivial, .inl (fate_eq_passed hclass).symm, rfl, rfl, rfl⟩
  · obtain ⟨after, hafter, hsilent, hkept', hpruned', hskipped'⟩ := Scan.proceed_eq hregular next
    exact ⟨.kept, after, .inl (heq.trans hafter), h.of_silent (hsilent.trans hworld), trivial,
      .inl (fate_eq_kept hclass hreferences).symm, hkept'.trans hkept, hpruned'.trans hpruned,
      hskipped'.trans hskipped⟩
  · obtain ⟨after, hafter, hsilent, hkept', hpruned', hskipped'⟩ := Scan.proceed_eq hregular next
    exact ⟨.moved, after, .inl (heq.trans hafter), hworld.of_silent hsilent, hprunes,
      .inl (fate_eq_moved hfaults hprunes).symm, hkept'.trans hkept, hpruned'.trans hpruned, hskipped'.trans hskipped⟩
  · have hnot : relative ++ [name] ∉ ofFate true .moved marks := by
      intro hmem
      obtain ⟨mark, hmark, -, hsame⟩ := mem_ofFate_iff.mp hmem
      exact hfresh mark hmark (hsame ▸ List.prefix_refl _)
    exact ⟨.refused, _, .inr ⟨error, next, heq, rfl⟩, hworld.of_silent (World.silent_log _ _ _ _),
      ⟨hprunes, hstaged.stuck_of_refused hfaults h hcandidate hnot hnul hfault⟩,
      .inr ⟨rfl, fate_eq_moved hfaults hprunes⟩, hkept, hpruned, congrArg (· + 1) hskipped⟩

end Staged

theorem isLink_of_link {target : String} (hname : LegalName name)
    (hleads : ∃ n ≤ linkMax, world.Leads n (task.classdump.descend relative) (dump ++ relative))
    (hlength : (task.classdump.descend (relative ++ [name])).byteLength < pathMax)
    (hnul : (task.classdump.descend (relative ++ [name])).hasNul = false)
    (hlink : world.root.bare? (dump ++ (relative ++ [name])) = some (.link target)) :
    world.isLink (task.classdump.descend (relative ++ [name])) = true := by
  obtain ⟨n, hn, hleads⟩ := hleads
  rw [← List.append_assoc] at hlink
  rw [Path.descend_append, ← Path.child_eq_descend] at hlength hnul ⊢
  exact hleads.isLink_child hn hname hlength hnul ((Node.bare?_eq_some_iff rfl).mp hlink)

namespace Rehearsed

variable {marks : List (Walk.Mark Fate)} {dry real dry' real' : Scan}
  (h : Rehearsed task before base dump out marks dry real)
include h

theorem skip (path other : Path) (error refusal : OsError) :
    Rehearsed task before base dump out marks (Reconcile.skip path error dry) (Reconcile.skip other refusal real) where
  silent := (World.silent_log _ _ _ _).trans h.silent
  aside := h.aside.of_silent (World.silent_log _ _ _ _)
  once := h.once
  noted := h.noted
  counted :=
    { kept := h.counted.kept
      pruned := h.counted.pruned
      skipped := by
        change real.skipped + 1 = dry.skipped + 1 + _
        rw [h.counted.skipped, Nat.add_right_comm]
      dryKept := h.counted.dryKept
      dryPruned := h.counted.dryPruned }

/-- One more entry that at least the dry run came to. -/
theorem marked {mark : Walk.Mark Fate} (hfresh : ∀ other ∈ marks, ¬mark.relative <+: other.relative)
    (hsilent : dry'.world.silent = dry.world.silent)
    (haside : SetAside base dump out (ofFate true .moved (mark :: marks)) real'.world)
    (hnoted : task.Noted before dump out (ofFate true .moved (mark :: marks)) mark)
    (hcounted : Counted (mark :: marks) dry' real') :
    Rehearsed task before base dump out (mark :: marks) dry' real' where
  silent := hsilent.trans h.silent
  aside := haside
  once := by
    refine List.nodup_cons.mpr ⟨fun hmem => ?_, h.once⟩
    obtain ⟨other, hother, hsame⟩ := List.mem_map.mp hmem
    exact hfresh other hother (hsame ▸ List.prefix_refl _)
  noted := by
    intro other hother
    rcases List.mem_cons.mp hother with rfl | hother
    · exact hnoted
    · exact (h.noted other hother).mono (ofFate_suffix (List.suffix_cons _ _))
  counted := hcounted

theorem handed (hstaged : Staged task before base dump out) (hregular : task.IsRegular) (hdry : task.dryRun = false)
    (hfaults : before.faults = {}) (hnul : task.classdump.hasNul = false)
    (hcandidate : Candidate base task.classdump dump relative) (hfresh : ∀ mark ∈ marks, ¬relative <+: mark.relative) :
    ∃ note dry' real', visit task.rehearsal (task.classdump.descend relative) dry = (.ok .proceed, dry') ∧
      (visit task (task.classdump.descend relative) real = (.ok .proceed, real') ∨
        ∃ error inner, visit task (task.classdump.descend relative) real = (.error (.os error), inner) ∧
          real' = Reconcile.skip (task.classdump.descend relative) error inner) ∧
      Rehearsed task before base dump out (⟨relative, true, note⟩ :: marks) dry' real' := by
  obtain ⟨node, hnode, hbase, -⟩ := id hcandidate
  obtain ⟨names, name, rfl⟩ := hstaged.setup.exists_concat hnode hbase
  obtain ⟨dry', hdryVisit, hsilent, hskipped, hdryKept, hdryPruned⟩ :=
    @exists_visit_of_dryRun task.rehearsal before hregular rfl hfaults (names ++ [name]) dry
  obtain ⟨note, real', hvisit, haside, hnoted, hnote, hkept, hpruned, hrefused⟩ :=
    hstaged.exists_visit hfaults hregular hdry hnul h.aside hcandidate hfresh
  have hfate : task.fate before (names ++ [name]) ≠ .refused := fate_ne_refused hfaults
  have hcounted := h.counted.both hfate hskipped hdryKept hdryPruned (names ++ [name]) hnote hkept hpruned hrefused
  exact ⟨note, dry', real', hdryVisit, hvisit, h.marked hfresh hsilent haside hnoted hcounted⟩

/-- An entry that only the dry run comes to. -/
theorem missed (hregular : task.IsRegular) (hfaults : before.faults = {})
    (hturned : task.Turned before dump out (ofFate true .moved marks) relative)
    (hfresh : ∀ mark ∈ marks, ¬relative <+: mark.relative) :
    ∃ note dry', visit task.rehearsal (task.classdump.descend relative) dry = (.ok .proceed, dry') ∧
      Rehearsed task before base dump out (⟨relative, false, note⟩ :: marks) dry' real := by
  obtain ⟨dry', hvisit, hsilent, hskipped, hkept, hpruned⟩ :=
    @exists_visit_of_dryRun task.rehearsal before hregular rfl hfaults relative dry
  refine ⟨task.fate before relative, dry', hvisit, ?_⟩
  have hcounted := h.counted.dryOnly (fate_ne_refused hfaults) hskipped hkept hpruned relative
  have hsame : ofFate true .moved (⟨relative, false, task.fate before relative⟩ :: marks) =
      ofFate true .moved marks :=
    ofFate_cons.trans (if_neg fun h => nomatch h.1)
  refine h.marked hfresh hsilent (hsame ▸ h.aside) ?_ hcounted
  rw [hsame]
  rcases @fate_cases task before hfaults relative with ⟨-, hfate⟩ | ⟨hkeeps, hfate⟩ | ⟨hprunes, hfate⟩
  · rw [hfate]
    trivial
  · rw [hfate]
    exact ⟨hkeeps, hturned⟩
  · rw [hfate]
    exact ⟨hprunes, hturned⟩

end Rehearsed

section Covers

variable (hstaged : Staged task before base dump out) {dry real : Scan} {location : Location}
include hstaged

theorem Staged.isLink_link (hnul : task.classdump.hasNul = false) {target : String}
    (hlink : base.root.bare? (dump ++ location) = some (.link target))
    (hlength : (task.classdump.descend location).byteLength < pathMax) (hdry : dry.world.silent = before.silent)
    (h : SetAside base dump out moved real.world) (hnot : location ∉ moved) :
    dry.world.isLink (task.classdump.descend location) = true ∧
      real.world.isLink (task.classdump.descend location) = true := by
  obtain ⟨names, name, rfl⟩ := hstaged.setup.exists_concat rfl hlink
  have hlegal := hstaged.setup.legalNames hlink
  have hname := hlegal name (by simp)
  have hfree := Path.hasNul_descend hnul hlegal
  have hdir := Node.hasDir_above hlink
  have hbefore := hlink
  rw [hstaged.same] at hbefore
  rw [World.isLink_of_silent hdry]
  exact ⟨isLink_of_link hname (hstaged.leads_dump hdir) hlength hfree hbefore,
    isLink_of_link hname (h.leads_dump hstaged.setup hdir) hlength hfree (hstaged.bare?_still h hbefore hnot)⟩

theorem Staged.isLink_dir (hdir : base.root.HasDir (dump ++ location)) (hne : location ≠ [])
    (hdry : dry.world.silent = before.silent) (h : SetAside base dump out moved real.world) :
    dry.world.isLink (task.classdump.descend location) = false ∧
      real.world.isLink (task.classdump.descend location) = false := by
  have hbefore := hdir
  rw [Node.HasDir, hstaged.same] at hbefore
  rw [World.isLink_of_silent hdry]
  exact ⟨Walk.isLink_descend_of_hasDir hstaged.leads (hstaged.setup.legalNames hdir) hbefore hne,
    isLink_dumpDir hstaged.setup h hdir hne⟩

end Covers

/-- The dry run sees no directory where the run that it rehearses sees none, and the two decide alike on what both come
to. -/
theorem covers_visitor (hstaged : Staged task before base dump out) (hregular : task.IsRegular)
    (hdry : task.dryRun = false) (hnormal : task.classdump.IsNormal) (hnul : task.classdump.hasNul = false)
    (hfaults : before.faults = {}) :
    Walk.Covers (visitor task.rehearsal) (visitor task) task.classdump
      (fun relative => base.root.HasDir (dump ++ relative)) (Way base task.classdump dump)
      (Candidate base task.classdump dump) (fun marks => task.Turned before dump out (ofFate true .moved marks))
      (Rehearsed task before base dump out) where
  list relative marks dry real hdir h hfresh := by
    refine hstaged.list_cases h.aside h.silent hfaults hnormal hnul hdir fun other hother hunder => ?_
    obtain ⟨mark, hmark, -, rfl⟩ := mem_ofFate_iff.mp hother
    exact hfresh mark hmark hunder
  grown location marks later hsuffix h := h.mono (ofFate_suffix hsuffix)
  handed location marks dry real hcandidate h hfresh := by
    obtain ⟨note, dry', real', hdryVisit, hvisit, hnext⟩ :=
      h.handed hstaged hregular hdry hfaults hnul hcandidate hfresh
    rcases hvisit with hvisit | ⟨error, inner, hvisit, rfl⟩
    · exact ⟨_, _, _, rfl, Walk.hand_of_proceed hdryVisit, Walk.hand_of_proceed hvisit, hnext⟩
    · exact ⟨_, _, _, rfl, Walk.hand_of_proceed hdryVisit, Walk.hand_of_error hvisit rfl, hnext⟩
  missed location marks dry real hturned h hfresh := by
    obtain ⟨note, dry', hvisit, hnext⟩ := h.missed hregular hfaults hturned hfresh
    exact ⟨⟨location, false, note⟩, _, rfl, rfl, Walk.hand_of_proceed hvisit, hnext⟩
  failed path error refusal marks dry real h := h.skip path path error refusal
  enters location marks dry real hdir hne h := hstaged.isLink_dir hdir hne h.silent h.aside
  skips location marks dry real hway h := by
    obtain ⟨⟨target, hlink⟩, hlength, hend⟩ := hway
    exact hstaged.isLink_link hnul hlink hlength h.silent h.aside fun hmem => hend (h.aside.tree.ends _ hmem)
  passes location marks dry real hturned h hroom := by
    obtain ⟨target, hget⟩ := hturned.1
    have hlink := (Node.bare?_eq_some_iff rfl).mpr hget
    rw [← hstaged.same] at hlink
    refine (hstaged.isLink_link hnul hlink hturned.short h.silent h.aside fun hmem => ?_).2
    obtain ⟨mark, hmark, ⟨hboth, -⟩, hsame⟩ := mem_ofFate_iff.mp hmem
    rw [hroom mark hmark (hsame ▸ List.prefix_refl _)] at hboth
    cases hboth

end Reconcile
end ClassDump
