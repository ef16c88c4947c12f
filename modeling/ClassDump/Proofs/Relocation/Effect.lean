import ClassDump.Proofs.Relocation.MakeDirs
import ClassDump.Proofs.Relocation.Move
import ClassDump.Proofs.Relocation.Refusal

/-! What setting one entry of the dump aside does. Either it goes to its place in the exclusion tree, which was free, or
the operation is refused by the system and no more than directories of the exclusion tree were made. It is refused only
where the entry is gone, the system was about to refuse it, or the new path is too long. -/

namespace ClassDump

namespace Relocation

section Stages

variable {world made after : World} {source exclusion : Path} {relative : String} {error : FileError}

/-- A move that is not from something to a free place is refused at once. -/
theorem relocate_of_not_checked
    (h : ¬(world.pathExists source = .ok true ∧ world.pathExists (targetOf exclusion relative) = .ok false)) :
    ∃ refusal, relocate world source relative exclusion = (.error (.os refusal), world) := by
  unfold relocate
  dsimp only
  split
  · exact ⟨_, rfl⟩
  · exact ⟨_, rfl⟩
  · exact ⟨_, rfl⟩
  · exact ⟨_, rfl⟩
  · next hexists hfree => exact absurd ⟨hexists, hfree⟩ h

variable (hsource : world.pathExists source = .ok true)
  (hfree : world.pathExists (targetOf exclusion relative) = .ok false)
include hsource hfree

theorem relocate_of_makeDirs_error (h : world.makeDirs (targetOf exclusion relative).parent = (.error error, after)) :
    relocate world source relative exclusion = (.error error, after) := by
  unfold relocate
  simp only [hsource, hfree, h]

theorem relocate_of_moveAside_error (hmade : world.makeDirs (targetOf exclusion relative).parent = (.ok (), made))
    (h : made.moveAside source (targetOf exclusion relative) = (.error error, after)) :
    relocate world source relative exclusion = (.error error, after) := by
  unfold relocate
  simp only [hsource, hfree, hmade, h]

theorem relocate_of_moveAside_ok (hmade : world.makeDirs (targetOf exclusion relative).parent = (.ok (), made))
    (h : made.moveAside source (targetOf exclusion relative) = (.ok (), after)) :
    relocate world source relative exclusion =
      (.ok (targetOf exclusion relative), after.report (.changed (.moved source (targetOf exclusion relative)))) := by
  unfold relocate
  simp only [hsource, hfree, hmade, h]

end Stages

/-- All that can become of a file: it is refused at once, the directories above its place fail, the move fails, or it is
moved. -/
theorem relocate_stages (world : World) (source : Path) (relative : String) (exclusion : Path) :
    (∃ refusal, relocate world source relative exclusion = (.error (.os refusal), world)) ∨
      world.pathExists source = .ok true ∧ world.pathExists (targetOf exclusion relative) = .ok false ∧
        ((∃ error made, world.makeDirs (targetOf exclusion relative).parent = (.error error, made) ∧
            relocate world source relative exclusion = (.error error, made)) ∨
          ∃ made, world.makeDirs (targetOf exclusion relative).parent = (.ok (), made) ∧
            ((∃ error moved, made.moveAside source (targetOf exclusion relative) = (.error error, moved) ∧
                relocate world source relative exclusion = (.error error, moved)) ∨
              ∃ moved, made.moveAside source (targetOf exclusion relative) = (.ok (), moved) ∧
                relocate world source relative exclusion = (.ok (targetOf exclusion relative),
                  moved.report (.changed (.moved source (targetOf exclusion relative)))))) := by
  by_cases hchecked : world.pathExists source = .ok true ∧ world.pathExists (targetOf exclusion relative) = .ok false
  swap
  · exact .inl (relocate_of_not_checked hchecked)
  obtain ⟨hexists, hfree⟩ := hchecked
  refine .inr ⟨hexists, hfree, ?_⟩
  cases hmake : world.makeDirs (targetOf exclusion relative).parent with
  | mk result made =>
      cases result with
      | error error => exact .inl ⟨error, made, rfl, relocate_of_makeDirs_error hexists hfree hmake⟩
      | ok done =>
          refine .inr ⟨made, rfl, ?_⟩
          cases hmove : made.moveAside source (targetOf exclusion relative) with
          | mk answer moved =>
              cases answer with
              | error error => exact .inl ⟨error, moved, rfl, relocate_of_moveAside_error hexists hfree hmake hmove⟩
              | ok done => exact .inr ⟨moved, rfl, relocate_of_moveAside_ok hexists hfree hmake hmove⟩

/-- What stands at the relative location of the dump is no directory, and the system does not take it for one. -/
def Candidate (base : World) (classdump : Path) (dump relative : Location) : Prop :=
  ∃ node, node.isDir = false ∧ base.root.bare? (dump ++ relative) = some node ∧
    ∀ n there, base.Leads n (classdump.descend relative) there → base.root.HasDir there →
      pathMax ≤ (classdump.descend relative).byteLength ∨ linkMax < n

variable {base world : World} {classdump exclusion : Path} {dump out : Location} {moved : List Location}
  {relative : Location} {name : String}

namespace SetAside

theorem of_moved {after : World} {node : Node} (h : SetAside base dump out moved world)
    (hsite : Site base.root dump out) (hend : base.root.DeadEnd (dump ++ relative))
    (hmoved : world.Moved (dump ++ relative) (out ++ relative) node after) :
    SetAside base dump out (relative :: moved) after where
  tree := h.tree.move hsite hend hmoved.leaf hmoved.was hmoved.root
  rest := calc
    after.silent.withRoot base.root = (after.silent.withRoot world.root).withRoot base.root := rfl
    _ = world.silent.withRoot base.root := by rw [hmoved.rest]
    _ = base.silent := h.rest

section InSetup

variable (h : SetAside base dump out moved world) (hsetup : Setup base classdump exclusion dump out)
include h hsetup

/-- A candidate that is found is a dead end, and it is still in its place. -/
theorem deadEnd_of_pathExists (hcandidate : Candidate base classdump dump (relative ++ [name]))
    (hexists : world.pathExists (classdump.descend (relative ++ [name])) = .ok true) :
    base.root.DeadEnd (dump ++ (relative ++ [name])) := by
  obtain ⟨node, hnode, hbare, hblocked⟩ := hcandidate
  refine ⟨node, hnode, hbare, ?_⟩
  rintro target rfl n there hreach hthere
  have hlegal := hsetup.legalNames hbare
  rw [← List.append_assoc, List.dropLast_concat] at hreach
  rw [← List.append_assoc] at hbare
  obtain ⟨m, hm, hleads⟩ := hsetup.dumpLeads
  have habove := hleads.descend_names (fun other hother => (hlegal other (List.mem_append_left _ hother)).isName)
    (Node.hasDir_of_bare? hbare)
  have hlink : base.root.Reach (n + 1) (dump ++ relative) [name] there :=
    .link (hlegal name (by simp)).isName hbare (by simpa using hreach)
  have hfound := habove.descend hlink
  rw [← Path.descend_append] at hfound
  obtain ⟨-, found, hstat, -⟩ := World.ask_eq_true hexists
  rw [(h.leads hfound hthere).stat] at hstat
  rcases hblocked _ _ hfound hthere with hlength | hn
  · rw [if_pos hlength] at hstat
    cases hstat
  · split at hstat
    · cases hstat
    · rw [if_neg (Nat.not_le.mpr hn)] at hstat
      cases hstat

theorem present_of_pathExists {node : Node} (hbare : base.root.bare? (dump ++ (relative ++ [name])) = some node)
    (hexists : world.pathExists (classdump.descend (relative ++ [name])) = .ok true) :
    (classdump.descend (relative ++ [name])).byteLength < pathMax ∧
      ∃ found, world.root.get? (dump ++ (relative ++ [name])) = some found := by
  have hlegal := hsetup.legalNames hbare
  rw [← List.append_assoc] at hbare
  have hparent := Node.hasDir_of_bare? hbare
  obtain ⟨n, hn, hleads⟩ := h.leads_dump hsetup hparent
  obtain ⟨-, found, hstat, -⟩ := World.ask_eq_true hexists
  refine ⟨World.short_of_stat hstat, ?_⟩
  · cases hget : world.root.get? (dump ++ (relative ++ [name])) with
    | some node => exact ⟨node, rfl⟩
    | none =>
        rw [← List.append_assoc] at hget
        have hname := (hlegal name (by simp)).isName
        obtain ⟨errno, herror⟩ := hleads.stat_of_missing (h.tree.kept _ hparent) hname.1 hname.2.1
          (Node.bare?_eq_none_iff.mpr hget)
        rw [Path.descend_append, ← Path.child_eq_descend, herror] at hstat
        cases hstat

theorem not_mem_of_pathExists (hcandidate : Candidate base classdump dump (relative ++ [name]))
    (hexists : world.pathExists (classdump.descend (relative ++ [name])) = .ok true) : relative ++ [name] ∉ moved := by
  obtain ⟨node, hnode, hbare, -⟩ := hcandidate
  obtain ⟨-, found, hfound⟩ := h.present_of_pathExists hsetup hbare hexists
  intro hmoved
  have hgone := Node.bare?_eq_none_iff.mp (h.tree.gone hsetup.site hmoved)
  rw [hfound] at hgone
  cases hgone

theorem isDir_of_deadEnd {node : Node} (hend : base.root.DeadEnd (dump ++ relative))
    (hthere : world.root.get? (dump ++ relative) = some node) : node.isDir = false := by
  cases node with
  | file data => rfl
  | link target => rfl
  | special => rfl
  | dir entries =>
      have hdir := h.tree.hasDir_dump hsetup.site (Node.hasDir_iff.mpr ⟨entries, hthere⟩)
      exact absurd hdir hend.not_hasDir

/-- The place of a dead end in the exclusion tree is free. -/
theorem makable_target {node : Node} (hend : base.root.DeadEnd (dump ++ (relative ++ [name])))
    (hthere : world.root.get? (dump ++ (relative ++ [name])) = some node) (hparent : world.root.HasDir (out ++ relative))
    (htarget : (exclusion.descend (relative ++ [name])).byteLength < pathMax) :
    world.Makable (exclusion.descend (relative ++ [name])) (out ++ relative) := by
  have hnode := h.isDir_of_deadEnd hsetup hend hthere
  obtain ⟨hbase, hnot⟩ := h.tree.bare?_dump hsetup.site hnode ((Node.bare?_eq_some_iff hnode).mpr hthere)
  have hlegal := hsetup.legalNames hbase
  have hlast := hlegal name (by simp)
  have hname := Path.name_descend exclusion relative name
  have habove := Path.byteLength_le_descend (exclusion.descend relative) [name]
  rw [← Path.descend_append] at habove
  obtain ⟨n, hn, hleads⟩ := h.leads_exclusion hsetup
    (fun other hother => hlegal other (List.mem_append_left _ hother)) hparent
  refine ⟨Path.hasNul_descend hsetup.noNul hlegal, htarget, ?_, ?_, ?_, ?_, hparent, ?_⟩
  · rw [hname]
    exact hlast.ne_empty
  · rw [hname]
    exact hlast.isName.2.1
  · rw [hname]
    exact hlast.isName.2.2
  · rw [Path.parent_descend]
    exact hleads.locateFrom (Nat.lt_of_le_of_lt habove htarget) hn
  · rw [hname, List.append_assoc]
    exact h.tree.free hsetup.site hend hnot

theorem stat_source {node : Node} (hbase : base.root.bare? (dump ++ (relative ++ [name])) = some node)
    (hnode : node.isDir = false) (hlink : node.isLink = false)
    (hthere : world.root.get? (dump ++ (relative ++ [name])) = some node)
    (hsource : (classdump.descend (relative ++ [name])).byteLength < pathMax) :
    world.stat (classdump.descend (relative ++ [name])) = .ok node := by
  have hname := (hsetup.legalNames hbase name (by simp)).isName
  rw [← List.append_assoc] at hbase hthere
  obtain ⟨n, hn, hleads⟩ := h.leads_dump hsetup (Node.hasDir_of_bare? hbase)
  have hbare := (Node.bare?_eq_some_iff hnode).mpr hthere
  have hfound := hleads.descend (.down hname hbare hlink (.done _))
  rw [Path.descend_append] at hsource ⊢
  have hstat := World.stat_of_locateFrom (hfound.locateFrom hsource hn)
  rwa [hthere] at hstat

theorem pathExists_source {node : Node} (hbase : base.root.bare? (dump ++ (relative ++ [name])) = some node)
    (hnode : node.isDir = false) (hlink : node.isLink = false) (hnot : relative ++ [name] ∉ moved)
    (hnul : classdump.hasNul = false)
    (hsource : (classdump.descend (relative ++ [name])).byteLength < pathMax) :
    world.pathExists (classdump.descend (relative ++ [name])) = .ok true := by
  have hstill := h.tree.bare?_eq hbase fun other hother hsame => hnot (List.append_cancel_left hsame ▸ hother)
  have hthere := (Node.bare?_eq_some_iff hnode).mp hstill
  have hfree := Path.hasNul_descend hnul (hsetup.legalNames hbase)
  exact World.ask_of_stat hfree (h.stat_source hsetup hbase hnode hlink hthere hsource)

theorem entryAt_source {node : Node} (hend : base.root.DeadEnd (dump ++ (relative ++ [name])))
    (hthere : world.root.get? (dump ++ (relative ++ [name])) = some node)
    (hnul : (classdump.descend (relative ++ [name])).hasNul = false)
    (hsource : (classdump.descend (relative ++ [name])).byteLength < pathMax) :
    world.EntryAt (classdump.descend (relative ++ [name])) (dump ++ relative) node := by
  have hnode := h.isDir_of_deadEnd hsetup hend hthere
  have hbare := (Node.bare?_eq_some_iff hnode).mpr hthere
  obtain ⟨hbase, -⟩ := h.tree.bare?_dump hsetup.site hnode hbare
  have hlegal := hsetup.legalNames hbase
  rw [← List.append_assoc] at hbase hbare
  have hname := Path.name_descend classdump relative name
  have hparent : (classdump.descend (relative ++ [name])).parent = classdump.descend relative := by
    rw [Path.parent_descend]
  refine ⟨hnul, hsource, ?_, hname.symm ▸ hlegal name (by simp), hnode, hname.symm ▸ hbare⟩
  rw [hparent]
  exact h.leads_dump hsetup (Node.hasDir_of_bare? hbase)

/-- A dead end that is still in its place is moved aside, unless the system was about to refuse it or the new path is
too long, and then nothing happens. -/
theorem moveAside_cases {node : Node} (hend : base.root.DeadEnd (dump ++ (relative ++ [name])))
    (hthere : world.root.get? (dump ++ (relative ++ [name])) = some node)
    (hparent : world.root.HasDir (out ++ relative))
    (hnul : (classdump.descend (relative ++ [name])).hasNul = false)
    (hsource : (classdump.descend (relative ++ [name])).byteLength < pathMax) :
    (¬Faulty world (classdump.descend (relative ++ [name])) ∧
        ∃ after, world.moveAside (classdump.descend (relative ++ [name])) (exclusion.descend (relative ++ [name])) =
            (.ok (), after) ∧
          world.Moved (dump ++ (relative ++ [name])) (out ++ (relative ++ [name])) node after) ∨
      ((Faulty world (classdump.descend (relative ++ [name])) ∨
          pathMax ≤ (exclusion.descend (relative ++ [name])).byteLength) ∧
        ∃ error, world.moveAside (classdump.descend (relative ++ [name])) (exclusion.descend (relative ++ [name])) =
          (.error (.os error), world)) := by
  have hentry := h.entryAt_source hsetup hend hthere hnul hsource
  have hworking : world.root.HasDir world.workingDir.location := by
    rw [h.workingDir_eq]
    exact h.tree.kept _ hsetup.legal.workingDir
  obtain ⟨node', hnode', hbare, -⟩ := id hend
  have hlegal := hsetup.legalNames hbare
  have hnameSource := Path.name_descend classdump relative name
  have hnameTarget := Path.name_descend exclusion relative name
  by_cases htarget : (exclusion.descend (relative ++ [name])).byteLength < pathMax
  · have hmakable := h.makable_target hsetup hend hthere hparent htarget
    have hmoves := hentry.moveAside_of_free hmakable (hnameTarget.symm ▸ hlegal name (by simp)) hworking
    rw [hnameSource, hnameTarget, List.append_assoc, List.append_assoc] at hmoves
    rcases hmoves with hmoved | ⟨hfault, hfailed⟩
    · exact .inl hmoved
    · exact .inr ⟨.inl hfault, hfailed⟩
  · refine .inr ⟨.inr (Nat.not_lt.mp htarget), ?_⟩
    have hmissing : world.locateFrom linkMax (exclusion.descend (relative ++ [name])) = .error .nameTooLong :=
      if_pos (Nat.not_lt.mp htarget)
    have htargetNul := Path.hasNul_descend hsetup.noNul hlegal
    cases hmove : world.moveAside (classdump.descend (relative ++ [name])) (exclusion.descend (relative ++ [name])) with
    | mk result after =>
        cases result with
        | ok done =>
            obtain ⟨new, hslot⟩ := hentry.exists_slot_of_moveAside hmissing hmove
            exact absurd (World.exists_above_of_slot hslot).1 htarget
        | error error =>
            obtain ⟨refusal, rfl⟩ := World.refusedOnly_moveAside world hnul htargetNul error (congrArg Prod.fst hmove)
            have hsame := hentry.allOrNothing_moveAside (exclusion.descend (relative ++ [name])) (.os refusal)
              (congrArg Prod.fst hmove)
            rw [hmove] at hsame
            exact ⟨refusal, by rw [show after = world from hsame]⟩

/-- The free place of a dead end is not there, whatever is missing above it. -/
theorem pathExists_target (hend : base.root.DeadEnd (dump ++ (relative ++ [name])))
    (hnot : relative ++ [name] ∉ moved) (htarget : (exclusion.descend (relative ++ [name])).byteLength < pathMax) :
    world.pathExists (exclusion.descend (relative ++ [name])) = .ok false := by
  have hfree := h.tree.free hsetup.site hend hnot
  obtain ⟨node, hnode, hbare, -⟩ := hend
  have hlegal := hsetup.legalNames hbare
  have hdir := Node.hasDir_above hbare
  obtain ⟨m, hm, hleads⟩ := hsetup.exclusion_leads
  have hlocate := (h.leads hleads hsetup.site.exclusionDir).locateFrom_of_missing hm htarget
    (fun other hother => (hlegal other hother).isName) (h.tree.kept _ hsetup.site.exclusionDir)
    (fun above habove found hfound => ?_) (fun hthere => ?_)
  · exact World.ask_of_noEntry (Path.hasNul_descend hsetup.noNul hlegal) (World.stat_of_locateFrom_error hlocate)
  · rcases List.prefix_concat_iff.mp habove with rfl | habove
    · rw [hfree] at hfound
      cases hfound
    · exact h.hasDir_above hsetup hdir habove hfound
  · rw [Node.HasDir, hfree] at hthere
    cases hthere

/-- The directories that a file goes to are made, unless its path there is too long. -/
theorem makeDirs_target_cases (hdir : base.root.HasDir (dump ++ relative))
    (hlegal : ∀ other ∈ relative ++ [name], LegalName other) :
    (∃ made, world.makeDirs (exclusion.descend (relative ++ [name])).parent = (.ok (), made) ∧
      SetAside base dump out moved made ∧ made.root.HasDir (out ++ relative)) ∨
    ∃ error made, world.makeDirs (exclusion.descend (relative ++ [name])).parent = (.error (.os error), made) ∧
      SetAside base dump out moved made ∧ pathMax ≤ (exclusion.descend (relative ++ [name])).byteLength := by
  have hparentPath : (exclusion.descend (relative ++ [name])).parent = exclusion.descend relative := by
    rw [Path.parent_descend]
  have hrefusals := World.refusedOnly_makeDirsUpTo (exclusion.descend relative).parts.length world
    (Path.hasNul_parent (Path.hasNul_descend hsetup.noNul hlegal))
  obtain ⟨result, made, hmake, hmade, hparent, hok⟩ :=
    h.exists_makeDirsUpTo hsetup hdir (exclusion.descend relative).parts.length
  rw [hparentPath] at hrefusals ⊢
  rw [hmake] at hrefusals
  cases result with
  | ok done => exact .inl ⟨made, hmake, hmade, hparent rfl⟩
  | error error =>
      obtain ⟨refusal, rfl⟩ := hrefusals error rfl
      refine .inr ⟨refusal, made, hmake, hmade, Nat.not_lt.mp fun hshort => ?_⟩
      have habove := Path.byteLength_le_descend (exclusion.descend relative) [name]
      rw [← Path.descend_append] at habove
      cases hok (by simp) (Nat.lt_of_le_of_lt habove hshort)

/-- A file that is still where it was is set aside, or the system refuses that. -/
theorem setAside_of_moveAside {node : Node} (hend : base.root.DeadEnd (dump ++ (relative ++ [name])))
    (hbare : base.root.bare? (dump ++ (relative ++ [name])) = some node) (hnode : node.isDir = false)
    (hnot : relative ++ [name] ∉ moved) (hparent : world.root.HasDir (out ++ relative))
    (hnul : (classdump.descend (relative ++ [name])).hasNul = false)
    (hsource : (classdump.descend (relative ++ [name])).byteLength < pathMax) :
    (∃ after, world.moveAside (classdump.descend (relative ++ [name])) (exclusion.descend (relative ++ [name])) =
        (.ok (), after) ∧
      SetAside base dump out ((relative ++ [name]) :: moved) after ∧
        ¬Faulty base (classdump.descend (relative ++ [name]))) ∨
    ∃ error, world.moveAside (classdump.descend (relative ++ [name])) (exclusion.descend (relative ++ [name])) =
        (.error (.os error), world) ∧
      ((exclusion.descend (relative ++ [name])).byteLength < pathMax →
        Faulty base (classdump.descend (relative ++ [name]))) := by
  have hstill : world.root.get? (dump ++ (relative ++ [name])) = some node := by
    refine (Node.bare?_eq_some_iff hnode).mp (h.tree.bare?_eq hbare fun other hother heq => ?_)
    rw [← List.append_cancel_left heq] at hother
    exact hnot hother
  have hbaseThere := (Node.bare?_eq_some_iff hnode).mp hbare
  have hentry := h.entryAt_source hsetup hend hstill hnul hsource
  have hwas := (setAside_nil base dump out).entryAt_source hsetup hend hbaseThere hnul hsource
  have hfaulty : Faulty world (classdump.descend (relative ++ [name])) ↔
      Faulty base (classdump.descend (relative ++ [name])) := by
    rw [Faulty, Faulty, h.faults_eq, hentry.lstat, hwas.lstat]
  rcases h.moveAside_cases hsetup hend hstill hparent hnul hsource with
    ⟨hsound, after, hmove, hmoved⟩ | ⟨hfault, error, hmove⟩
  · exact .inl ⟨after, hmove, h.of_moved hsetup.site hend hmoved, mt hfaulty.mpr hsound⟩
  · refine .inr ⟨error, hmove, fun hshort => ?_⟩
    rcases hfault with hfault | hlength
    · exact hfaulty.mp hfault
    · exact absurd hshort (Nat.not_lt.mpr hlength)

/-- A candidate is set aside, or the system refuses it and nothing is set aside; where the candidate is found and its
new path is short enough, it is only refused if the system was about to. -/
theorem relocate_cases (hcandidate : Candidate base classdump dump (relative ++ [name])) :
    (∃ after, relocate world (classdump.descend (relative ++ [name]))
      (Path.mk .here (relative ++ [name])).text exclusion =
        (.ok (exclusion.descend (relative ++ [name])), after) ∧
      SetAside base dump out ((relative ++ [name]) :: moved) after ∧
        ¬Faulty base (classdump.descend (relative ++ [name]))) ∨
    ∃ error after,
      relocate world (classdump.descend (relative ++ [name])) (Path.mk .here (relative ++ [name])).text exclusion =
        (.error (.os error), after) ∧
      SetAside base dump out moved after ∧
        (world.pathExists (classdump.descend (relative ++ [name])) = .ok true →
          (exclusion.descend (relative ++ [name])).byteLength < pathMax →
            Faulty base (classdump.descend (relative ++ [name]))) := by
  obtain ⟨node, hnode, hbare, -⟩ := id hcandidate
  have hlegal := hsetup.legalNames hbare
  have hdir := Node.hasDir_above hbare
  have htargetOf := targetOf_text exclusion (by simp) hlegal
  by_cases hchecked : world.pathExists (classdump.descend (relative ++ [name])) = .ok true ∧
    world.pathExists (exclusion.descend (relative ++ [name])) = .ok false
  · obtain ⟨hexists, hfree⟩ := hchecked
    have hend := h.deadEnd_of_pathExists hsetup hcandidate hexists
    have hnot := h.not_mem_of_pathExists hsetup hcandidate hexists
    have hnul := (World.ask_eq_true hexists).1
    obtain ⟨hsource, -⟩ := h.present_of_pathExists hsetup hbare hexists
    rcases h.makeDirs_target_cases hsetup hdir hlegal with
      ⟨made, hmake, hmade, hparent⟩ | ⟨error, made, hmake, hmade, hlong⟩
    · have hmove := hmade.setAside_of_moveAside hsetup hend hbare hnode hnot hparent hnul hsource
      rw [← htargetOf] at hfree hmake hmove ⊢
      rcases hmove with ⟨after, hmove, hafter, hsound⟩ | ⟨error, hmove, hfault⟩
      · refine .inl ⟨_, relocate_of_moveAside_ok hexists hfree hmake hmove, ?_, hsound⟩
        exact hafter.of_silent (World.silent_report after _)
      · exact .inr ⟨error, made, relocate_of_moveAside_error hexists hfree hmake hmove, hmade, fun _ => hfault⟩
    · rw [← htargetOf] at hfree hmake hlong ⊢
      exact .inr ⟨error, made, relocate_of_makeDirs_error hexists hfree hmake, hmade,
        fun _ hshort => absurd hshort (Nat.not_lt.mpr hlong)⟩
  · have hrefused := hchecked
    rw [← htargetOf] at hrefused
    obtain ⟨error, hrefused⟩ := relocate_of_not_checked hrefused
    refine .inr ⟨error, world, hrefused, h, fun hexists hshort => ?_⟩
    have hend := h.deadEnd_of_pathExists hsetup hcandidate hexists
    have hnot := h.not_mem_of_pathExists hsetup hcandidate hexists
    exact absurd ⟨hexists, h.pathExists_target hsetup hend hnot hshort⟩ hchecked

end InSetup

end SetAside
end Relocation
end ClassDump
