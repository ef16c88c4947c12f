import ClassDump.Proofs.Relocation.Displaced
import ClassDump.Proofs.Store.Silent
import ClassDump.Proofs.Store.Slot
import Mathlib.Data.List.Induction

/-! The directories of an exclusion tree. While a class dump is set aside, the directories made in the exclusion tree
are those of the dump, and they can be made whenever their paths are short enough. -/

namespace ClassDump

namespace World

variable {world after : World} {path : Path}

theorem makeDirsUpTo_eq_settle (levels : Nat)
    (h : ∀ shown other, (world.makeDir path).1 ≠ .error (.os (.refused .noEntry shown other))) :
    makeDirsUpTo levels world path = makeDirsUpTo.settle path (world.makeDir path) := by
  unfold makeDirsUpTo
  split
  · next shown other _ heq => exact absurd (congrArg Prod.fst heq) (h shown other)
  · rfl

theorem makeDirsUpTo_of_missing {levels : Nat} {shown other : Option String} {result : Except FileError Unit}
    (h : world.makeDir path = (.error (.os (.refused .noEntry shown other)), world))
    (hparent : makeDirsUpTo levels world path.parent = (result, after)) :
    makeDirsUpTo (levels + 1) world path =
      if result = .ok () then makeDirsUpTo.settle path (after.makeDir path) else (result, after) := by
  unfold makeDirsUpTo
  rw [h]
  simp only [Errno.noEntry, hparent]
  cases result <;> rfl

theorem makeDirsUpTo_zero_of_missing {error : OsError} (herror : error = .refused .noEntry (some path.text) none)
    (h : world.makeDir path = (.error (.os error), world)) :
    makeDirsUpTo 0 world path = (.error (.os error), world) := by
  unfold makeDirsUpTo
  rw [h, herror]
  rfl

theorem settle_of_isDir {error : OsError} (h : world.isDir path = .ok true) :
    makeDirsUpTo.settle path (.error (.os error), world) = (.ok (), world) := by
  simp only [makeDirsUpTo.settle, h]

/-- A path that is too long is refused whatever is missing above it. -/
theorem makeDirsUpTo_of_tooLong (levels : Nat) (world : World) {path : Path} (hname : path.name ≠ "")
    (hnul : path.hasNul = false) (hlength : pathMax ≤ path.byteLength) :
    makeDirsUpTo levels world path = (.error (.os (.refused .nameTooLong (some path.text) none)), world) := by
  have hslot := @slot_of_tooLong world path hname hlength .fileExists
  have hmake : world.makeDir path = (.error (.os (.refused .nameTooLong (some path.text) none)), world) := by
    unfold World.makeDir
    rw [hnul, hslot]
    rfl
  have hisDir : world.isDir path = .error (.refused .nameTooLong (some path.text) none) := by
    unfold World.isDir World.ask
    rw [hnul, stat_of_tooLong hlength]
    rfl
  rw [makeDirsUpTo_eq_settle levels (by rw [hmake]; simp [Errno.noEntry, Errno.nameTooLong]), hmake]
  simp only [makeDirsUpTo.settle, hisDir]

end World

namespace Relocation

/-- The world in which a class dump is about to be pruned. Its path and that of the exclusion tree, which was just made,
can be followed to where the two are. -/
structure Setup (base : World) (classdump exclusion : Path) (dump out : Location) : Prop where
  legal : base.Legal
  site : Site base.root dump out
  dumpLeads : ∃ n ≤ linkMax, base.Leads n classdump dump
  exclusionLeads : ∃ n ≤ linkMax, ∃ above, base.Leads n exclusion.parent above ∧ out = above ++ [exclusion.name]
  named : LegalName exclusion.name
  short : exclusion.byteLength < pathMax
  noNul : exclusion.hasNul = false

/-- The world after some entries of the class dump were set aside, and nothing else was done but reports. -/
structure SetAside (base : World) (dump out : Location) (moved : List Location) (world : World) : Prop where
  tree : Displaced base.root dump out moved world.root
  rest : world.silent.withRoot base.root = base.silent

variable {base world after : World} {classdump exclusion : Path} {dump out : Location} {moved : List Location}
  {names : List String}

theorem setAside_nil (base : World) (dump out : Location) : SetAside base dump out [] base where
  tree := displaced_nil base.root dump out
  rest := rfl

namespace Setup

variable (hsetup : Setup base classdump exclusion dump out)
include hsetup

theorem exclusion_leads : ∃ n ≤ linkMax, base.Leads n exclusion out := by
  obtain ⟨n, hn, above, habove, rfl⟩ := hsetup.exclusionLeads
  refine ⟨n, hn, ?_⟩
  have hleads := habove.descend_names (fun name hname => ?_) hsetup.site.exclusionDir
  · rwa [← Path.child_eq_descend, Path.child_name_parent hsetup.named.ne_empty] at hleads
  · rw [List.mem_singleton.mp hname]
    exact hsetup.named.isName

theorem legalNames {node : Node} (h : base.root.bare? (dump ++ names) = some node) : ∀ name ∈ names, LegalName name :=
  hsetup.legal.names h

theorem exists_concat {node : Node} (hnode : node.isDir = false) (hbare : base.root.bare? (dump ++ names) = some node) :
    ∃ above name, names = above ++ [name] := by
  rcases List.eq_nil_or_concat names with rfl | ⟨above, name, rfl⟩
  · rw [List.append_nil, hsetup.site.dumpDir] at hbare
    cases hbare
    cases hnode
  · exact ⟨above, name, List.concat_eq_append⟩

end Setup

namespace SetAside

variable (h : SetAside base dump out moved world)
include h

theorem of_silent (hsilent : after.silent = world.silent) : SetAside base dump out moved after where
  tree := World.root_eq_of_silent hsilent ▸ h.tree
  rest := by rw [hsilent, h.rest]

theorem workingDir_eq : world.workingDir = base.workingDir := by
  have hrest := congrArg World.workingDir h.rest
  exact hrest

theorem faults_eq : world.faults = base.faults := by
  have hrest := congrArg World.faults h.rest
  exact hrest

theorem leads {n : Nat} {path : Path} {there : Location} (hleads : base.Leads n path there)
    (hthere : base.root.HasDir there) : world.Leads n path there := by
  obtain ⟨rest, hparts, hreach⟩ := hleads
  refine ⟨rest, ?_, ?_⟩
  · rw [World.start, h.workingDir_eq]
    exact hparts
  · rw [World.start, h.workingDir_eq]
    exact h.tree.reach hreach hthere

section InSetup

variable (hsetup : Setup base classdump exclusion dump out)
include hsetup

theorem hasDir_above (hdir : base.root.HasDir (dump ++ names)) {above : List String} (habove : above <+: names)
    {node : Node} (hnode : world.root.bare? (out ++ above) = some node) : world.root.HasDir (out ++ above) := by
  obtain ⟨below, rfl⟩ := habove
  rw [← List.append_assoc] at hdir
  exact h.tree.hasDir_exclusion hsetup.site (Node.hasDir_of_hasDir_append hdir) hnode

theorem leads_exclusion (hnames : ∀ name ∈ names, LegalName name) (hdir : world.root.HasDir (out ++ names)) :
    ∃ n ≤ linkMax, world.Leads n (exclusion.descend names) (out ++ names) := by
  obtain ⟨n, hn, hleads⟩ := hsetup.exclusion_leads
  exact ⟨n, hn, (h.leads hleads hsetup.site.exclusionDir).descend_names
    (fun name hname => (hnames name hname).isName) hdir⟩

theorem leads_dump (hdir : base.root.HasDir (dump ++ names)) :
    ∃ n ≤ linkMax, world.Leads n (classdump.descend names) (dump ++ names) := by
  obtain ⟨n, hn, hleads⟩ := hsetup.dumpLeads
  refine ⟨n, hn, h.leads ?_ hdir⟩
  exact hleads.descend_names (fun name hname => (hsetup.legalNames hdir name hname).isName) hdir

theorem isDir_exclusion (hnames : ∀ name ∈ names, LegalName name) (hdir : world.root.HasDir (out ++ names))
    (hlength : (exclusion.descend names).byteLength < pathMax) : world.isDir (exclusion.descend names) = .ok true := by
  obtain ⟨n, hn, hleads⟩ := h.leads_exclusion hsetup hnames hdir
  have hthere : world.IsDirAt (exclusion.descend names) (out ++ names) := ⟨hleads.locateFrom hlength hn, hdir⟩
  exact hthere.isDir (Path.hasNul_descend hsetup.noNul hnames)

theorem makeDir_root : ∃ error, (∀ shown other, Except.error (FileError.os error) ≠
      (.error (.os (.refused .noEntry shown other)) : Except FileError Unit)) ∧
    world.makeDir exclusion = (.error (.os error), world) := by
  obtain ⟨n, hn, above, habove, hout⟩ := hsetup.exclusionLeads
  have hdir := hsetup.site.exclusionDir
  rw [hout] at hdir
  have hparent := Node.hasDir_of_hasDir_append hdir
  obtain ⟨entries, hentries⟩ := Node.hasDir_iff.mp (h.tree.kept _ hparent)
  obtain ⟨inside, hinside⟩ := Node.hasDir_iff.mp (h.tree.kept _ hdir)
  have hshort := hsetup.short
  have hchild := Path.child_name_parent hsetup.named.ne_empty
  rw [← hchild] at hshort
  have hslot := (h.leads habove hparent).slot hn hentries hsetup.named hshort .fileExists
  rw [hchild, hinside] at hslot
  refine ⟨.refused .fileExists (some exclusion.text) none, by simp [Errno.noEntry, Errno.fileExists], ?_⟩
  unfold World.makeDir
  rw [hsetup.noNul, hslot]
  rfl

/-- In a directory of the exclusion tree, a directory is made or there already. -/
theorem settle_makeDir {name : String} (hdir : base.root.HasDir (dump ++ (names ++ [name])))
    (hparent : world.root.HasDir (out ++ names))
    (hlength : (exclusion.descend (names ++ [name])).byteLength < pathMax) :
    (∀ shown other, (world.makeDir (exclusion.descend (names ++ [name]))).1 ≠
      .error (.os (.refused .noEntry shown other))) ∧
    ∃ after, World.makeDirsUpTo.settle (exclusion.descend (names ++ [name]))
        (world.makeDir (exclusion.descend (names ++ [name]))) = (.ok (), after) ∧
      SetAside base dump out moved after ∧ after.root.HasDir (out ++ (names ++ [name])) := by
  have hlegal := hsetup.legalNames hdir
  obtain ⟨n, hn, hleads⟩ := h.leads_exclusion hsetup
    (fun other hother => hlegal other (List.mem_append_left _ hother)) hparent
  obtain ⟨entries, hentries⟩ := Node.hasDir_iff.mp hparent
  have hchild : exclusion.descend (names ++ [name]) = (exclusion.descend names).child name := Path.descend_append _ _ _
  have hslot := hleads.slot hn hentries (hlegal name (by simp)) (hchild ▸ hlength) .fileExists
  rw [← hchild, List.append_assoc] at hslot
  have hnul := Path.hasNul_descend hsetup.noNul hlegal
  cases hget : world.root.get? (out ++ (names ++ [name])) with
  | none =>
      rw [hget] at hslot
      have hmake : world.makeDir (exclusion.descend (names ++ [name])) =
          (.ok (), { world with root := world.root.put (out ++ (names ++ [name])) (.dir []) }) := by
        unfold World.makeDir
        rw [hnul, hslot]
        simp [World.Slot.location]
      rw [hmake]
      have hfree := Node.bare?_eq_none_iff.mpr hget
      have htree := h.tree.put_dir hdir hparent hfree
      refine ⟨nofun, _, rfl, ⟨htree, h.rest⟩, ?_⟩
      · rw [← List.append_assoc, Node.HasDir, Node.bare?_put_dir hparent (by rwa [List.append_assoc]),
          Function.update_self]
  | some node =>
      rw [hget] at hslot
      have hthere : world.root.HasDir (out ++ (names ++ [name])) :=
        h.tree.hasDir_exclusion hsetup.site hdir (congrArg (Option.map Node.bare) hget)
      have hmake : ∃ error, error = .refused .fileExists (some (exclusion.descend (names ++ [name])).text) none ∧
          world.makeDir (exclusion.descend (names ++ [name])) = (.error (.os error), world) := by
        refine ⟨_, rfl, ?_⟩
        unfold World.makeDir
        rw [hnul, hslot]
        simp
      obtain ⟨error, herror, hmake⟩ := hmake
      rw [hmake]
      refine ⟨fun shown other heq => ?_, world, ?_, h, hthere⟩
      · rw [herror] at heq
        cases heq
      · exact World.settle_of_isDir (h.isDir_exclusion hsetup hlegal hthere hlength)

/-- In a directory of the exclusion tree that is missing, no directory is made. -/
theorem makeDir_of_missing {name : String} (hdir : base.root.HasDir (dump ++ (names ++ [name])))
    (hparent : ¬world.root.HasDir (out ++ names))
    (hlength : (exclusion.descend (names ++ [name])).byteLength < pathMax) :
    world.makeDir (exclusion.descend (names ++ [name])) =
      (.error (.os (.refused .noEntry (some (exclusion.descend (names ++ [name])).text) none)), world) := by
  have hlegal := hsetup.legalNames hdir
  have hnames : ∀ other ∈ names, LegalName other := fun other hother => hlegal other (List.mem_append_left _ hother)
  obtain ⟨n, hn, hleads⟩ := hsetup.exclusion_leads
  have hchild : exclusion.descend (names ++ [name]) = (exclusion.descend names).child name := Path.descend_append _ _ _
  have habove := Path.byteLength_le_child (exclusion.descend names) name
  rw [hchild] at hlength
  rw [← List.append_assoc] at hdir
  have hlocate := (h.leads hleads hsetup.site.exclusionDir).locateFrom_of_missing hn
    (Nat.lt_of_le_of_lt habove hlength) (fun other hother => (hnames other hother).isName)
    (h.tree.kept _ hsetup.site.exclusionDir)
    (fun above habove node hnode => h.hasDir_above hsetup (Node.hasDir_of_hasDir_append hdir) habove hnode) hparent
  have hholder := World.holder_of_locateFrom (hlegal name (by simp)).ne_empty hlength hlocate
  unfold World.makeDir World.slot
  rw [Path.hasNul_descend hsetup.noNul hlegal, hchild, hholder]
  rfl

/-- The root of the exclusion tree is there, so nothing is made for it. -/
theorem makeDirsUpTo_root (levels : Nat) : World.makeDirsUpTo levels world exclusion = (.ok (), world) := by
  have hthere : world.root.HasDir (out ++ []) := by
    rw [List.append_nil]
    exact h.tree.kept _ hsetup.site.exclusionDir
  have hisDir := h.isDir_exclusion hsetup (fun _ hname => absurd hname List.not_mem_nil) hthere
    (by simpa using hsetup.short)
  rw [Path.descend_nil] at hisDir
  obtain ⟨error, herror, hmake⟩ := h.makeDir_root hsetup
  have hsettle := @World.makeDirsUpTo_eq_settle world exclusion levels (by rwa [hmake])
  rwa [hmake, World.settle_of_isDir hisDir] at hsettle

/-- Making a directory of the exclusion tree with those above it only makes directories that the dump has, and it
succeeds if the path is short enough. -/
theorem exists_makeDirsUpTo (hdir : base.root.HasDir (dump ++ names)) (levels : Nat) :
    ∃ result after, World.makeDirsUpTo levels world (exclusion.descend names) = (result, after) ∧
      SetAside base dump out moved after ∧ (result = .ok () → after.root.HasDir (out ++ names)) ∧
        (names.length ≤ levels → (exclusion.descend names).byteLength < pathMax → result = .ok ()) := by
  induction names using List.reverseRec generalizing levels with
  | nil =>
      rw [Path.descend_nil, List.append_nil]
      exact ⟨_, _, h.makeDirsUpTo_root hsetup levels, h, fun _ => h.tree.kept _ hsetup.site.exclusionDir,
        fun _ _ => rfl⟩
  | append_singleton names name ih =>
      have hlegal := hsetup.legalNames hdir
      have hname : (exclusion.descend (names ++ [name])).name ≠ "" := by
        rw [Path.name_descend]
        exact (hlegal name (by simp)).ne_empty
      have hparentDir := Node.hasDir_above hdir
      by_cases hlength : (exclusion.descend (names ++ [name])).byteLength < pathMax
      · by_cases hparent : world.root.HasDir (out ++ names)
        · obtain ⟨hother, after, hsettle, hafter, hthere⟩ := h.settle_makeDir hsetup hdir hparent hlength
          have hmade := (World.makeDirsUpTo_eq_settle levels hother).trans hsettle
          exact ⟨_, _, hmade, hafter, fun _ => hthere, fun _ _ => rfl⟩
        · have hmake := h.makeDir_of_missing hsetup hdir hparent hlength
          cases levels with
          | zero =>
              refine ⟨_, _, World.makeDirsUpTo_zero_of_missing rfl hmake, h, fun hok => ?_, fun hlevels _ => ?_⟩
              · cases hok
              · simp at hlevels
          | succ levels =>
              obtain ⟨result, after, hup, hafter, hthere, hok⟩ := ih hparentDir levels
              rw [← Path.parent_descend exclusion names name] at hup
              have hmissing := World.makeDirsUpTo_of_missing hmake hup
              cases result with
              | error error =>
                  refine ⟨_, _, hmissing, hafter, fun hmade => ?_, fun hlevels _ => ?_⟩
                  · cases hmade
                  · have habove := Path.byteLength_le_child (exclusion.descend names) name
                    rw [Path.child_eq_descend, ← Path.descend_append] at habove
                    have hmade := hok (by simpa using hlevels) (Nat.lt_of_le_of_lt habove hlength)
                    cases hmade
              | ok made =>
                  obtain ⟨-, final, hsettle, hfinal, hfound⟩ := hafter.settle_makeDir hsetup hdir (hthere rfl) hlength
                  exact ⟨_, _, hmissing.trans ((if_pos rfl).trans hsettle), hfinal, fun _ => hfound, fun _ _ => rfl⟩
      · have hrefused := World.makeDirsUpTo_of_tooLong levels world hname (Path.hasNul_descend hsetup.noNul hlegal)
          (Nat.not_lt.mp hlength)
        refine ⟨_, _, hrefused, h, fun hok => ?_, fun _ hshort => absurd hshort hlength⟩
        cases hok

end InSetup

end SetAside
end Relocation
end ClassDump
