import ClassDump.Pipeline
import ClassDump.Proofs.Pipeline.Failure
import ClassDump.Proofs.Reference.Key
import ClassDump.Proofs.Relocation.Outcome
import ClassDump.Proofs.Walk.Alike

/-! What was reported, and whether progress is, has no influence on the pipeline. From two worlds that differ in nothing
but their reports, with or without reports of progress, every stage answers the same and leads to two worlds that again
differ in nothing else. -/

namespace ClassDump

/-- The same answer, the same state of what was asked, and worlds that are the same up to their reports. -/
def SameAnswer {α ρ : Type} (answer other : α × ρ × World) : Prop :=
  answer.1 = other.1 ∧ SameOutcome answer.2 other.2

theorem SameAnswer.exists_eq {α ρ : Type} {answer other : α × ρ × World} (h : SameAnswer answer other) :
    ∃ value state after later, answer = (value, state, after) ∧ other = (value, state, later) ∧
      after.silent = later.silent :=
  ⟨answer.1, answer.2.1, answer.2.2, other.2.2, rfl, Prod.ext h.1.symm (Prod.ext h.2.1.symm rfl), h.2.2⟩

namespace Classpath

variable {world other : World} (h : world.silent = other.silent)
include h

theorem sameOutcome_rootsFrom (index : Nat) (paths : List Path) :
    SameOutcome (rootsFrom index paths world) (rootsFrom index paths other) := by
  induction paths generalizing index world other with
  | nil => exact ⟨rfl, h⟩
  | cons path rest ih =>
      unfold rootsFrom
      rw [World.isDir_of_silent h]
      split
      · exact ⟨rfl, h⟩
      · obtain ⟨answer, after, later, hafter, hlater, hsilent⟩ := (ih h (index + 1)).exists_eq
        rw [hafter, hlater]
        cases answer <;> exact ⟨rfl, hsilent⟩
      · refine ih ?_ (index + 1)
        exact h

theorem sameOutcome_resolveRoots (entries : List Entry) :
    SameOutcome (resolveRoots world entries) (resolveRoots other entries) := by
  unfold resolveRoots
  rw [resolveEntries_of_silent h]
  split
  · exact ⟨rfl, h⟩
  · next paths _ =>
    obtain ⟨answer, after, later, hafter, hlater, hsilent⟩ := (sameOutcome_rootsFrom h 0 paths).exists_eq
    rw [hafter, hlater]
    cases answer <;> exact ⟨rfl, hsilent⟩

namespace Lookup

theorem sameOutcome_openData (path : Path) (data : Bytes) :
    SameOutcome (openData path data world) (openData path data other) := by
  unfold openData
  rw [openFile_of_silent h]
  cases openFile path data other with
  | ok archive => exact ⟨rfl, h⟩
  | error error => cases error <;> exact ⟨rfl, h⟩

theorem sameOutcome_opening (path : Path) : SameOutcome (opening world path) (opening other path) := by
  unfold opening
  rw [World.isFile_of_silent h, World.stat_of_silent h]
  split
  · exact ⟨rfl, h⟩
  · exact sameOutcome_openData h path _
  · exact ⟨rfl, h⟩

theorem sameAnswer_archiveAt (lookup : Lookup) (path : Path) :
    SameAnswer (lookup.archiveAt world path) (lookup.archiveAt other path) := by
  cases hknown : lookup.archives.lookup path with
  | some known =>
      rw [archiveAt_of_known hknown, archiveAt_of_known hknown]
      exact ⟨rfl, rfl, h⟩
  | none =>
      obtain ⟨opened, after, later, hafter, hlater, hsilent⟩ := (sameOutcome_opening h path).exists_eq
      rw [archiveAt_of_unknown hknown, archiveAt_of_unknown hknown, hafter, hlater]
      cases opened <;> exact ⟨rfl, rfl, hsilent⟩

theorem sameAnswer_answerAt (lookup : Lookup) (resource : String) (entry : Path) :
    SameAnswer (lookup.answerAt world resource entry) (lookup.answerAt other resource entry) := by
  unfold answerAt
  rw [consults_of_silent h, answerOf_of_silent h]
  split
  · obtain ⟨hsame, hafter⟩ := sameAnswer_archiveAt h lookup entry
    exact ⟨congrArg (·.bind (answerIn resource)) hsame, hafter⟩
  · exact ⟨rfl, rfl, h⟩

theorem sameAnswer_readFrom (resource : String) (entries : List Path) (lookup : Lookup) :
    SameAnswer (readFrom resource entries lookup world) (readFrom resource entries lookup other) := by
  induction entries generalizing lookup world other with
  | nil => exact ⟨rfl, rfl, h⟩
  | cons entry rest ih =>
      obtain ⟨answer, next, after, later, hafter, hlater, hsilent⟩ :=
        (sameAnswer_answerAt h lookup resource entry).exists_eq
      rw [readFrom_cons, readFrom_cons, hafter, hlater]
      cases answer with
      | error error => exact ⟨rfl, rfl, hsilent⟩
      | ok found =>
          cases found with
          | some data => exact ⟨rfl, rfl, hsilent⟩
          | none => exact ih hsilent next

theorem sameAnswer_readResource (lookup : Lookup) (resource : String) :
    SameAnswer (lookup.readResource world resource) (lookup.readResource other resource) := by
  unfold readResource
  split
  · exact ⟨rfl, rfl, h⟩
  · exact sameAnswer_readFrom h resource lookup.entries lookup

end Lookup
end Classpath

namespace Reference

variable {ρ : Type}

/-- The scans differ in their reports only. -/
structure SameScan (scan other : Scan ρ) : Prop where
  world : scan.world.silent = other.world.silent
  source : scan.source = other.source
  keys : scan.keys = other.keys
  processed : scan.processed = other.processed

theorem sameScan_log {scan other : Scan ρ} (h : SameScan scan other) (source : Source) (message said : String) :
    SameScan (scan.log source message) (other.log source said) :=
  ⟨h.world, h.source, h.keys, h.processed⟩

theorem sameScan_reported {scan other : Scan ρ} (h : SameScan scan other) (due dueThere : Bool) :
    SameScan (if due then scan.reportProgress else scan) (if dueThere then other.reportProgress else other) := by
  cases due <;> cases dueThere <;> exact ⟨h.world, h.source, h.keys, h.processed⟩

/-- The tasks key classes alike, by a source that answers the same whatever was reported. -/
structure SameTask (task other : Task ρ) : Prop where
  read : task.read = other.read
  classId : task.classId = other.classId
  blind : ∀ source world copy resource, world.silent = copy.silent →
    SameAnswer (other.read source world resource) (other.read source copy resource)
  regular : task.interval ≠ some 0 ∧ other.interval ≠ some 0

theorem sameTask_referenceTask (progress quiet : Bool) :
    SameTask (Pipeline.referenceTask progress) (Pipeline.referenceTask quiet) where
  read := rfl
  classId := rfl
  blind source _ _ resource h := Classpath.Lookup.sameAnswer_readResource h source resource
  regular := ⟨interval_ne_zero progress, interval_ne_zero quiet⟩

section Alike

variable {task other : Task ρ} {scan copy : Scan ρ}

theorem sameScan_keyFor (htask : SameTask task other) (h : SameScan scan copy) (file root : Path) :
    (keyFor task file root scan).1 = (keyFor other file root copy).1 ∧
      SameScan (keyFor task file root scan).2 (keyFor other file root copy).2 := by
  cases hrelative : file.relativeTo? root with
  | none =>
      rw [keyFor_of_not_below hrelative, keyFor_of_not_below hrelative]
      exact ⟨rfl, h⟩
  | some relative =>
      obtain ⟨logged, answer, source, read, later, hlogged, hask, hlater, hkey⟩ :=
        @exists_keyFor _ task _ _ _ hrelative scan
      obtain ⟨logged', answer', source', read', later', hlogged', hask', hlater', hkey'⟩ :=
        @exists_keyFor _ other _ _ _ hrelative copy
      have hsame : SameAnswer (answer, source, read) (answer', source', read') := by
        have hasked : logged.silent = logged'.silent :=
          calc logged.silent = scan.world.silent := hlogged.silent
            _ = copy.world.silent := h.world
            _ = logged'.silent := hlogged'.silent.symm
        rw [← hask, ← hask', htask.read, h.source]
        exact htask.blind _ _ _ _ hasked
      obtain ⟨rfl, rfl, hread⟩ : answer = answer' ∧ source = source' ∧ read.silent = read'.silent := hsame
      have hkeyed : later.silent = later'.silent :=
        calc later.silent = read.silent := hlater.silent
          _ = read'.silent := hread
          _ = later'.silent := hlater'.silent.symm
      rw [hkey, hkey', htask.classId]
      exact ⟨rfl, hkeyed, rfl, h.keys, h.processed⟩

theorem sameScan_visit (htask : SameTask task other) (h : SameScan scan copy) (root file : Path) :
    (visit task root file scan).1 = (visit other root file copy).1 ∧
      SameScan (visit task root file scan).2 (visit other root file copy).2 := by
  cases hclass : isClassFile file with
  | false =>
      rw [visit_of_not_isClassFile hclass, visit_of_not_isClassFile hclass]
      exact ⟨rfl, h⟩
  | true =>
      obtain ⟨hkey, hscan⟩ := sameScan_keyFor htask h file root
      cases hkeyed : keyFor task file root scan with
      | mk result after =>
          cases hcopied : keyFor other file root copy with
          | mk answer later =>
              rw [hkeyed, hcopied] at hkey hscan
              change result = answer at hkey
              subst hkey
              cases result with
              | error failure =>
                  rw [visit_of_keyFor_error hclass hkeyed, visit_of_keyFor_error hclass hcopied]
                  exact ⟨rfl, hscan⟩
              | ok key =>
                  obtain ⟨due, hdue⟩ := Progress.exists_due? htask.regular.1 (after.processed + 1)
                  obtain ⟨dueThere, hdueThere⟩ := Progress.exists_due? htask.regular.2 (later.processed + 1)
                  have hcounted : SameScan (after.count key) (later.count key) :=
                    ⟨hscan.world, hscan.source, congrArg (·.insert key.path) hscan.keys,
                      congrArg (· + 1) hscan.processed⟩
                  rw [visit_of_keyFor_ok hclass hkeyed hdue, visit_of_keyFor_ok hclass hcopied hdueThere]
                  exact ⟨rfl, sameScan_reported hcounted due dueThere⟩

theorem alike_visitor (htask : SameTask task other) (root : Path) :
    Walk.Alike (visitor task root) (visitor other root) SameScan where
  list _ _ h := World.list_of_silent h.world
  isLink _ _ h := World.isLink_of_silent h.world
  followLinks := rfl
  visit path _ _ h := sameScan_visit htask h root path
  log message _ _ h := sameScan_log h .walk message message
  onError := .none

theorem sameScan_scanRoots (htask : SameTask task other) (roots : List Path) (h : SameScan scan copy) :
    (scanRoots task roots scan).1 = (scanRoots other roots copy).1 ∧
      SameScan (scanRoots task roots scan).2 (scanRoots other roots copy).2 := by
  induction roots generalizing scan copy with
  | nil => exact ⟨rfl, h⟩
  | cons root rest ih =>
      obtain ⟨hresult, hscan⟩ := (alike_visitor htask root).run_eq root
        (sameScan_log h .reference ("Checking local classes: " ++ root.text) ("Checking local classes: " ++ root.text))
      unfold scanRoots
      dsimp only
      cases hrun : Walk.run (visitor task root) root
        (scan.log .reference ("Checking local classes: " ++ root.text)) with
      | mk result after =>
          cases hcopied : Walk.run (visitor other root) root
            (copy.log .reference ("Checking local classes: " ++ root.text)) with
          | mk answer later =>
              rw [hrun, hcopied] at hresult hscan
              change result = answer at hresult
              subst hresult
              cases result with
              | error raised => exact ⟨rfl, hscan⟩
              | ok visited => exact ih hscan

/-- The set is built alike, whatever was reported and whether progress is. -/
theorem sameAnswer_build (htask : SameTask task other) (roots : List Path) (source : ρ) {world after : World}
    (h : world.silent = after.silent) :
    SameAnswer (build task roots source world) (build other roots source after) := by
  obtain ⟨hresult, hscan⟩ := @sameScan_scanRoots _ _ _ { world := world, source := source }
    { world := after, source := source } htask roots ⟨h, rfl, rfl, rfl⟩
  unfold build
  cases hrun : scanRoots task roots { world := world, source := source } with
  | mk result scan =>
      cases hcopied : scanRoots other roots { world := after, source := source } with
      | mk answer copy =>
          rw [hrun, hcopied] at hresult hscan
          change result = answer at hresult
          subst hresult
          cases result with
          | error failure => exact ⟨rfl, hscan.source, hscan.world⟩
          | ok done =>
              obtain ⟨isOpen, hopen⟩ := Progress.exists_open? htask.regular.1 scan.processed
              obtain ⟨isOpenThere, hopenThere⟩ := Progress.exists_open? htask.regular.2 copy.processed
              have hlast := sameScan_log (sameScan_reported hscan isOpen isOpenThere) .reference
                ("Fingerprinted " ++ toString scan.processed ++ " local classes in 0.00 seconds")
                ("Fingerprinted " ++ toString copy.processed ++ " local classes in 0.00 seconds")
              simp only [hopen, hopenThere, Listener.answer_mute]
              generalize Scan.log _ _ _ = last at hlast ⊢
              generalize Scan.log _ _ _ = lastThere at hlast ⊢
              rw [hlast.keys, hlast.source]
              split
              · exact ⟨rfl, rfl, hlast.world⟩
              · exact ⟨rfl, rfl, hlast.world⟩

end Alike

end Reference

namespace Reconcile

/-- The tasks prune alike, whether or not they report their progress. -/
structure SameTask (task other : Task) : Prop where
  classdump : task.classdump = other.classdump
  references : task.references = other.references
  exclusion : task.exclusion = other.exclusion
  dryRun : task.dryRun = other.dryRun
  regular : task.IsRegular ∧ other.IsRegular

/-- The scans differ in their reports only. -/
structure SameScan (scan other : Scan) : Prop where
  world : scan.world.silent = other.world.silent
  kept : scan.kept = other.kept
  pruned : scan.pruned = other.pruned
  skipped : scan.skipped = other.skipped

variable {task other : Task} {scan copy : Scan}

theorem sameScan_reported (h : SameScan scan copy) (due dueThere : Bool) :
    SameScan (if due then scan.reportProgress else scan) (if dueThere then copy.reportProgress else copy) := by
  cases due <;> cases dueThere <;> exact ⟨h.world, h.kept, h.pruned, h.skipped⟩

theorem sameScan_proceed (htask : SameTask task other) (h : SameScan scan copy) :
    (scan.proceed task.interval).1 = (copy.proceed other.interval).1 ∧
      SameScan (scan.proceed task.interval).2 (copy.proceed other.interval).2 := by
  obtain ⟨after, hafter, hworld, hkept, hpruned, hskipped⟩ := Scan.proceed_eq htask.regular.1 scan
  obtain ⟨later, hlater, hworld', hkept', hpruned', hskipped'⟩ := Scan.proceed_eq htask.regular.2 copy
  rw [hafter, hlater]
  refine ⟨rfl, ⟨?_, by rw [hkept, hkept', h.kept], by rw [hpruned, hpruned', h.pruned],
    by rw [hskipped, hskipped', h.skipped]⟩⟩
  calc after.world.silent = scan.world.silent := hworld
    _ = copy.world.silent := h.world
    _ = later.world.silent := hworld'.symm

theorem sameScan_decideOn (htask : SameTask task other) (h : SameScan scan copy) (file : Path) (relative : String) :
    (decideOn task file relative scan).1 = (decideOn other file relative copy).1 ∧
      SameScan (decideOn task file relative scan).2 (decideOn other file relative copy).2 := by
  unfold decideOn
  rw [htask.references, htask.dryRun, htask.exclusion]
  split
  · exact sameScan_proceed htask ⟨h.world, congrArg (· + 1) h.kept, h.pruned, h.skipped⟩
  · split
    · exact sameScan_proceed htask ⟨h.world, h.kept, congrArg (· + 1) h.pruned, h.skipped⟩
    · have hlogged : ∀ message, (scan.log .debug .reconciler message).world.silent =
          (copy.log .debug .reconciler message).world.silent := fun _ => h.world
      obtain ⟨answer, after, later, hafter, hlater, hsilent⟩ :=
        (Relocation.sameOutcome_relocate (hlogged ("Removing classdump for " ++ relative ++ ": " ++ file.text)) file
          relative other.exclusion).exists_eq
      dsimp only
      rw [hafter, hlater]
      cases answer with
      | ok target => exact sameScan_proceed htask ⟨hsilent, h.kept, congrArg (· + 1) h.pruned, h.skipped⟩
      | error error => cases error <;> exact ⟨rfl, hsilent, h.kept, h.pruned, h.skipped⟩

theorem sameScan_visit (htask : SameTask task other) (h : SameScan scan copy) (file : Path) :
    (visit task file scan).1 = (visit other file copy).1 ∧
      SameScan (visit task file scan).2 (visit other file copy).2 := by
  unfold visit
  rw [htask.classdump]
  split
  · split
    · next relative _ => exact sameScan_decideOn htask h file relative.text
    · exact ⟨rfl, h⟩
  · exact ⟨rfl, h⟩

theorem alike_visitor (htask : SameTask task other) : Walk.Alike (visitor task) (visitor other) SameScan where
  list _ _ h := World.list_of_silent h.world
  isLink _ _ h := World.isLink_of_silent h.world
  followLinks := rfl
  visit path _ _ h := sameScan_visit htask h path
  log _ _ _ h := ⟨h.world, h.kept, h.pruned, h.skipped⟩
  onError := .some fun _ _ _ _ h => ⟨h.world, h.kept, h.pruned, congrArg (· + 1) h.skipped⟩

variable {world copied : World}

theorem sameOutcome_scanDump (htask : SameTask task other) (h : world.silent = copied.silent) :
    SameOutcome (scanDump task world) (scanDump other copied) := by
  obtain ⟨hresult, hscan⟩ := @Walk.Alike.run_eq _ _ _ _ _ _ (alike_visitor htask) other.classdump ⟨world, 0, 0, 0⟩
    ⟨copied, 0, 0, 0⟩ ⟨h, rfl, rfl, rfl⟩
  unfold scanDump
  rw [htask.classdump, htask.references, htask.dryRun]
  cases hrun : Walk.run (visitor task) other.classdump ⟨world, 0, 0, 0⟩ with
  | mk result scan =>
      cases hcopied : Walk.run (visitor other) other.classdump ⟨copied, 0, 0, 0⟩ with
      | mk answer copy =>
          rw [hrun, hcopied] at hresult hscan
          change result = answer at hresult
          subst hresult
          cases result with
          | error raised => exact ⟨rfl, hscan.world⟩
          | ok visited =>
              obtain ⟨isOpen, hopen⟩ := Progress.exists_open? htask.regular.1 scan.total
              obtain ⟨isOpenThere, hopenThere⟩ := Progress.exists_open? htask.regular.2 copy.total
              obtain ⟨hworld, hkept, hpruned, hskipped⟩ := sameScan_reported hscan isOpen isOpenThere
              dsimp only
              simp only [hopen, hopenThere, Listener.answer_mute]
              dsimp only [Scan.log]
              rw [hkept, hpruned, hskipped]
              exact ⟨rfl, hworld⟩

/-- A class dump is pruned alike, whatever was reported and whether progress is. -/
theorem sameOutcome_run (htask : SameTask task other) (h : world.silent = copied.silent) :
    SameOutcome (run task world) (run other copied) := by
  unfold run
  rw [isInside_of_silent h htask.classdump htask.exclusion, htask.exclusion, htask.classdump, htask.dryRun]
  split
  · exact ⟨rfl, h⟩
  · exact ⟨rfl, h⟩
  · split
    · exact sameOutcome_scanDump htask h
    · unfold prepare
      obtain ⟨answer, after, later, hafter, hlater, hsilent⟩ :=
        (Relocation.sameOutcome_createRoot h other.exclusion).exists_eq
      rw [htask.exclusion, hafter, hlater]
      cases answer with
      | ok done => exact sameOutcome_scanDump htask hsilent
      | error error => cases error <;> exact ⟨rfl, hsilent⟩

end Reconcile

namespace Pipeline

variable {world other : World} {settings others : Settings}

/-- The settings name the same files, with the same classpath, and both runs are dry or none is. -/
structure SameRun (settings others : Settings) : Prop where
  classdump : Path.ofText settings.classdump = Path.ofText others.classdump
  classpath : settings.classpath = others.classpath
  exclusion : Path.ofText settings.exclusion = Path.ofText others.exclusion
  dryRun : settings.dryRun = others.dryRun

theorem SameRun.refl (settings : Settings) : SameRun settings settings :=
  ⟨rfl, rfl, rfl, rfl⟩

theorem sameOutcome_resolveClasspath (hrun : SameRun settings others) (h : world.silent = other.silent) :
    SameOutcome (resolveClasspath settings world) (resolveClasspath others other) := by
  unfold resolveClasspath
  rw [hrun.classdump, hrun.classpath, World.isDir_of_silent h, Classpath.resolveEntries_of_silent h]
  dsimp only
  split
  · exact ⟨rfl, h⟩
  · exact ⟨rfl, h⟩
  · split
    · exact ⟨rfl, h⟩
    · next entries _ =>
      obtain ⟨answer, after, later, hafter, hlater, hsilent⟩ :=
        (Classpath.sameOutcome_resolveRoots h (entries.map .path)).exists_eq
      rw [hafter, hlater]
      cases answer <;> exact ⟨rfl, hsilent⟩

theorem sameOutcome_buildReferenceSet (entries : List Path) (roots : List Classpath.Root) (progress quiet : Bool)
    (h : world.silent = other.silent) :
    SameOutcome (buildReferenceSet entries roots progress world) (buildReferenceSet entries roots quiet other) := by
  obtain ⟨answer, lookup, after, later, hafter, hlater, hsilent⟩ := (Reference.sameAnswer_build
    (Reference.sameTask_referenceTask progress quiet) (roots.map (·.path)) (.along entries) h).exists_eq
  unfold buildReferenceSet
  rw [hafter, hlater]
  cases answer <;> exact ⟨rfl, hsilent⟩

theorem sameTask_pruneTask (hrun : SameRun settings others) (references : ReferenceSet) (progress quiet : Bool) :
    Reconcile.SameTask (pruneTask settings references progress) (pruneTask others references quiet) where
  classdump := hrun.classdump
  references := rfl
  exclusion := hrun.exclusion
  dryRun := hrun.dryRun
  regular := ⟨isRegular_pruneTask _ _ _, isRegular_pruneTask _ _ _⟩

/-- The pipeline answers the same and leaves the same files, whatever was reported and whether progress is. -/
theorem sameAnswer_execute (command : Command) (hrun : SameRun settings others) (progress quiet : Bool)
    (h : world.silent = other.silent) :
    SameAnswer (command.execute settings progress world) (command.execute others quiet other) := by
  have hstart : ∀ message, (world.log .info .pipeline message).silent = (other.log .info .pipeline message).silent :=
    fun _ => h
  unfold Command.execute
  rw [hrun.classdump]
  dsimp only
  obtain ⟨answer, after, later, hafter, hlater, hsilent⟩ := (sameOutcome_resolveClasspath hrun
    (hstart ("Pruning Jacoco classdump at: " ++ (Path.ofText others.classdump).text))).exists_eq
  rw [hafter, hlater]
  cases answer with
  | error failure => exact ⟨rfl, rfl, hsilent⟩
  | ok found =>
      obtain ⟨entries, roots⟩ := found
      obtain ⟨answer, after, later, hafter, hlater, hsilent⟩ :=
        (sameOutcome_buildReferenceSet entries roots progress quiet hsilent).exists_eq
      dsimp only
      rw [hafter, hlater]
      cases answer with
      | error failure => exact ⟨rfl, rfl, hsilent⟩
      | ok references =>
          obtain ⟨answer, after, later, hafter, hlater, hsilent⟩ := (Reconcile.sameOutcome_run
            (sameTask_pruneTask hrun references progress quiet) hsilent).exists_eq
          dsimp only
          rw [hafter, hlater]
          cases answer <;> exact ⟨rfl, rfl, hsilent⟩

end Pipeline
end ClassDump
