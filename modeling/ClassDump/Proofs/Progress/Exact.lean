import ClassDump.Proofs.Progress.Reconcile
import ClassDump.Proofs.Progress.Reference

/-! Both scans report their progress exactly: at every multiple of the interval up to the number of classes that they
count, and at that number itself. Nothing is reported for what they do not count. -/

namespace ClassDump

/-- A pruning that returns has reported the course of the classes that it kept and pruned, and a build that returns that
of the classes that it processed, which are the class files below the roots if the source of class bytes leaves the
files alone. What is no class file, a visit that fails and a failure that is handled neither count nor lead to a report.
The counts reported go up, and the last one is that of all classes. -/
theorem progress_exact {every : Nat} (hevery : 0 < every) :
    (∀ (task : Reconcile.Task) (world after : World) (stats : Stats), task.interval = some every →
      Reconcile.run task world = (.ok stats, after) →
        ∃ total : Nat, stats.kept + stats.pruned = total ∧
          after.progress = world.progress ++ Progress.course Reconcile.stage every total) ∧
    (∀ (ρ : Type) (task : Reference.Task ρ) (roots : List Path) (source left : ρ) (world after : World)
      (references : ReferenceSet), task.interval = some every → task.Unreported →
      Reference.build task roots source world = (.ok references, left, after) →
        ∃ scan, Reference.scanRoots task roots { world := world, source := source } = (.ok (), scan) ∧
          after.progress = world.progress ++ Progress.course Reference.stage every scan.processed ∧
          ((∀ source world resource, (task.read source world resource).2.2.silent = World.silent world) →
            scan.processed = (roots.flatMap (Reference.classesBelow world)).length)) ∧
    (∀ (task : Reconcile.Task) (file : Path) (scan : Reconcile.Scan), task.interval = some every →
      isClassFile file = false ∨ (∃ raised, (Reconcile.visit task file scan).1 = .error raised) →
        (Reconcile.visit task file scan).2.tally = scan.tally) ∧
    (∀ (path : Path) (error : OsError) (scan : Reconcile.Scan), (Reconcile.skip path error scan).tally = scan.tally) ∧
    (∀ (ρ : Type) (task : Reference.Task ρ) (root file : Path) (scan : Reference.Scan ρ), task.interval = some every →
      task.Unreported →
      isClassFile file = false ∨ (∃ raised, (Reference.visit task root file scan).1 = .error raised) →
        (Reference.visit task root file scan).2.tally = scan.tally) ∧
    ∀ (stage : String) (total : Nat),
      (∀ report, report ∈ Progress.course stage every total ↔
        ∃ count : Nat, 0 < count ∧ count ≤ total ∧ (every ∣ count ∨ count = total) ∧ report = ⟨stage, count, none⟩) ∧
      (Progress.course stage every total).Pairwise (·.current < ·.current) ∧
      (0 < total → (Progress.course stage every total).getLast? = some ⟨stage, total, none⟩) := by
  refine ⟨?pruning, ?build, ?visit, Reconcile.tally_skip, ?keying, ?course⟩
  case pruning =>
    intro task world after stats hinterval hrun
    exact Reconcile.progress_run hevery hinterval hrun
  case build =>
    intro ρ task roots source left world after references hinterval hread hbuild
    obtain ⟨scan, hscan, hprogress⟩ := Reference.progress_build hread hevery hinterval hbuild
    refine ⟨scan, hscan, hprogress, fun hfiles => ?_⟩
    have hprocessed := Reference.processed_scanRoots hread hevery hinterval hfiles roots rfl hscan
    rw [hprocessed, Nat.zero_add]
  case visit =>
    intro task file scan hinterval huncounted
    exact Reconcile.tally_visit hevery hinterval huncounted
  case keying =>
    intro ρ task root file scan hinterval hread huncounted
    exact Reference.tally_visit hread hevery hinterval huncounted
  case course =>
    intro stage total
    exact ⟨fun report => Progress.mem_course_iff hevery, Progress.pairwise_course hevery total,
      Progress.getLast?_course⟩

/-- A class dump with a directory that cannot be listed and a class that cannot be moved, and three local classes. -/
def withRefusals : World where
  root := .dir
    [("dump", .dir
      [("K.class", .file [1]),
        ("p", .dir
          [("L.class", .file [2]),
            ("q", .dir
              [("M.class", .file [3]),
                ("r", .dir [("N.class", .file [4]), ("s", .dir [("notes", .file []), ("closed", .dir [])])])])])]),
      ("local", .dir
        [("A.class", .file [1]),
          ("p", .dir
            [("notes", .file []), ("q", .dir [("B.class", .file [2]), ("r", .dir [("C.class", .file [3])])])])])]
  workingDir := ⟨[], []⟩
  home := "/"
  faults := { move := [("/dump/p/L.class", ⟨13⟩)], list := [("/dump/p/q/r/s/closed", ⟨13⟩)] }

def pruneInTwos : Reconcile.Task where
  classdump := ⟨.root, ["dump"]⟩
  references := .ofList ["K.class"]
  exclusion := ⟨.root, ["aside"]⟩
  interval := some 2

def keyInTwos : Reference.Task Classpath.Lookup :=
  { Pipeline.referenceTask true with interval := some 2 }

def localRoots : List Path :=
  [⟨.root, ["local"]⟩]

/-- Of the classes of the dump one is kept and two are moved, and all three local classes are keyed. -/
theorem progress_exact_withRefusals :
    (∃ stats after, Reconcile.run pruneInTwos withRefusals = (.ok stats, after) ∧
      stats = { kept := 1, pruned := 2, skipped := 2, referenceSize := 1 } ∧
      after.progress = [⟨"reconcile", 2, none⟩, ⟨"reconcile", 3, none⟩]) ∧
    ∃ references left after,
      Reference.build keyInTwos localRoots (.along localRoots) withRefusals = (.ok references, left, after) ∧
      after.progress = [⟨"reference", 2, none⟩, ⟨"reference", 3, none⟩] := by
  obtain ⟨hpruning, hbuild, -⟩ := @progress_exact 2 (by decide)
  have hread : ∀ source world resource, World.Logged world (keyInTwos.read source world resource).2.2 :=
    Classpath.Lookup.logged_readResource
  constructor
  · have hstats : (Reconcile.run pruneInTwos withRefusals).1 =
        .ok { kept := 1, pruned := 2, skipped := 2, referenceSize := 1 } := by
      decide +kernel
    generalize hafter : (Reconcile.run pruneInTwos withRefusals).2 = after
    have hrun : Reconcile.run pruneInTwos withRefusals =
        (.ok { kept := 1, pruned := 2, skipped := 2, referenceSize := 1 }, after) := Prod.ext hstats hafter
    obtain ⟨total, htotal, hprogress⟩ := hpruning _ _ _ _ rfl hrun
    obtain rfl : total = 3 := Int.ofNat_inj.mp htotal.symm
    exact ⟨_, after, hrun, rfl, hprogress.trans (by decide)⟩
  · have hok : (Reference.build keyInTwos localRoots (.along localRoots) withRefusals).1.isOk = true := by
      decide +kernel
    cases hresult : Reference.build keyInTwos localRoots (.along localRoots) withRefusals with
    | mk outcome rest =>
        obtain ⟨left, after⟩ := rest
        cases outcome with
        | error failure =>
            rw [hresult] at hok
            cases hok
        | ok references =>
            obtain ⟨scan, -, hprogress, hprocessed⟩ := hbuild _ _ _ _ _ _ _ _ rfl
              (Reference.unreported_of_logged hread) hresult
            have hclasses : (localRoots.flatMap (Reference.classesBelow withRefusals)).length = 3 := by
              decide +kernel
            rw [hprocessed fun source world resource => (hread source world resource).silent, hclasses] at hprogress
            exact ⟨references, left, after, rfl, hprogress.trans (by decide)⟩

end ClassDump
