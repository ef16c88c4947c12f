import ClassDump.Proofs.Classpath.Resolved
import ClassDump.Proofs.Pipeline.Blank
import ClassDump.Proofs.Pipeline.Outcome
import ClassDump.Proofs.Reconcile.Conservation

/-! The command line and the build step are two ways into one pipeline. Each check that the command line makes on its
own rejects only what the pipeline would reject, so that with the same files named, by paths that are resolved already,
both leave the same files, and where one comes to its numbers so does the other, to the same ones. -/

namespace ClassDump

variable {world other : World}

namespace Settings

def propertiesOf (classdump classpath exclusion : String) : List (String × Option String) :=
  [(classdumpProperty, some classdump), (classpathProperty, some classpath), (exclusionProperty, some exclusion)]

theorem make_eq {classdump : String} {classpath : List String} (hsaid : Text.allBlank classdump = false)
    (hentries : classpath ≠ []) (world : World) (exclusion : String) (dryRun : Bool) :
    make world (some classdump) classpath (some exclusion) dryRun = .ok ⟨classdump, classpath, exclusion, dryRun⟩ := by
  have hempty : classpath.isEmpty = false := by simpa using hentries
  unfold make
  dsimp only
  rw [Option.getD_some, hsaid, hempty]
  rfl

theorem make_of_no_entries {classdump : String} (hsaid : Text.allBlank classdump = false) (world : World)
    (exclusion : Option String) (dryRun : Bool) :
    make world (some classdump) [] exclusion dryRun = .error (.settings .noClasspath) := by
  unfold make
  dsimp only
  rw [Option.getD_some, hsaid]
  rfl

theorem ofProperties_propertiesOf {classdump classpath exclusion : String}
    (hclassdump : Text.allBlank classdump = false) (hexclusion : exclusion ≠ "")
    (hentries : Classpath.split classpath ≠ []) (world : World) :
    ofProperties world (propertiesOf classdump classpath exclusion) =
      .ok ⟨classdump, Classpath.split classpath, exclusion, false⟩ := by
  have hproperty : ∀ name value, value ≠ "" →
      (propertiesOf classdump classpath exclusion).lookup name = some (some value) →
        property? (propertiesOf classdump classpath exclusion) name = some value := by
    intro name value hvalue hlookup
    rw [property?, hlookup]
    exact if_neg hvalue
  have hnamed : classdump ≠ "" := by
    rintro rfl
    cases hclassdump
  have hpath : classpath ≠ "" := by
    rintro rfl
    exact hentries rfl
  unfold ofProperties
  rw [hproperty classdumpProperty classdump hnamed rfl, hproperty classpathProperty classpath hpath rfl,
    hproperty exclusionProperty exclusion hexclusion rfl]
  dsimp only
  rw [make_eq hclassdump hentries]

theorem ofProperties_of_no_entries {classdump classpath exclusion : String}
    (hclassdump : Text.allBlank classdump = false) (hentries : Classpath.split classpath = []) (world : World) :
    ∃ failure, ofProperties world (propertiesOf classdump classpath exclusion) = .error failure := by
  unfold ofProperties
  split
  · exact ⟨_, rfl⟩
  · exact ⟨_, rfl⟩
  · next found path hfound hpath =>
    have hvalue : ∀ name value expected, property? (propertiesOf classdump classpath exclusion) name = some value →
        (propertiesOf classdump classpath exclusion).lookup name = some (some expected) → value = expected := by
      intro name value expected hproperty hlookup
      rw [property?, hlookup] at hproperty
      dsimp only at hproperty
      split at hproperty
      · cases hproperty
      · exact (Option.some.inj hproperty).symm
    obtain rfl := hvalue _ _ classdump hfound rfl
    obtain rfl := hvalue _ _ classpath hpath rfl
    rw [hentries, make_of_no_entries hclassdump]
    exact ⟨_, rfl⟩

end Settings

namespace Pipeline

variable {settings : Settings}

theorem exists_isDir_of_resolveClasspath {resolved : List Path × List Classpath.Root} {after : World}
    (hitems : ∀ item ∈ settings.classpath, (Path.ofText item).IsResolved)
    (h : resolveClasspath settings world = (.ok resolved, after)) :
    ∀ item ∈ settings.classpath, ∃ isDir, world.isDir (Path.ofText item) = .ok isDir := by
  unfold resolveClasspath at h
  dsimp only at h
  split at h
  · cases h
  · cases h
  · split at h
    · cases h
    · next entries hentries =>
      obtain rfl := Classpath.eq_of_resolveEntries_texts hitems hentries
      have hresolved : ∀ entry ∈ settings.classpath.map Path.ofText, entry.IsResolved := by
        simpa using hitems
      unfold Classpath.resolveRoots at h
      split at h
      · cases h
      · next heq =>
        split at heq
        · cases heq
        · next paths hpaths =>
          obtain rfl := Classpath.eq_of_resolveEntries_paths hresolved hpaths
          split at heq
          · cases heq
          · next hroots =>
            have hasked := (Classpath.eq_of_rootsFrom (congrArg Prod.fst hroots)).1
            simpa using hasked

/-- A run that comes to its numbers found a class dump, could ask about every entry and found no exclusion directory. -/
theorem checks_of_execute {command : Command} {progress : Bool} {stats : Stats} (hdry : settings.dryRun = false)
    (hitems : ∀ item ∈ settings.classpath, (Path.ofText item).IsResolved)
    (h : (command.execute settings progress world).1 = .ok stats) :
    world.isDir (Path.ofText settings.classdump) = .ok true ∧
      (∀ item ∈ settings.classpath, ∃ isDir, world.isDir (Path.ofText item) = .ok isDir) ∧
      world.pathExists (Path.ofText settings.exclusion) = .ok false := by
  have hstages := execute_stages command settings progress world
  generalize command.execute settings progress world = ended at h hstages
  cases hstages with
  | unresolved | unbuilt | unpruned => cases h
  | pruned hresolved hbuild hbuilt hrun =>
      obtain ⟨start, hstart, hresolve⟩ := hresolved.exists_start
      have hasked := exists_isDir_of_resolveClasspath hitems hresolve
      rw [World.isDir_of_silent hstart] at hasked
      obtain ⟨-, prepared, hprepare, -⟩ := @Reconcile.exists_scan_of_run (pruneTask settings _ progress) _ _ _ hdry hrun
      obtain ⟨above, hmakable, -⟩ := Reconcile.exists_makable_of_prepare hprepare
      exact ⟨hresolved.isDir_classdump, hasked,
        (hmakable.of_silent hbuilt.symm).pathExists_eq (Path.isNormal_ofText settings.exclusion)⟩

end Pipeline

namespace CommandLine

def argumentsOf (classdump classpath exclusion : String) : Arguments :=
  { classdump := .text classdump, classpath := [.text classpath], exclusion := some (.text exclusion) }

variable {arguments : Arguments}

theorem settingsOf_of_silent (h : world.silent = other.silent) :
    settingsOf arguments world = settingsOf arguments other := by
  have hreal : realText world = realText other := by
    funext text
    rw [realText, realText, World.resolve_of_silent h]
  have hmake : Settings.make world = Settings.make other := by
    funext classdump classpath exclusion dryRun
    rw [Settings.make.eq_def, Settings.make.eq_def]
    simp only [Settings.defaultExclusion, World.absolute_of_silent h]
  rw [settingsOf, settingsOf, hreal, hmake]

theorem exists_checkEntries (quiet : Bool) {entries : List String}
    (h : ∀ entry ∈ entries, ∃ isDir, world.isDir (Path.ofText entry) = .ok isDir) :
    ∃ after, checkEntries quiet entries world = (.ok (), after) := by
  induction entries generalizing world with
  | nil => exact ⟨world, rfl⟩
  | cons entry rest ih =>
      obtain ⟨⟨isDir, hisDir⟩, hrest⟩ := List.forall_mem_cons.mp h
      obtain ⟨isThere, hisThere⟩ := World.exists_ask hisDir fun _ => true
      have hentry : ∃ after, checkEntry quiet entry world = (.ok (), after) ∧ after.silent = world.silent := by
        unfold checkEntry
        dsimp only
        rw [show world.pathExists (Path.ofText entry) = .ok isThere from hisThere, hisDir]
        cases isThere with
        | false => exact ⟨_, rfl, silent_warn _ _ _⟩
        | true =>
            cases isDir with
            | false => exact ⟨_, rfl, silent_warn _ _ _⟩
            | true => exact ⟨_, rfl, rfl⟩
      obtain ⟨after, hafter, hsilent⟩ := hentry
      rw [checkEntries, hafter]
      refine ih fun item hitem => ?_
      rw [World.isDir_of_silent hsilent]
      exact hrest item hitem

theorem validate_eq_ok {text exclusion : String} (hquiet : arguments.quiet = false)
    (hclassdump : arguments.classdump = .text text) (hexclusion : arguments.exclusion? = some exclusion)
    (hreal : world.resolve (Path.ofText text) = .ok (Path.ofText text))
    (hdir : world.isDir (Path.ofText text) = .ok true)
    (hasked : ∀ entry ∈ arguments.entries, ∃ isDir, world.isDir (Path.ofText entry) = .ok isDir)
    (hfree : world.pathExists (Path.ofText exclusion) = .ok false) : (validate arguments world).1 = .ok () := by
  have hthere : world.pathExists (Path.ofText text) = .ok true := by
    obtain ⟨hnul, node, hnode, -⟩ := World.ask_eq_true hdir
    exact World.ask_of_stat hnul hnode
  obtain ⟨after, hentries⟩ := exists_checkEntries arguments.quiet hasked
  have hclassdump' : checkClassdump arguments world = (.ok (), world) := by
    unfold checkClassdump
    rw [hclassdump]
    dsimp only
    rw [hreal]
    dsimp only
    rw [hthere, hdir]
  have hexclusion' : checkExclusion arguments world = (.ok (), world) := by
    unfold checkExclusion
    rw [hexclusion]
    dsimp only
    rw [hfree]
  unfold validate
  rw [hclassdump', hquiet]
  simp only [Bool.false_and, Bool.false_eq_true, if_false, hexclusion']
  rw [hquiet] at hentries
  rw [hentries]

theorem configure_eq_ok {settings : Settings} {valid : World} (hvalid : valid.silent = world.silent)
    (hsettings : settingsOf arguments world = .ok settings) : configure arguments valid = (.ok settings, valid) := by
  rw [configure, settingsOf_of_silent hvalid, hsettings]

section Execute

variable {settings : Settings} {verbose : Bool}

theorem exists_prune_of_error (hsilent : world.silent = other.silent) {failure : Failure}
    (h : (({} : Pipeline.Command).execute settings verbose other).1 = .error failure) :
    ∃ stop after, prune settings verbose world = (.error stop, after) := by
  obtain ⟨answer, command, after, later, hafter, hlater, -⟩ :=
    (Pipeline.sameAnswer_execute {} (Pipeline.SameRun.refl settings) verbose verbose hsilent).exists_eq
  rw [hlater] at h
  obtain rfl : answer = .error failure := h
  unfold prune
  rw [Cancel.listener_never, hafter]
  dsimp only
  cases failure.isPipeline <;> exact ⟨_, _, rfl⟩

theorem exists_prune_of_ok (hsilent : world.silent = other.silent) {stats : Stats}
    (h : (({} : Pipeline.Command).execute settings verbose other).1 = .ok stats) :
    ∃ after, prune settings verbose world = (.ok stats, after) ∧
      after.silent = (({} : Pipeline.Command).execute settings verbose other).2.2.silent := by
  obtain ⟨answer, command, after, later, hafter, hlater, hsame⟩ :=
    (Pipeline.sameAnswer_execute {} (Pipeline.SameRun.refl settings) verbose verbose hsilent).exists_eq
  rw [hlater] at h ⊢
  obtain rfl : answer = .ok stats := h
  unfold prune
  rw [Cancel.listener_never, hafter]
  refine ⟨_, rfl, ?_⟩
  cases verbose <;> exact hsame

variable (hverbose : arguments.verbose = verbose) (hsettings : settingsOf arguments world = .ok settings)
include hverbose hsettings

/-- A run of which the pipeline fails does not come to its numbers. -/
theorem exists_stop_of_execute {failure : Failure}
    (h : (({} : Pipeline.Command).execute settings verbose world).1 = .error failure) :
    ∃ stop, (run arguments world).1 = .error stop := by
  subst hverbose
  have hstages := run_stages arguments world
  generalize run arguments world = ended at hstages ⊢
  cases hstages with
  | invalid | unsettled | unpruned => exact ⟨_, rfl⟩
  | pruned hvalidate hvalid hconfigure htitled hprune =>
      rw [configure_eq_ok hvalid hsettings] at hconfigure
      cases hconfigure
      obtain ⟨stop, after, hstop⟩ := exists_prune_of_error htitled h
      cases hprune.symm.trans hstop

/-- With valid arguments, a run comes to the numbers of the pipeline and leaves the same files. -/
theorem run_of_execute (hvalid : (validate arguments world).1 = .ok ()) {stats : Stats}
    (h : (({} : Pipeline.Command).execute settings verbose world).1 = .ok stats) :
    (run arguments world).1 = .ok stats ∧
      (run arguments world).2.silent = (({} : Pipeline.Command).execute settings verbose world).2.2.silent := by
  subst hverbose
  have hstages := run_stages arguments world
  generalize run arguments world = ended at hstages ⊢
  cases hstages with
  | invalid hvalidate =>
      rw [hvalidate] at hvalid
      cases hvalid
  | unsettled hvalidate hsilent hconfigure =>
      cases (configure_eq_ok hsilent hsettings).symm.trans hconfigure
  | unpruned hvalidate hsilent hconfigure htitled hprune =>
      cases (configure_eq_ok hsilent hsettings).symm.trans hconfigure
      obtain ⟨after, hcontra, -⟩ := exists_prune_of_ok htitled h
      cases hprune.symm.trans hcontra
  | pruned hvalidate hsilent hconfigure htitled hprune htold =>
      cases (configure_eq_ok hsilent hsettings).symm.trans hconfigure
      obtain ⟨after, hpruned, hafter⟩ := exists_prune_of_ok htitled h
      cases hprune.symm.trans hpruned
      exact ⟨rfl, htold.trans hafter⟩

end Execute

theorem run_of_unsettled {failure : Failure} (h : settingsOf arguments world = .error failure) :
    ∃ stop, (run arguments world).1 = .error stop := by
  have hunsettled : ∀ {valid configured : World} {settings : Settings}, valid.silent = world.silent →
      configure arguments valid ≠ (.ok settings, configured) := by
    intro valid configured settings hvalid hconfigure
    rw [configure, settingsOf_of_silent hvalid, h] at hconfigure
    dsimp only at hconfigure
    split at hconfigure <;> cases hconfigure
  have hstages := run_stages arguments world
  generalize run arguments world = ended at hstages ⊢
  cases hstages with
  | invalid | unsettled => exact ⟨_, rfl⟩
  | unpruned _ hvalid hconfigure => exact absurd hconfigure (hunsettled hvalid)
  | pruned _ hvalid hconfigure => exact absurd hconfigure (hunsettled hvalid)

theorem entries_argumentsOf (classdump classpath exclusion : String) :
    (argumentsOf classdump classpath exclusion).entries = Classpath.split classpath :=
  List.append_nil _

theorem exclusion?_argumentsOf {classdump classpath exclusion : String} (h : exclusion ≠ "") :
    (argumentsOf classdump classpath exclusion).exclusion? = some exclusion := by
  simp [argumentsOf, Arguments.exclusion?, Given.text?, h]

theorem settingsOf_argumentsOf {classdump classpath exclusion : String} {real realExclusion : Path}
    (hclassdump : world.resolve (Path.ofText classdump) = .ok real)
    (hexclusion : world.resolve (Path.ofText exclusion) = .ok realExclusion) (hnamed : exclusion ≠ "") :
    settingsOf (argumentsOf classdump classpath exclusion) world =
      Settings.make world (some real.text) (Classpath.split classpath) (some realExclusion.text) false := by
  unfold settingsOf
  rw [entries_argumentsOf, exclusion?_argumentsOf hnamed]
  change (do
    let classdump ← realText world classdump
    let exclusion ← (some exclusion).mapM (realText world)
    Settings.make world (some classdump) (Classpath.split classpath) exclusion false) = _
  simp only [Option.mapM_some, realText, hclassdump, hexclusion, bind, Except.bind, Functor.map, Except.map]

theorem silent_conclude (debug : Bool) (result : Step Stats) :
    (conclude debug result).2.silent = result.2.silent := by
  rw [conclude.eq_def]
  split
  · rfl
  · rfl
  · rfl
  · split <;> rfl

end CommandLine

theorem BuildStep.exists_failure_of_attempt {properties : List (String × Option String)} {cause : Failure}
    (h : (attempt properties world).1 = .error cause) : ∃ failure, (run properties world).1 = .error failure := by
  rw [run]
  split
  · exact ⟨_, rfl⟩
  · exact ⟨_, rfl⟩
  · next heq =>
    rw [heq] at h
    cases h

/-- A step whose settings are sound ends as the pipeline does. -/
theorem BuildStep.run_of_settings {properties : List (String × Option String)} {settings : Settings}
    (h : Settings.ofProperties world properties = .ok settings) :
    (∃ cause failure, (({} : Pipeline.Command).execute settings false world).1 = .error cause ∧
        (run properties world).1 = .error failure) ∨
      ∃ stats, (({} : Pipeline.Command).execute settings false world).1 = .ok stats ∧
        (run properties world).1 = .ok stats ∧
        (run properties world).2.silent = (({} : Pipeline.Command).execute settings false world).2.2.silent := by
  have hattempt : attempt properties world =
      ((({} : Pipeline.Command).execute settings false world).1,
        (({} : Pipeline.Command).execute settings false world).2.2) := by
    unfold attempt
    rw [h]
    rfl
  cases hexecute : (({} : Pipeline.Command).execute settings false world).1 with
  | error cause =>
      obtain ⟨failure, hfailure⟩ := exists_failure_of_attempt ((congrArg Prod.fst hattempt).trans hexecute)
      exact .inl ⟨cause, failure, rfl, hfailure⟩
  | ok stats =>
      rw [hexecute] at hattempt
      refine .inr ⟨stats, rfl, ?_⟩
      rw [run, hattempt]
      exact ⟨rfl, rfl⟩

section Adapters

variable {classdump classpath exclusion : String}

/-- Both ways into the pipeline fail, or both come to the same numbers and leave the same files. -/
theorem adapters_cases (hclassdump : world.resolve (Path.ofText classdump) = .ok (Path.ofText classdump))
    (hexclusion : world.resolve (Path.ofText exclusion) = .ok (Path.ofText exclusion))
    (hitems : ∀ item ∈ Classpath.split classpath, (Path.ofText item).IsResolved) :
    (∃ stop failure,
      (CommandLine.run (CommandLine.argumentsOf classdump classpath exclusion) world).1 = .error stop ∧
        (BuildStep.run (Settings.propertiesOf classdump classpath exclusion) world).1 = .error failure) ∨
      ∃ stats, (CommandLine.run (CommandLine.argumentsOf classdump classpath exclusion) world).1 = .ok stats ∧
        (BuildStep.run (Settings.propertiesOf classdump classpath exclusion) world).1 = .ok stats ∧
        (CommandLine.run (CommandLine.argumentsOf classdump classpath exclusion) world).2.silent =
          (BuildStep.run (Settings.propertiesOf classdump classpath exclusion) world).2.silent := by
  have hdump := World.isResolved_of_resolve (Path.isNormal_ofText classdump) hclassdump
  have hexcl := World.isResolved_of_resolve (Path.isNormal_ofText exclusion) hexclusion
  obtain ⟨rest, hslash⟩ := Path.exists_eq_slash_of_ofText hdump.isAbsolute
  obtain ⟨more, hslash'⟩ := Path.exists_eq_slash_of_ofText hexcl.isAbsolute
  have hnamed : exclusion ≠ "" := by
    rintro rfl
    cases hslash'
  have hsettings := @CommandLine.settingsOf_argumentsOf world _ classpath _ _ _ hclassdump hexclusion hnamed
  have hsaid := Path.allBlank_of_slash hslash
  by_cases hentries : Classpath.split classpath = []
  · rw [hentries, Settings.make_of_no_entries (Path.allBlank_text hdump.isAbsolute)] at hsettings
    obtain ⟨stop, hstop⟩ := CommandLine.run_of_unsettled hsettings
    obtain ⟨failure, hfailure⟩ := @Settings.ofProperties_of_no_entries _ _ exclusion hsaid hentries world
    refine .inl ⟨stop, ?_⟩
    have hattempt : (BuildStep.attempt (Settings.propertiesOf classdump classpath exclusion) world).1 =
        .error failure := by
      rw [BuildStep.attempt, hfailure]
    obtain ⟨shown, hshown⟩ := BuildStep.exists_failure_of_attempt hattempt
    exact ⟨shown, hstop, hshown⟩
  · rw [Settings.make_eq (Path.allBlank_text hdump.isAbsolute) hentries] at hsettings
    have hproperties := @Settings.ofProperties_propertiesOf _ _ exclusion hsaid hnamed hentries world
    have hsame : Pipeline.SameRun
        ⟨(Path.ofText classdump).text, Classpath.split classpath, (Path.ofText exclusion).text, false⟩
        ⟨classdump, Classpath.split classpath, exclusion, false⟩ :=
      ⟨Path.ofText_text hdump.isNormal hdump.isAbsolute, rfl, Path.ofText_text hexcl.isNormal hexcl.isAbsolute, rfl⟩
    obtain ⟨hanswer, -, hfiles⟩ :=
      Pipeline.sameAnswer_execute {} hsame false false (rfl : world.silent = world.silent)
    have hquiet : (CommandLine.argumentsOf classdump classpath exclusion).verbose = false := rfl
    rcases BuildStep.run_of_settings hproperties with ⟨cause, failure, hexecute, hstep⟩ |
      ⟨stats, hexecute, hstep, hleft⟩
    · obtain ⟨stop, hstop⟩ := CommandLine.exists_stop_of_execute hquiet hsettings (hanswer.trans hexecute)
      exact .inl ⟨stop, _, hstop, hstep⟩
    · have hdone := hanswer.trans hexecute
      obtain ⟨hdir, hasked, hfree⟩ := Pipeline.checks_of_execute rfl hitems hexecute
      have hvalid :
          (CommandLine.validate (CommandLine.argumentsOf classdump classpath exclusion) world).1 = .ok () := by
        refine CommandLine.validate_eq_ok rfl rfl (CommandLine.exclusion?_argumentsOf hnamed) hclassdump hdir ?_ hfree
        rw [CommandLine.entries_argumentsOf]
        exact hasked
      obtain ⟨hrun, hafter⟩ := CommandLine.run_of_execute hquiet hsettings hvalid hdone
      refine .inr ⟨stats, hrun, hstep, ?_⟩
      calc _ = _ := hafter
        _ = _ := hfiles
        _ = _ := hleft.symm

/-- The command line and the build step are the same pipeline. With the same files named, by paths that are resolved
already, they leave the same files; the command line exits with zero exactly if the build step comes to its numbers, and
then both come to the same ones. -/
theorem adapters_agree (hclassdump : world.resolve (Path.ofText classdump) = .ok (Path.ofText classdump))
    (hexclusion : world.resolve (Path.ofText exclusion) = .ok (Path.ofText exclusion))
    (hitems : ∀ item ∈ Classpath.split classpath, (Path.ofText item).IsResolved) (debug : Bool) :
    let line := CommandLine.run (CommandLine.argumentsOf classdump classpath exclusion) world
    let step := BuildStep.run (Settings.propertiesOf classdump classpath exclusion) world
    (CommandLine.conclude debug line).2.silent = step.2.silent ∧
      ((CommandLine.conclude debug line).1 = .exit 0 ↔ ∃ stats, step.1 = .ok stats) ∧
      ∀ stats, line.1 = .ok stats ↔ step.1 = .ok stats := by
  intro line step
  have hexit : (CommandLine.conclude debug line).1 = .exit 0 ↔ ∃ stats, line.1 = .ok stats :=
    CommandLine.conclude_run_eq_exit_zero_iff _ world debug
  rw [CommandLine.silent_conclude, hexit]
  rcases adapters_cases hclassdump hexclusion hitems with ⟨stop, failure, hline, hstep⟩ | ⟨stats, hline, hstep, hfiles⟩
  · have hleft := CommandLine.silent_run (CommandLine.argumentsOf classdump classpath exclusion) world (fun _ => false)
      (.inr ⟨stop, hline, fun _ _ _ => rfl⟩)
    have hkept := BuildStep.silent_run _ world none ⟨failure, hstep, nofun⟩
    have hnone : ∀ stats, line.1 ≠ .ok stats := fun stats h => by cases hline.symm.trans h
    have hnone' : ∀ stats, step.1 ≠ .ok stats := fun stats h => by cases hstep.symm.trans h
    refine ⟨hleft.trans hkept.symm, ?_, fun stats => iff_of_false (hnone stats) (hnone' stats)⟩
    exact iff_of_false (fun ⟨stats, h⟩ => hnone stats h) fun ⟨stats, h⟩ => hnone' stats h
  · have hline' : line.1 = .ok stats := hline
    have hstep' : step.1 = .ok stats := hstep
    refine ⟨hfiles, ⟨fun _ => ⟨stats, hstep'⟩, fun _ => ⟨stats, hline'⟩⟩, fun other => ?_⟩
    rw [hline', hstep', Except.ok.injEq, Except.ok.injEq]

end Adapters

/-- Both ways into the pipeline set aside the class of a directory beside the local classes. -/
theorem adapters_agree_withClassHere :
    let world := World.withClassHere
    let line := CommandLine.run (CommandLine.argumentsOf "/here" "/classes" "/aside") world
    let step := BuildStep.run (Settings.propertiesOf "/here" "/classes" "/aside") world
    world.resolve (Path.ofText "/here") = .ok (Path.ofText "/here") ∧
      world.resolve (Path.ofText "/aside") = .ok (Path.ofText "/aside") ∧
      (∀ item ∈ Classpath.split "/classes", (Path.ofText item).IsResolved) ∧
      (CommandLine.conclude false line).2.silent = step.2.silent ∧
      (CommandLine.conclude false line).1 = .exit 0 ∧ ∃ stats, line.1 = .ok stats ∧ step.1 = .ok stats := by
  intro world line step
  have hclassdump : world.resolve (Path.ofText "/here") = .ok (Path.ofText "/here") := by decide +kernel
  have hexclusion : world.resolve (Path.ofText "/aside") = .ok (Path.ofText "/aside") := by decide +kernel
  have hitems : ∀ item ∈ Classpath.split "/classes", (Path.ofText item).IsResolved := by
    have hsplit : Classpath.split "/classes" = ["/classes"] := by decide +kernel
    intro item hitem
    rw [hsplit] at hitem
    rw [List.mem_singleton.mp hitem]
    exact ⟨by decide +kernel, Path.isNormal_ofText _, by decide +kernel⟩
  have hexit : (CommandLine.conclude false line).1 = .exit 0 := by decide +kernel
  obtain ⟨hfiles, hends, hsame⟩ := adapters_agree hclassdump hexclusion hitems false
  obtain ⟨stats, hstats⟩ := hends.mp hexit
  exact ⟨hclassdump, hexclusion, hitems, hfiles, hexit, stats, (hsame stats).mpr hstats, hstats⟩

end ClassDump
