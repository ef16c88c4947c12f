import ClassDump.Proofs.CommandLine.Ending
import ClassDump.Proofs.Path.Written
import ClassDump.Proofs.Pipeline.Failure
import ClassDump.Proofs.Relocation.Effect

/-! A class dump that is named by blanks only. The settings refuse it before anything else, and so do the ways into the
pipeline that hand the text to the settings as it was written. The command line looks for the directory behind the text
first and hands over the path of that one: it refuses the text if there is none, but to it the empty text is the
working directory. -/

namespace ClassDump

variable {world : World} {text : String}

namespace Settings

theorem make_of_blank (h : Text.allBlank text = true) (world : World) (classpath : List String)
    (exclusion : Option String) (dryRun : Bool) :
    make world (some text) classpath exclusion dryRun = .error (.settings .noClassdump) :=
  if_pos h

theorem makeDelimited_of_blank (h : Text.allBlank text = true) (world : World) (separator classpath : String)
    (exclusion : Option String) (dryRun : Bool) :
    makeDelimited world (some text) separator classpath exclusion dryRun = .error .emptySeparator ∨
      makeDelimited world (some text) separator classpath exclusion dryRun = .error (.settings .noClassdump) := by
  rw [makeDelimited]
  cases hsplit : Classpath.splitBy separator classpath with
  | error failure =>
      refine .inl (congrArg Except.error ?_)
      rw [Classpath.splitBy] at hsplit
      split at hsplit
      · cases hsplit
      · split at hsplit
        · exact (Except.error.inj hsplit).symm
        · cases hsplit
  | ok entries => exact .inr (make_of_blank h world entries exclusion dryRun)

theorem ofProperties_of_blank (h : Text.allBlank text = true) (world : World)
    {properties : List (String × Option String)} (hproperty : properties.lookup classdumpProperty = some (some text)) :
    ∃ error, ofProperties world properties = .error (.configuration error) ∧
      (error = .propertyMissing classdumpProperty ∨ error = .propertyMissing classpathProperty ∨
        error = .settings .noClassdump) := by
  rw [ofProperties]
  split
  · exact ⟨_, rfl, .inl rfl⟩
  · exact ⟨_, rfl, .inr (.inl rfl)⟩
  · next classdump classpath hclassdump _ =>
    obtain rfl : text = classdump := by
      rw [property?, hproperty] at hclassdump
      dsimp only at hclassdump
      split at hclassdump
      · cases hclassdump
      · exact Option.some.inj hclassdump
    rw [make_of_blank h]
    exact ⟨_, rfl, .inr (.inr rfl)⟩

end Settings

namespace CommandLine

variable {arguments : Arguments}

/-- A class dump behind which no directory stands ends a run before it begins. -/
theorem exists_stop_of_not_isDir (hclassdump : arguments.classdump = .text text)
    (hnowhere : ∀ real, world.resolve (Path.ofText text) = .ok real → world.isDir real ≠ .ok true) :
    ∃ stop, (run arguments world).1 = .error stop := by
  have hcheck : ∃ stop after, checkClassdump arguments world = (.error stop, after) := by
    unfold checkClassdump
    rw [hclassdump]
    dsimp only
    split
    · exact ⟨_, _, rfl⟩
    · next real hreal =>
      split
      · exact ⟨_, _, rfl⟩
      · exact ⟨_, _, rfl⟩
      · exact ⟨_, _, rfl⟩
      · exact ⟨_, _, rfl⟩
      · next hdir => exact absurd hdir (hnowhere real hreal)
  obtain ⟨stop, after, hcheck⟩ := hcheck
  have hvalidate : ∃ stop after, validate arguments world = (.error stop, after) := by
    unfold validate
    split
    · exact ⟨_, _, rfl⟩
    · rw [hcheck]
      exact ⟨_, _, rfl⟩
  obtain ⟨stop, after, hvalidate⟩ := hvalidate
  rw [run, hvalidate]
  exact ⟨stop, rfl⟩

end CommandLine

/-- The empty text names the working directory. -/
theorem World.resolve_empty {there : Location} (hlegal : world.Legal) (hworking : world.workingDir = ⟨there, []⟩)
    (hshort : (Path.mk .root there).byteLength < pathMax) (hdir : world.root.HasDir there) :
    world.resolve (Path.ofText "") = .ok ⟨.root, there⟩ ∧ world.isDir ⟨.root, there⟩ = .ok true := by
  obtain ⟨entries, hentries⟩ := Node.hasDir_iff.mp hdir
  have hlegalNames : ∀ name ∈ there, LegalName name := hlegal.root there _ hdir
  have habsolute : world.absolute ⟨.here, []⟩ = .ok ⟨.root, there⟩ := by
    have hcurrent : world.currentDir = .ok there := by
      rw [World.currentDir, hworking]
      rfl
    have hup : ".." ∉ there := fun hmem => (hlegalNames _ hmem).isName.2.1 rfl
    rw [World.absolute, hcurrent]
    exact congrArg (fun names => Except.ok (Path.mk .root names))
      ((congrArg Path.collapse (List.append_nil there)).trans (Path.collapse_eq_self hup))
  have hstat : world.stat ⟨.root, there⟩ = .ok (.dir entries) := by
    have hreach : world.root.Reach 0 [] there ([] ++ there) :=
      Node.reach_names (fun name hname => (hlegalNames name hname).isName) hdir rfl
    have hleads : world.Leads 0 ⟨.root, there⟩ there := ⟨there, rfl, hreach⟩
    rw [World.stat_of_locateFrom (hleads.locateFrom hshort (Nat.zero_le _)), hentries]
  have hnul : (Path.mk .root there).hasNul = false :=
    @Path.hasNul_descend there ⟨.root, []⟩ rfl hlegalNames
  constructor
  · have hempty : Path.ofText "" = ⟨.here, []⟩ := rfl
    have hfound : RealPath.pursueNested world RealPath.nestingMax ⟨.here, []⟩ [] [] = ⟨⟨.here, []⟩, true, []⟩ := rfl
    have hrelative : ¬(Path.mk .here []).isAbsolute = true := by decide
    rw [hempty]
    unfold World.resolve
    rw [if_neg (by decide)]
    dsimp only
    rw [if_neg hrelative, hfound]
    dsimp only
    rw [habsolute]
    dsimp only
    rw [hstat]
  · exact World.ask_of_stat hnul hstat

namespace CommandLine

/-- On the command line, settings with an empty class dump are settings for the working directory. -/
theorem classdump_of_settingsOf_empty {arguments : Arguments} {there : Location} {settings : Settings}
    (hlegal : world.Legal) (hworking : world.workingDir = ⟨there, []⟩)
    (hshort : (Path.mk .root there).byteLength < pathMax) (hdir : world.root.HasDir there)
    (hempty : arguments.classdump = .text "") (h : settingsOf arguments world = .ok settings) :
    settings.classdump = (Path.mk .root there).text := by
  have hreal : realText world "" = .ok (Path.mk .root there).text := by
    rw [realText, (World.resolve_empty hlegal hworking hshort hdir).1]
  obtain ⟨text, real, exclusion, htext, hreal', hmake⟩ := exists_make_of_settingsOf h
  obtain rfl : text = "" := Given.text.inj (htext.symm.trans hempty)
  obtain rfl : (Path.mk .root there).text = real := Except.ok.inj (hreal.symm.trans hreal')
  obtain ⟨found, rfl⟩ := Settings.exists_eq_of_make hmake
  rfl

end CommandLine

/-- Blanks in the place of the class dump are refused, and nothing is changed, by the settings however they are made
and by the build step. The command line refuses them too if no directory stands behind them. -/
theorem refused_of_blank (hblank : Text.allBlank text = true) (world : World) :
    (∀ classpath exclusion dryRun,
      Settings.make world (some text) classpath exclusion dryRun = .error (.settings .noClassdump)) ∧
    (∀ separator classpath exclusion dryRun,
      Settings.makeDelimited world (some text) separator classpath exclusion dryRun = .error .emptySeparator ∨
        Settings.makeDelimited world (some text) separator classpath exclusion dryRun =
          .error (.settings .noClassdump)) ∧
    (∀ properties : List (String × Option String),
      properties.lookup Settings.classdumpProperty = some (some text) →
        (∃ error, (BuildStep.run properties world).1 = .error (.buildStep (.configuration error)) ∧
          (error = .propertyMissing Settings.classdumpProperty ∨
            error = .propertyMissing Settings.classpathProperty ∨ error = .settings .noClassdump)) ∧
          (BuildStep.run properties world).2.silent = world.silent) ∧
    ∀ texts arguments debug, CommandLine.Arguments.parse texts = .ok arguments → arguments.classdump = .text text →
      (∀ real, world.resolve (Path.ofText text) = .ok real → world.isDir real ≠ .ok true) →
        (CommandLine.program texts debug world).1 ≠ .exit 0 ∧
          (CommandLine.program texts debug world).2.silent = world.silent := by
  refine ⟨Settings.make_of_blank hblank world, Settings.makeDelimited_of_blank hblank world,
    fun properties hproperty => ?_, fun texts arguments debug hparse hclassdump hnowhere => ?_⟩
  · obtain ⟨error, hrefused, hcause⟩ := Settings.ofProperties_of_blank hblank world hproperty
    have hrun : (BuildStep.run properties world).1 = .error (.buildStep (.configuration error)) := by
      rw [BuildStep.run, BuildStep.attempt, hrefused]
    have hmute : ∀ given ∈ (none : Option Listener), ∀ cause, given.Raises Reconcile.stage cause →
        Failure.buildStep (.configuration error) ≠ cause ∧ Failure.buildStep (.configuration error) ≠ .buildStep cause :=
      fun given hgiven => absurd hgiven (Option.not_mem_none given)
    exact ⟨⟨error, hrun, hcause⟩, BuildStep.silent_run properties world none ⟨_, hrun, hmute⟩⟩
  · obtain ⟨stop, hstop⟩ := CommandLine.exists_stop_of_not_isDir hclassdump hnowhere
    have hexit : (CommandLine.program texts debug world).1 ≠ .exit 0 := by
      rw [CommandLine.program, hparse]
      intro hexit
      obtain ⟨stats, hstats⟩ := (CommandLine.conclude_run_eq_exit_zero_iff arguments world debug).mp hexit
      rw [hstop] at hstats
      cases hstats
    exact ⟨hexit, CommandLine.silent_program texts debug world _ (.inr ⟨hexit, fun _ _ _ => rfl⟩)⟩

/-- A working directory with a class in it, and a local class beside it. -/
def World.withClassHere : World where
  root := .dir
    [("classes", .dir [("K.class", .file [1])]), ("here", .dir [("p", .dir [("L.class", .file [2])])])]
  workingDir := ⟨["here"], []⟩
  home := "/"

/-- A class dump named by a single space is refused where nothing has that name. -/
theorem refused_withClassHere :
    let world := World.withClassHere
    let properties := [(Settings.classdumpProperty, some " "), (Settings.classpathProperty, some "../classes")]
    let texts := ["-c", "../classes", "-d", " ", "-e", "../aside"]
    Text.allBlank " " = true ∧
      Settings.make world (some " ") ["../classes"] none false = .error (.settings .noClassdump) ∧
      Settings.makeDelimited world (some " ") "," "../classes" none false = .error (.settings .noClassdump) ∧
      (BuildStep.run properties world).2.silent = world.silent ∧
      (CommandLine.program texts false world).1 = .exit 1 ∧
        (CommandLine.program texts false world).2.silent = world.silent := by
  intro world properties texts
  have hblank : Text.allBlank " " = true := by decide
  obtain ⟨hmake, hdelimited, hbuild, hprogram⟩ := refused_of_blank hblank world
  have hexit : (CommandLine.program texts false world).1 = .exit 1 := by decide +kernel
  have hsplit : Settings.makeDelimited world (some " ") "," "../classes" none false ≠ .error .emptySeparator := by
    decide +kernel
  have hnowhere : ∀ real, world.resolve (Path.ofText " ") = .ok real → world.isDir real ≠ .ok true := by
    have hreal : world.resolve (Path.ofText " ") = .ok ⟨.root, ["here", " "]⟩ := by decide +kernel
    intro real h
    rw [hreal] at h
    cases h
    decide +kernel
  have hparse : CommandLine.Arguments.parse texts =
      .ok { classdump := .text " ", classpath := [.text "../classes"], exclusion := some (.text "../aside") } := by
    decide +kernel
  exact ⟨hblank, hmake _ _ _, (hdelimited _ _ _ _).resolve_left hsplit, (hbuild properties rfl).2, hexit,
    (hprogram texts _ false hparse rfl hnowhere).2⟩

end ClassDump
