import ClassDump.Proofs.Pipeline.Adapters

/-! How much is said changes nothing else. Two runs that are asked for the same, the one quietly and the other at length,
make the same checks in the same order; what they print, and the progress that only one of them notes, is all that tells
them apart. -/

namespace ClassDump.CommandLine

variable {arguments others : Arguments} {world other : World}

/-- The arguments ask for the same and differ at most in how much is to be said, in a way that makes sense in both. -/
structure SameRequest (arguments others : Arguments) : Prop where
  classdump : arguments.classdump = others.classdump
  classpath : arguments.classpath = others.classpath
  exclusion : arguments.exclusion = others.exclusion
  dryRun : arguments.dryRun = others.dryRun
  sensible : ¬(arguments.quiet ∧ arguments.verbose) ∧ ¬(others.quiet ∧ others.verbose)

namespace SameRequest

variable (hsame : SameRequest arguments others)
include hsame

theorem entries_eq : arguments.entries = others.entries := by
  rw [Arguments.entries, hsame.classpath, Arguments.entries]

theorem exclusion?_eq : arguments.exclusion? = others.exclusion? := by
  rw [Arguments.exclusion?, hsame.exclusion, Arguments.exclusion?]

theorem settingsOf_eq : settingsOf arguments = settingsOf others := by
  funext world
  rw [settingsOf, settingsOf, hsame.classdump, hsame.entries_eq, hsame.exclusion?_eq, hsame.dryRun]

end SameRequest

theorem sameOutcome_refuse {α : Type} (h : world.silent = other.silent) (text : String) :
    SameOutcome (refuse (α := α) text world) (refuse text other) :=
  ⟨rfl, h⟩

theorem silent_warn_eq (h : world.silent = other.silent) (quiet loud : Bool) (text : String) :
    (warn quiet text world).silent = (warn loud text other).silent :=
  calc (warn quiet text world).silent = world.silent := silent_warn quiet text world
    _ = other.silent := h
    _ = (warn loud text other).silent := (silent_warn loud text other).symm

section Checks

variable (h : world.silent = other.silent)
include h

theorem sameOutcome_checkEntry (quiet loud : Bool) (entry : String) :
    SameOutcome (checkEntry quiet entry world) (checkEntry loud entry other) := by
  unfold checkEntry
  rw [World.pathExists_of_silent h, World.isDir_of_silent h]
  dsimp only
  split
  · exact ⟨rfl, h⟩
  · exact ⟨rfl, silent_warn_eq h quiet loud _⟩
  · exact ⟨rfl, h⟩
  · exact ⟨rfl, silent_warn_eq h quiet loud _⟩
  · exact ⟨rfl, h⟩

theorem sameOutcome_checkEntries (quiet loud : Bool) (entries : List String) :
    SameOutcome (checkEntries quiet entries world) (checkEntries loud entries other) := by
  induction entries generalizing world other with
  | nil => exact ⟨rfl, h⟩
  | cons entry rest ih =>
      obtain ⟨answer, after, later, hafter, hlater, hsilent⟩ := (sameOutcome_checkEntry h quiet loud entry).exists_eq
      rw [checkEntries, checkEntries, hafter, hlater]
      cases answer with
      | ok done => exact ih hsilent
      | error stop => exact ⟨rfl, hsilent⟩

theorem sameOutcome_checkClassdump (hclassdump : arguments.classdump = others.classdump) :
    SameOutcome (checkClassdump arguments world) (checkClassdump others other) := by
  unfold checkClassdump
  rw [hclassdump, World.resolve_of_silent h, World.pathExists_of_silent h, World.isDir_of_silent h]
  split
  · exact ⟨rfl, h⟩
  · split
    · exact ⟨rfl, h⟩
    · split <;> exact ⟨rfl, h⟩

theorem sameOutcome_checkExclusion (hexclusion : arguments.exclusion? = others.exclusion?) :
    SameOutcome (checkExclusion arguments world) (checkExclusion others other) := by
  unfold checkExclusion
  rw [hexclusion, World.pathExists_of_silent h]
  split
  · exact ⟨rfl, h⟩
  · split <;> exact ⟨rfl, h⟩

/-- The arguments are found valid alike: warnings apart, no check asks how much is to be said, once both do not ask for
silence and for detail at the same time. -/
theorem sameOutcome_validate (hsame : SameRequest arguments others) :
    SameOutcome (validate arguments world) (validate others other) := by
  have hsensible : (arguments.quiet && arguments.verbose) = false := by simpa using hsame.sensible.1
  have hsensible' : (others.quiet && others.verbose) = false := by simpa using hsame.sensible.2
  unfold validate
  rw [hsensible, hsensible', hsame.entries_eq]
  obtain ⟨answer, after, later, hafter, hlater, hsilent⟩ := (sameOutcome_checkClassdump h hsame.classdump).exists_eq
  simp only [Bool.false_eq_true, if_false, hafter, hlater]
  cases answer with
  | error stop => exact ⟨rfl, hsilent⟩
  | ok done =>
      obtain ⟨answer, after, later, hafter, hlater, hsilent⟩ :=
        (sameOutcome_checkExclusion hsilent hsame.exclusion?_eq).exists_eq
      dsimp only
      rw [hafter, hlater]
      cases answer with
      | error stop => exact ⟨rfl, hsilent⟩
      | ok done => exact sameOutcome_checkEntries hsilent _ _ _

theorem sameOutcome_configure (hsame : SameRequest arguments others) :
    SameOutcome (configure arguments world) (configure others other) := by
  unfold configure
  rw [hsame.settingsOf_eq, settingsOf_of_silent h]
  split
  · exact ⟨rfl, h⟩
  · split
    · exact sameOutcome_refuse h _
    · exact ⟨rfl, h⟩

/-- The pipeline ends alike with and without reports of its progress. -/
theorem sameOutcome_prune (settings : Settings) (verbose loud : Bool) :
    SameOutcome (prune settings verbose world) (prune settings loud other) := by
  obtain ⟨answer, command, after, later, hafter, hlater, hsilent⟩ :=
    (Pipeline.sameAnswer_execute {} (Pipeline.SameRun.refl settings) verbose loud h).exists_eq
  unfold prune
  rw [Cancel.listener_never, hafter, hlater]
  cases answer with
  | ok stats =>
      have hbroken : ∀ (verbose : Bool) (world : World),
          (if verbose then world.report (.err "\n") else world).silent = world.silent := by
        intro verbose world
        cases verbose <;> rfl
      exact ⟨rfl, (hbroken verbose after).trans (hsilent.trans (hbroken loud later).symm)⟩
  | error failure =>
      dsimp only
      split
      · exact sameOutcome_refuse hsilent _
      · exact ⟨rfl, hsilent⟩

/-- A run answers the same and leaves the same files, however much it says. -/
theorem sameOutcome_run (hsame : SameRequest arguments others) :
    SameOutcome (run arguments world) (run others other) := by
  have hprinted : ∀ (silenced : Bool) (text : String) (world : World),
      (if silenced then world else printLine text world).silent = world.silent := by
    intro silenced text world
    cases silenced <;> rfl
  have hadded : ∀ (verbose : Bool) (text : String) (world : World),
      (if verbose then printLine text world else world).silent = world.silent := by
    intro verbose text world
    cases verbose <;> rfl
  obtain ⟨answer, after, later, hafter, hlater, hsilent⟩ := (sameOutcome_validate h hsame).exists_eq
  unfold run
  rw [hafter, hlater]
  cases answer with
  | error stop => exact ⟨rfl, hsilent⟩
  | ok done =>
      obtain ⟨answer, after, later, hafter, hlater, hsilent⟩ := (sameOutcome_configure hsilent hsame).exists_eq
      dsimp only
      rw [hafter, hlater]
      cases answer with
      | error stop => exact ⟨rfl, hsilent⟩
      | ok settings =>
          have htitled := (hprinted arguments.quiet ("Pruning classdump: " ++ settings.classdump) after).trans
            (hsilent.trans (hprinted others.quiet ("Pruning classdump: " ++ settings.classdump) later).symm)
          obtain ⟨answer, after, later, hafter, hlater, hsilent⟩ :=
            (sameOutcome_prune htitled settings arguments.verbose others.verbose).exists_eq
          dsimp only
          rw [hafter, hlater]
          cases answer with
          | error stop => exact ⟨rfl, hsilent⟩
          | ok stats =>
              have htold : ∀ quiet verbose world, (tellOutcome settings stats quiet verbose world).silent =
                world.silent := silent_tellOutcome settings stats
              refine ⟨rfl, ?_⟩
              dsimp only
              rw [hadded, hadded, htold, htold, hsilent]

end Checks

theorem sameOutcome_conclude {result copy : Step Stats} (h : SameOutcome result copy) (debug : Bool) :
    SameOutcome (conclude debug result) (conclude debug copy) := by
  obtain ⟨answer, after, later, rfl, rfl, hsilent⟩ := h.exists_eq
  refine ⟨?_, by rw [silent_conclude, silent_conclude, hsilent]⟩
  cases answer with
  | ok stats => rfl
  | error stop =>
      cases stop with
      | exit code => rfl
      | unexpected failure => cases failure <;> cases debug <;> rfl

/-- How much is to be said has no effect beyond what is said. Two runs that are asked for the same answer with the same
numbers or stop for the same reason, the program ends them alike, and they leave the same files; and so does the pipeline
itself with and without somebody who notes its progress. -/
theorem outcome_of_sameRequest (hsame : SameRequest arguments others) (debug : Bool) (world : World) :
    SameOutcome (run arguments world) (run others world) ∧
      SameOutcome (conclude debug (run arguments world)) (conclude debug (run others world)) ∧
      (∀ texts words, Arguments.parse texts = .ok arguments → Arguments.parse words = .ok others →
        SameOutcome (program texts debug world) (program words debug world)) ∧
      ∀ (command : Pipeline.Command) (settings : Settings),
        SameAnswer (command.execute settings true world) (command.execute settings false world) := by
  have hrun : SameOutcome (run arguments world) (run others world) := sameOutcome_run rfl hsame
  have hends := sameOutcome_conclude hrun debug
  refine ⟨hrun, hends, fun texts words htexts hwords => ?_, fun command settings => ?_⟩
  · rw [program, program, htexts, hwords]
    exact hends
  · exact Pipeline.sameAnswer_execute command (Pipeline.SameRun.refl settings) true false rfl

/-- A class beside the local classes is set aside in silence as it is with every detail told. -/
theorem outcome_of_sameRequest_withClassHere :
    let world := World.withClassHere
    let quiet := ["-c", "/classes", "-d", "/here", "-e", "/aside", "-q"]
    let verbose := ["-v", "--classpath=/classes", "-d/here", "--exclusion-dir", "/aside"]
    let there := (program quiet false world).2
    SameOutcome (program quiet false world) (program verbose false world) ∧
      (program quiet false world).1 = .exit 0 ∧
      there.readFile ⟨.root, ["aside", "p", "L.class"]⟩ = .ok [2] ∧
      there.pathExists ⟨.root, ["here", "p", "L.class"]⟩ = .ok false := by
  intro world quiet verbose there
  let arguments : Arguments :=
    { classdump := .text "/here", classpath := [.text "/classes"], exclusion := some (.text "/aside"), quiet := true }
  have hquiet : Arguments.parse quiet = .ok arguments := by decide +kernel
  have hverbose : Arguments.parse verbose = .ok { arguments with quiet := false, verbose := true } := by
    decide +kernel
  have hsame : SameRequest arguments { arguments with quiet := false, verbose := true } :=
    ⟨rfl, rfl, rfl, rfl, by decide, by decide⟩
  obtain ⟨-, -, hprogram, -⟩ := outcome_of_sameRequest hsame false world
  exact ⟨hprogram quiet verbose hquiet hverbose, by decide +kernel, by decide +kernel, by decide +kernel⟩

end ClassDump.CommandLine
