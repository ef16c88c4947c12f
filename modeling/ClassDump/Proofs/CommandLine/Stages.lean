import ClassDump.CommandLine.Run
import ClassDump.Proofs.Store.Silent

/-! The stages of a run from the command line: the arguments are found valid, the settings are made, and the pipeline
runs. The first stage that stops ends the run, and before the pipeline the files are only looked at. -/

namespace ClassDump.CommandLine

theorem Cancel.listener_never : Cancel.listener (fun _ => false) = .mute := rfl

theorem silent_warn (quiet : Bool) (text : String) (world : World) : (warn quiet text world).silent = world.silent := by
  rw [warn]
  split <;> rfl

theorem silent_checkEntries (quiet : Bool) (entries : List String) (world : World) :
    (checkEntries quiet entries world).2.silent = world.silent := by
  have hentry : ∀ entry world, (checkEntry quiet entry world).2.silent = world.silent := by
    intro entry world
    rw [checkEntry]
    split
    · rfl
    · exact silent_warn _ _ _
    · rfl
    · exact silent_warn _ _ _
    · rfl
  induction entries generalizing world with
  | nil => rfl
  | cons entry rest ih =>
      have h := hentry entry world
      rw [checkEntries]
      split
      · next heq =>
        rw [heq] at h
        exact (ih _).trans h
      · exact h

theorem silent_validate (arguments : Arguments) (world : World) :
    (validate arguments world).2.silent = world.silent := by
  have hclassdump : (checkClassdump arguments world).2.silent = world.silent := by
    rw [checkClassdump]
    split
    · rfl
    · split
      · rfl
      · split <;> rfl
  have hexclusion : ∀ world, (checkExclusion arguments world).2.silent = world.silent := by
    intro world
    rw [checkExclusion]
    split
    · rfl
    · split <;> rfl
  rw [validate]
  split
  · rfl
  · split
    · next checked heq =>
      rw [heq] at hclassdump
      have hchecked := hexclusion checked
      split
      · next heq =>
        rw [heq] at hchecked
        calc _ = _ := silent_checkEntries _ _ _
          _ = checked.silent := hchecked
          _ = world.silent := hclassdump
      · exact hchecked.trans hclassdump
    · exact hclassdump

theorem silent_configure (arguments : Arguments) (world : World) :
    (configure arguments world).2.silent = world.silent := by
  rw [configure]
  split
  · rfl
  · split <;> rfl

theorem silent_tellOutcome (settings : Settings) (stats : Stats) (quiet verbose : Bool) (world : World) :
    (tellOutcome settings stats quiet verbose world).silent = world.silent := by
  rw [tellOutcome]
  split
  · rfl
  · dsimp only
    split
    · split <;> rfl
    · rw [silent_warn]
      split <;> rfl

/-- How a run ends: in the first stage that stops it, or after all of them. -/
inductive Stages (arguments : Arguments) (world : World) (cancel : Cancel := fun _ => false) : Step Stats → Prop where
  | invalid {stop : Halt} {valid : World} (hvalidate : validate arguments world = (.error stop, valid))
      (hvalid : valid.silent = world.silent) : Stages arguments world cancel (.error stop, valid)
  | unsettled {stop : Halt} {valid configured : World} (hvalidate : validate arguments world = (.ok (), valid))
      (hvalid : valid.silent = world.silent) (hconfigure : configure arguments valid = (.error stop, configured))
      (hconfigured : configured.silent = world.silent) : Stages arguments world cancel (.error stop, configured)
  | unpruned {stop : Halt} {settings : Settings} {valid configured titled pruned : World}
      (hvalidate : validate arguments world = (.ok (), valid)) (hvalid : valid.silent = world.silent)
      (hconfigure : configure arguments valid = (.ok settings, configured)) (htitled : titled.silent = world.silent)
      (hprune : prune settings arguments.verbose titled cancel = (.error stop, pruned)) :
      Stages arguments world cancel (.error stop, pruned)
  | pruned {stats : Stats} {settings : Settings} {valid configured titled pruned told : World}
      (hvalidate : validate arguments world = (.ok (), valid)) (hvalid : valid.silent = world.silent)
      (hconfigure : configure arguments valid = (.ok settings, configured)) (htitled : titled.silent = world.silent)
      (hprune : prune settings arguments.verbose titled cancel = (.ok stats, pruned))
      (htold : told.silent = pruned.silent) : Stages arguments world cancel (.ok stats, told)

theorem run_stages (arguments : Arguments) (world : World) (cancel : Cancel := fun _ => false) :
    Stages arguments world cancel (run arguments world cancel) := by
  have hvalid := silent_validate arguments world
  unfold run
  rcases hvalidate : validate arguments world with ⟨answer, valid⟩
  rw [hvalidate] at hvalid
  cases answer with
  | error stop => exact .invalid hvalidate hvalid
  | ok done =>
      have hconfigured := (silent_configure arguments valid).trans hvalid
      dsimp only
      rcases hconfigure : configure arguments valid with ⟨answer, configured⟩
      rw [hconfigure] at hconfigured
      cases answer with
      | error stop => exact .unsettled hvalidate hvalid hconfigure hconfigured
      | ok settings =>
          have htitled : (if arguments.quiet then configured
              else printLine ("Pruning classdump: " ++ settings.classdump) configured).silent = world.silent := by
            split <;> exact hconfigured
          dsimp only
          generalize (if arguments.quiet = true then configured else _) = titled at htitled ⊢
          rcases hprune : prune settings arguments.verbose titled cancel with ⟨answer, pruned⟩
          cases answer with
          | error stop => exact .unpruned hvalidate hvalid hconfigure htitled hprune
          | ok stats =>
              refine .pruned hvalidate hvalid hconfigure htitled hprune ?_
              split <;> exact silent_tellOutcome _ _ _ _ _

end ClassDump.CommandLine
