import ClassDump.Proofs.CommandLine.Stages

/-! How the program ends. A run that stops early has an exit code other than zero, so that the exit code tells whether
the run came to its numbers. -/

namespace ClassDump.CommandLine

variable {α : Type}

/-- If the step ends the program with an exit code, then with that of a failure. -/
def FailsWithOne (result : Step α) : Prop :=
  ∀ code, result.1 = .error (.exit code) → code = 1

theorem failsWithOne_ok (value : α) (world : World) : FailsWithOne (.ok value, world) :=
  nofun

theorem failsWithOne_halt (failure : Failure) (world : World) : FailsWithOne (α := α) (halt failure world) :=
  nofun

theorem failsWithOne_refuse (text : String) (world : World) : FailsWithOne (α := α) (refuse text world) :=
  fun _ h => (Halt.exit.inj (Except.error.inj h)).symm

/-- The rest of a run ends as the step did that stopped it. -/
theorem FailsWithOne.stopped {β : Type} {stop : Halt} {world : World} (h : FailsWithOne (α := α) (.error stop, world)) :
    FailsWithOne (α := β) (.error stop, world) :=
  fun code hcode => h code (congrArg Except.error (Except.error.inj hcode))

variable (arguments : Arguments) (world : World)

theorem failsWithOne_checkEntries (quiet : Bool) (entries : List String) :
    FailsWithOne (checkEntries quiet entries world) := by
  have hentry : ∀ entry world, FailsWithOne (checkEntry quiet entry world) := by
    intro entry world
    rw [checkEntry]
    split
    · exact failsWithOne_halt _ _
    · exact failsWithOne_ok _ _
    · exact failsWithOne_halt _ _
    · exact failsWithOne_ok _ _
    · exact failsWithOne_ok _ _
  induction entries generalizing world with
  | nil => exact failsWithOne_ok _ _
  | cons entry rest ih =>
      rw [checkEntries]
      split
      · exact ih _
      · exact hentry entry world

theorem failsWithOne_checkClassdump : FailsWithOne (checkClassdump arguments world) := by
  unfold checkClassdump
  split
  · exact failsWithOne_halt _ _
  · split
    · exact failsWithOne_halt _ _
    · split
      · exact failsWithOne_halt _ _
      · exact failsWithOne_refuse _ _
      · exact failsWithOne_halt _ _
      · exact failsWithOne_refuse _ _
      · exact failsWithOne_ok _ _

theorem failsWithOne_checkExclusion : FailsWithOne (checkExclusion arguments world) := by
  unfold checkExclusion
  split
  · exact failsWithOne_ok _ _
  · split
    · exact failsWithOne_halt _ _
    · exact failsWithOne_refuse _ _
    · exact failsWithOne_ok _ _

theorem failsWithOne_validate : FailsWithOne (validate arguments world) := by
  rw [validate]
  split
  · exact failsWithOne_refuse _ _
  · split
    · split
      · exact failsWithOne_checkEntries _ _ _
      · exact failsWithOne_checkExclusion _ _
    · exact failsWithOne_checkClassdump _ _

theorem failsWithOne_configure : FailsWithOne (configure arguments world) := by
  rw [configure]
  split
  · exact failsWithOne_ok _ _
  · split
    · exact failsWithOne_refuse _ _
    · exact failsWithOne_halt _ _

theorem failsWithOne_prune (settings : Settings) (verbose : Bool) (cancel : Cancel) :
    FailsWithOne (prune settings verbose world cancel) := by
  rw [prune]
  split
  · split
    · exact failsWithOne_refuse _ _
    · exact failsWithOne_halt _ _
  · exact failsWithOne_ok _ _

theorem failsWithOne_run (cancel : Cancel := fun _ => false) : FailsWithOne (run arguments world cancel) := by
  have hstages := run_stages arguments world cancel
  generalize run arguments world cancel = ended at hstages ⊢
  cases hstages with
  | invalid hvalidate => exact (hvalidate ▸ failsWithOne_validate arguments world).stopped
  | unsettled _ _ hconfigure => exact (hconfigure ▸ failsWithOne_configure arguments _).stopped
  | unpruned _ _ _ _ hprune => exact (hprune ▸ failsWithOne_prune _ _ _ cancel).stopped
  | pruned => exact failsWithOne_ok _ _

/-- The exit code is zero exactly if the run came to its numbers. -/
theorem conclude_run_eq_exit_zero_iff (debug : Bool) :
    (conclude debug (run arguments world)).1 = .exit 0 ↔ ∃ stats, (run arguments world).1 = .ok stats := by
  have hfails := failsWithOne_run arguments world
  cases hrun : run arguments world with
  | mk result after =>
      rw [hrun] at hfails
      cases result with
      | ok stats => exact ⟨fun _ => ⟨stats, rfl⟩, fun _ => rfl⟩
      | error stop =>
          refine ⟨fun hexit => ?_, nofun⟩
          cases stop with
          | exit code =>
              have hzero : code = 0 := Ending.exit.inj hexit
              have hone : code = 1 := hfails code rfl
              omega
          | unexpected failure =>
              rw [conclude.eq_def] at hexit
              split at hexit
              · next heq => cases heq
              · next heq => cases heq
              · exact absurd (Ending.exit.inj hexit) (by decide)
              · split at hexit
                · cases hexit
                · exact absurd (Ending.exit.inj hexit) (by decide)

end ClassDump.CommandLine
