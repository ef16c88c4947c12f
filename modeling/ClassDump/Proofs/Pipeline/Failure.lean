import ClassDump.BuildStep
import ClassDump.Proofs.CommandLine.Stages
import ClassDump.Proofs.Pipeline.Stages
import ClassDump.Proofs.Reconcile.Completion

/-! All or nothing. A run that ends in a failure has changed no file, and neither has a dry run: the classpath and the
reference set are only read, and once the exclusion directory is made the pruning itself cannot fail any more. Only what
the receiver of its progress reports raises, or the user who interrupts it there, stops it half done. This holds of the
pipeline and of both ways into it, whatever the files, the archives and the faults of the system are. -/

namespace ClassDump

namespace Pipeline

/-- A pipeline that fails has changed nothing, unless its listener raised the failure while the class dump was pruned,
and a dry run has changed nothing whatever is raised. -/
theorem silent_execute (command : Command) (settings : Settings) (progress : Bool) (world : World) (listener : Listener)
    (h : settings.dryRun = true ∨ ∃ failure, (command.execute settings progress world listener).1 = .error failure ∧
      ¬listener.Raises Reconcile.stage failure) :
    (command.execute settings progress world listener).2.2.silent = world.silent := by
  have hstages := execute_stages command settings progress world listener
  generalize command.execute settings progress world listener = ended at h hstages ⊢
  cases hstages with
  | unresolved hstart hresolve hresolved => exact hresolved
  | unbuilt hresolved hbuild hbuilt => exact hbuilt
  | @unpruned _ _ _ built _ references _ hresolved hbuild hbuilt hrun =>
      have hprune : (Reconcile.run (pruneTask settings references progress) built listener).2.silent = built.silent := by
        rcases h with hdry | ⟨failure, hfailure, hquiet⟩
        · exact Reconcile.silent_run_of_dryRun hdry built listener
        · cases hfailure
          exact Reconcile.silent_run_of_error (isRegular_pruneTask settings references progress)
            hresolved.hasNul_classdump (congrArg Prod.fst hrun) hquiet
      rw [hrun] at hprune
      exact hprune.trans hbuilt
  | @pruned _ _ _ built _ references _ hresolved hbuild hbuilt hrun =>
      rcases h with hdry | ⟨failure, hfailure, -⟩
      · have hprune := @Reconcile.silent_run_of_dryRun (pruneTask settings references progress) hdry built listener
        rw [hrun] at hprune
        exact hprune.trans hbuilt
      · cases hfailure

end Pipeline

namespace BuildStep

/-- A build step fails by what stopped its attempt, and then it only reports. -/
theorem exists_cause_of_run {properties : List (String × Option String)} {world : World} {listener : Option Listener}
    {failure : Failure} (h : (run properties world listener).1 = .error failure) :
    ∃ cause, (attempt properties world listener).1 = .error cause ∧ (failure = cause ∨ failure = .buildStep cause) ∧
      (run properties world listener).2.silent = (attempt properties world listener).2.silent := by
  generalize hrun : run properties world listener = result at h ⊢
  rw [run] at hrun
  split at hrun
  · next heq =>
    rw [← hrun] at h ⊢
    exact ⟨_, congrArg Prod.fst heq, .inl (Except.error.inj h).symm, by rw [heq]⟩
  · next cause _ _ heq =>
    rw [← hrun] at h ⊢
    exact ⟨cause, congrArg Prod.fst heq, .inr (Except.error.inj h).symm, by rw [heq]; rfl⟩
  · rw [← hrun] at h
    cases h

/-- A build step that fails has changed nothing, unless its listener raised the failure or its cause while the class
dump was pruned. -/
theorem silent_run (properties : List (String × Option String)) (world : World) (listener : Option Listener)
    (h : ∃ failure, (run properties world listener).1 = .error failure ∧ ∀ given ∈ listener, ∀ cause,
      given.Raises Reconcile.stage cause → failure ≠ cause ∧ failure ≠ .buildStep cause) :
    (run properties world listener).2.silent = world.silent := by
  have hattempt : ∀ cause, (attempt properties world listener).1 = .error cause →
      (∀ given ∈ listener, ¬given.Raises Reconcile.stage cause) →
        (attempt properties world listener).2.silent = world.silent := by
    intro cause hcause hquiet
    rw [attempt] at hcause ⊢
    split
    · rfl
    · next settings heq =>
      rw [heq] at hcause
      refine Pipeline.silent_execute {} settings _ world _ (.inr ⟨cause, hcause, ?_⟩)
      cases listener with
      | none =>
          rintro ⟨state, -, hraised⟩
          cases hraised
      | some given => exact hquiet given rfl
  obtain ⟨failure, hfailure, hquiet⟩ := h
  obtain ⟨cause, hcause, hfrom, hsilent⟩ := exists_cause_of_run hfailure
  refine hsilent.trans (hattempt cause hcause fun given hgiven hraises => ?_)
  rcases hfrom with hsame | hwrapped
  · exact (hquiet given hgiven cause hraises).1 hsame
  · exact (hquiet given hgiven cause hraises).2 hwrapped

end BuildStep

namespace Settings

theorem exists_eq_of_make {world : World} {classdump exclusion : Option String} {classpath : List String}
    {dryRun : Bool} {settings : Settings} (h : make world classdump classpath exclusion dryRun = .ok settings) :
    ∃ found, settings = ⟨classdump.getD "", classpath, found, dryRun⟩ := by
  unfold make at h
  dsimp only at h
  split at h
  · cases h
  · split at h
    · cases h
    · split at h
      · next found =>
        cases h
        exact ⟨found, rfl⟩
      · split at h
        · next found _ =>
          cases h
          exact ⟨found, rfl⟩
        · cases h

end Settings

namespace CommandLine

/-- The settings of arguments are made from these, with the real path of the class dump. -/
theorem exists_make_of_settingsOf {arguments : Arguments} {world : World} {settings : Settings}
    (h : settingsOf arguments world = .ok settings) :
    ∃ text classdump exclusion, arguments.classdump = .text text ∧ realText world text = .ok classdump ∧
      Settings.make world (some classdump) arguments.entries exclusion arguments.dryRun = .ok settings := by
  rw [settingsOf] at h
  split at h
  · cases h
  · next text htext =>
    cases hreal : realText world text with
    | error failure =>
        rw [hreal] at h
        cases h
    | ok classdump =>
        cases hexclusion : arguments.exclusion?.mapM (realText world) with
        | error failure =>
            rw [hreal, hexclusion] at h
            cases h
        | ok exclusion =>
            rw [hreal, hexclusion] at h
            exact ⟨text, classdump, exclusion, htext, hreal, h⟩

theorem dryRun_of_configure {arguments : Arguments} {world after : World} {settings : Settings}
    (h : configure arguments world = (.ok settings, after)) : settings.dryRun = arguments.dryRun := by
  rw [configure] at h
  split at h
  · next hsettings =>
    cases h
    obtain ⟨-, classdump, exclusion, -, -, hmake⟩ := exists_make_of_settingsOf hsettings
    obtain ⟨found, rfl⟩ := Settings.exists_eq_of_make hmake
    rfl
  · split at h <;> cases h

/-- The user does not interrupt the program at a report of the scan. -/
def Cancel.Spares (cancel : Cancel) (stage : String) : Prop :=
  ∀ state, state.stage = stage → cancel state = false

/-- Where the user does not interrupt a scan, no failure comes from its reports. -/
theorem Cancel.Spares.not_raises {cancel : Cancel} {stage : String} {failure : Failure}
    (h : failure = .interrupted → cancel.Spares stage) : ¬cancel.listener.Raises stage failure := by
  rintro ⟨state, hstage, hraised⟩
  unfold Cancel.listener at hraised
  split at hraised
  · next hcancel =>
    cases hraised
    rw [h rfl state hstage] at hcancel
    cases hcancel
  · cases hraised

theorem silent_prune (settings : Settings) (verbose : Bool) (world : World) (cancel : Cancel)
    (h : settings.dryRun = true ∨ ∃ stop, (prune settings verbose world cancel).1 = .error stop ∧
      (stop = .unexpected .interrupted → cancel.Spares Reconcile.stage)) :
    (prune settings verbose world cancel).2.silent = world.silent := by
  have hexecute := Pipeline.silent_execute {} settings verbose world cancel.listener
  rw [prune] at h ⊢
  split
  · next failure _ _ heq =>
    rw [heq] at h hexecute
    have hfailed := hexecute <| h.imp_right fun ⟨stop, hstop, hspares⟩ => by
      refine ⟨failure, rfl, Cancel.Spares.not_raises ?_⟩
      rintro rfl
      exact hspares (Except.error.inj hstop).symm
    split <;> exact hfailed
  · next heq =>
    rw [heq] at h hexecute
    rcases h with hdry | ⟨stop, hstop, -⟩
    · have hdone := hexecute (.inl hdry)
      dsimp only
      split <;> exact hdone
    · cases hstop

theorem silent_run (arguments : Arguments) (world : World) (cancel : Cancel)
    (h : arguments.dryRun = true ∨ ∃ stop, (run arguments world cancel).1 = .error stop ∧
      (stop = .unexpected .interrupted → cancel.Spares Reconcile.stage)) :
    (run arguments world cancel).2.silent = world.silent := by
  have hstages := run_stages arguments world cancel
  generalize run arguments world cancel = ended at h hstages ⊢
  cases hstages with
  | invalid hvalidate hvalid => exact hvalid
  | unsettled hvalidate hvalid hconfigure hconfigured => exact hconfigured
  | @unpruned _ settings _ _ titled _ hvalidate hvalid hconfigure htitled hprune =>
      have hpruned := silent_prune settings arguments.verbose titled cancel <| by
        refine h.imp (dryRun_of_configure hconfigure).trans ?_
        rintro ⟨stop, hstop, hspares⟩
        cases hstop
        exact ⟨_, congrArg Prod.fst hprune, hspares⟩
      rw [hprune] at hpruned
      exact hpruned.trans htitled
  | @pruned _ settings _ _ titled _ _ hvalidate hvalid hconfigure htitled hprune htold =>
      rcases h with hdry | ⟨stop, hstop, -⟩
      · have hpruned := silent_prune settings arguments.verbose titled cancel
          (.inl ((dryRun_of_configure hconfigure).trans hdry))
        rw [hprune] at hpruned
        calc _ = _ := htold
          _ = _ := hpruned
          _ = world.silent := htitled
      · cases hstop

theorem silent_program (texts : List String) (debug : Bool) (world : World) (cancel : Cancel)
    (h : (∃ arguments, Arguments.parse texts = .ok arguments ∧ arguments.dryRun = true) ∨
      (program texts debug world cancel).1 ≠ .exit 0 ∧
        ((program texts debug world cancel).1 = .exit 130 → cancel.Spares Reconcile.stage)) :
    (program texts debug world cancel).2.silent = world.silent := by
  rw [program] at h ⊢
  split
  · next stop _ =>
    cases stop <;> rfl
  · next arguments heq =>
    have hrun := silent_run arguments world cancel
    rw [heq] at h
    dsimp only at h
    rw [conclude.eq_def] at h ⊢
    split
    · next hok =>
      rw [hok] at h hrun
      rcases h with ⟨other, hother, hdry⟩ | ⟨hexit, -⟩
      · cases hother
        exact hrun (.inl hdry)
      · exact absurd rfl hexit
    · next code _ hexit =>
      rw [hexit] at hrun
      refine hrun (.inr ⟨.exit code, rfl, ?_⟩)
      rintro ⟨⟩
    · next hinterrupted =>
      rw [hinterrupted] at h hrun
      rcases h with ⟨other, hother, hdry⟩ | ⟨-, hspares⟩
      · cases hother
        exact hrun (.inl hdry)
      · exact hrun (.inr ⟨_, rfl, fun _ => hspares rfl⟩)
    · next failure _ hother hfailure =>
      rw [hfailure] at hrun
      have hfailed := hrun (.inr ⟨.unexpected failure, rfl, fun heq => (hother (Halt.unexpected.inj heq)).elim⟩)
      split <;> exact hfailed

end CommandLine

end ClassDump
