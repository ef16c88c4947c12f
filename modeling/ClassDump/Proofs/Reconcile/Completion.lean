import ClassDump.Proofs.Reconcile.Visit
import ClassDump.Proofs.Relocation.Refusal

/-! Pruning either changes nothing and fails, or goes through to the end. Every failure comes before the exclusion
directory is made; after that each refusal of the system is counted by the handler, and the scan returns its numbers.
A dry run only reports. -/

namespace ClassDump

instance decidableEqExcept {ε α : Type} [DecidableEq ε] [DecidableEq α] : DecidableEq (Except ε α)
  | .error failure, .error other => decidable_of_iff (failure = other) (by simp)
  | .ok value, .ok other => decidable_of_iff (value = other) (by simp)
  | .error _, .ok _ => isFalse nofun
  | .ok _, .error _ => isFalse nofun

namespace Reconcile

/-- A visit below the class dump raises nothing but refusals of the system, which the handler takes, and what the
listener raises. -/
theorem raised_of_visit {task : Task} (hregular : task.IsRegular) (hexclusion : task.exclusion.hasNul = false)
    (listener : Listener) (names : List String) (scan : Scan) {raised : Raised Failure}
    (h : (visit task (task.classdump.descend names) scan listener).1 = .error raised) :
    (∃ error, raised = .os error) ∨ ∃ failure, listener.Raises stage failure ∧ raised = .own failure := by
  rcases visit_cases task (task.classdump.descend names) scan listener with heq | ⟨hnone, -⟩ | ⟨-, relative, hrelative, heq⟩
  · rw [heq] at h
    cases h
  · rw [Path.relativeTo?_descend] at hnone
    cases hnone
  · generalize task.classdump.descend names = file at h hrelative heq
    rw [heq] at h
    obtain ⟨logged, -, ⟨counted, hcounted, -⟩ | ⟨error, after, hrelocate, hfailed⟩⟩ :=
      decideOn_cases task file relative.text scan listener
    · rw [hcounted] at h
      exact raised_of_proceed hregular h
    · have hrefused := Relocation.refusedOnly_relocate logged file hexclusion fun hfile =>
        Path.nul_not_mem_text (Path.hasNul_relativeTo hfile hrelative)
      rw [hrelocate] at hrefused
      obtain ⟨refusal, rfl⟩ := hrefused error rfl
      rw [hfailed] at h
      exact .inl ⟨refusal, (Except.error.inj h).symm⟩

/-- Nothing but the listener stops the walk: all that it hands over lies below the class dump. -/
theorem guided_visitor_of_isRegular {task : Task} (hregular : task.IsRegular)
    (hexclusion : task.exclusion.hasNul = false) (listener : Listener) :
    Walk.Guided (visitor task listener) (fun _ => True) (fun path => ∃ names, path = task.classdump.descend names)
      (fun place _ => ∃ names, place.path = task.classdump.descend names)
      fun raised => ∃ failure, listener.Raises stage failure ∧ raised = .own failure where
  handed place _ _ _ hplace _ entry _ _ := by
    obtain ⟨names, hnames⟩ := hplace
    exact ⟨names ++ [entry.name], by rw [hnames, Path.child_eq_descend, Path.descend_append]⟩
  entered place _ _ _ hplace _ entry _ _ _ _ _ := by
    obtain ⟨names, hnames⟩ := hplace
    refine ⟨names ++ [entry.name], ?_⟩
    rw [Path.descend_append, ← hnames, ← Path.child_eq_descend]
    rfl
  visit _ _ _ _ := trivial
  raise path scan _ hpath _ h := by
    obtain ⟨names, rfl⟩ := hpath
    exact (raised_of_visit hregular hexclusion listener names scan h).symm.imp_right fun hos => ⟨rfl, hos⟩
  log _ _ _ := trivial
  onError _ _ _ _ _ _ := trivial

theorem raises_of_scanDump {task : Task} (hregular : task.IsRegular) (hexclusion : task.exclusion.hasNul = false)
    (hclassdump : task.classdump.hasNul = false) {world : World} {listener : Listener} {failure : Failure}
    (h : (scanDump task world listener).1 = .error failure) : listener.Raises stage failure := by
  rw [scanDump] at h
  split at h
  · next heq =>
    obtain ⟨cause, hraises, rfl⟩ := (guided_visitor_of_isRegular hregular hexclusion listener).allowed_of_run hclassdump
      ⟨[], (Path.descend_nil _).symm⟩ trivial (congrArg Prod.fst heq)
    cases h
    exact hraises
  · next scan _ =>
    obtain ⟨isOpen, hopen⟩ := Progress.exists_open? hregular scan.total
    rw [hopen] at h
    dsimp only at h
    split at h
    · next hanswer =>
      cases h
      exact Listener.raises_of_answer hanswer rfl
    · cases h

/-- The scan of a class dump returns its numbers. -/
theorem scanDump_ok {task : Task} (hregular : task.IsRegular) (hexclusion : task.exclusion.hasNul = false)
    (hclassdump : task.classdump.hasNul = false) (world : World) :
    ∃ stats after, scanDump task world = (.ok stats, after) := by
  cases hscan : scanDump task world with
  | mk result after =>
      cases result with
      | ok stats => exact ⟨stats, after, rfl⟩
      | error failure =>
          obtain ⟨state, -, hraised⟩ := raises_of_scanDump hregular hexclusion hclassdump (congrArg Prod.fst hscan)
          cases hraised

section DryRun

variable {task : Task} (hdry : task.dryRun = true) (listener : Listener)
include hdry

theorem silent_visit_of_dryRun (file : Path) (scan : Scan) :
    (visit task file scan listener).2.world.silent = scan.world.silent := by
  rcases visit_cases task file scan listener with heq | ⟨-, heq⟩ | ⟨-, relative, -, heq⟩
  · rw [heq]
  · rw [heq]
  · rw [heq]
    cases hreferences : task.references.contains relative.text with
    | true =>
        obtain ⟨logged, hlogged, hkept⟩ := exists_decideOn_of_referenced file scan hreferences listener
        rw [hkept]
        exact (Scan.proceed_silent _ _ listener).1.trans hlogged.silent
    | false =>
        obtain ⟨logged, hlogged, hpruned⟩ := exists_decideOn_of_dryRun file scan hreferences hdry listener
        rw [hpruned]
        exact (Scan.proceed_silent _ _ listener).1.trans hlogged.silent

theorem keeps_visitor_of_dryRun (before : World) :
    Walk.Keeps (visitor task listener) (·.world.silent = before.silent) fun _ => True where
  visit path scan hscan := (silent_visit_of_dryRun hdry listener path scan).trans hscan
  raise _ _ _ _ _ := .inl trivial
  log _ _ hscan := hscan
  onError handle hhandle _ _ _ hscan := by
    cases hhandle
    exact hscan

theorem silent_scanDump_of_dryRun (world : World) : (scanDump task world listener).2.silent = world.silent := by
  have hrun := (keeps_visitor_of_dryRun hdry listener world).guided.inv_run task.classdump ⟨world, 0, 0, 0⟩ trivial rfl
  rw [scanDump]
  split
  · next heq =>
    rw [heq] at hrun
    exact hrun
  · next heq =>
    rw [heq] at hrun
    split
    · exact hrun
    · dsimp only [Scan.log, World.silent_log]
      split
      · split <;> exact hrun
      · split <;> exact hrun

end DryRun

/-- Making the root of the exclusion tree either changes nothing or succeeds with a path that holds no NUL. -/
theorem prepare_cases (task : Task) (world : World) :
    (∃ failure, prepare task world = (.error failure, world)) ∨
      (task.exclusion.hasNul = false ∧ ∃ after, prepare task world = (.ok (), after)) := by
  have hmade : (∃ error, world.makeDir task.exclusion = (.error error, world)) ∨
      (task.exclusion.hasNul = false ∧ ∃ after, world.makeDir task.exclusion = (.ok (), after)) := by
    rw [World.makeDir]
    split
    · exact .inl ⟨_, rfl⟩
    · next hnul =>
      dsimp only
      split
      · exact .inl ⟨_, rfl⟩
      · split
        · exact .inl ⟨_, rfl⟩
        · exact .inr ⟨by simpa using hnul, _, rfl⟩
  rw [prepare, Relocation.createRoot]
  rcases hmade with ⟨error, heq⟩ | ⟨hnul, after, heq⟩
  · rw [heq]
    cases error <;> exact .inl ⟨_, rfl⟩
  · rw [heq]
    exact .inr ⟨hnul, _, rfl⟩

section Inside

variable {task other : Task} {world base : World}

theorem isInside_of_silent (hsilent : world.silent = base.silent) (hclassdump : task.classdump = other.classdump)
    (hexclusion : task.exclusion = other.exclusion) : isInside task world = isInside other base := by
  unfold isInside
  rw [World.resolve_of_silent hsilent, hclassdump, hexclusion]

theorem noNul_of_isInside {inside : Bool} (h : isInside task world = .ok inside) :
    task.exclusion.hasNul = false ∧ task.classdump.hasNul = false := by
  have hresolve : ∀ path : Path, path.hasNul = true → world.resolve path = .error .nul := fun _ hnul => if_pos hnul
  unfold isInside at h
  cases hexclusion : task.exclusion.hasNul with
  | true =>
      rw [hresolve _ hexclusion] at h
      cases h
  | false =>
      refine ⟨rfl, ?_⟩
      cases hclassdump : task.classdump.hasNul with
      | false => rfl
      | true =>
          rw [hresolve _ hclassdump] at h
          cases hreal : world.resolve task.exclusion <;> rw [hreal] at h <;> cases h

/-- Only where there is no real path behind the exclusion directory or the class dump can it not be told whether the one
lies in the other. -/
theorem error_of_isInside {error : FileError} (h : isInside task world = .error error) :
    world.resolve task.exclusion = .error error ∨ world.resolve task.classdump = .error error := by
  unfold isInside at h
  cases hexclusion : world.resolve task.exclusion with
  | error found =>
      rw [hexclusion] at h
      cases h
      exact .inl rfl
  | ok exclusion =>
      cases hclassdump : world.resolve task.classdump with
      | error found =>
          rw [hexclusion, hclassdump] at h
          cases h
          exact .inr rfl
      | ok classdump =>
          rw [hexclusion, hclassdump] at h
          cases h

/-- What keeps a class dump from being pruned is a wrong configuration, unless it cannot be told whether the exclusion
directory lies in the class dump. -/
theorem exists_configuration_of_run {failure : Failure} {inside : Bool} (hregular : task.IsRegular)
    (hinside : isInside task world = .ok inside) (h : (run task world).1 = .error failure) :
    ∃ error, failure = .configuration error := by
  obtain ⟨hexclusion, hclassdump⟩ := noNul_of_isInside hinside
  have hscan : ∀ prepared, (scanDump task prepared).1 ≠ .error failure := by
    intro prepared hfailed
    obtain ⟨stats, after, hscan⟩ := scanDump_ok hregular hexclusion hclassdump prepared
    rw [hscan] at hfailed
    cases hfailed
  unfold run at h
  rw [hinside] at h
  cases inside with
  | true => exact ⟨_, (Except.error.inj h).symm⟩
  | false =>
      dsimp only at h
      split at h
      · exact absurd h (hscan world)
      · split at h
        · next found _ hprepare =>
          cases h
          have hrefused := World.refusedOnly_makeDir world hexclusion
          unfold prepare Relocation.createRoot at hprepare
          cases hmake : world.makeDir task.exclusion with
          | mk result made =>
              rw [hmake] at hprepare hrefused
              cases result with
              | ok done => cases hprepare
              | error error =>
                  obtain ⟨refusal, rfl⟩ := hrefused error rfl
                  cases hprepare
                  exact ⟨_, rfl⟩
        · exact absurd h (hscan _)

end Inside

theorem silent_run_of_dryRun {task : Task} (hdry : task.dryRun = true) (world : World) (listener : Listener) :
    (run task world listener).2.silent = world.silent := by
  unfold run
  split
  · rfl
  · rfl
  · rw [if_pos hdry]
    exact silent_scanDump_of_dryRun hdry listener world

/-- A pruning that fails has changed nothing, unless its listener raised the failure while the class dump was scanned. -/
theorem silent_run_of_error {task : Task} (hregular : task.IsRegular) (hclassdump : task.classdump.hasNul = false)
    {listener : Listener} {world : World} {failure : Failure} (h : (run task world listener).1 = .error failure)
    (hquiet : ¬listener.Raises stage failure) : (run task world listener).2.silent = world.silent := by
  cases hdry : task.dryRun with
  | true => exact silent_run_of_dryRun hdry world listener
  | false =>
      rw [run, hdry] at h ⊢
      split
      · rfl
      · rfl
      · next hinside =>
        rcases prepare_cases task world with ⟨failure, heq⟩ | ⟨hexclusion, after, heq⟩
        · rw [heq]
          rfl
        · simp only [hinside, heq, Bool.false_eq_true, if_false] at h
          exact absurd (raises_of_scanDump hregular hexclusion hclassdump h) hquiet

end Reconcile
end ClassDump
