import ClassDump.Proofs.Pipeline.Outcome
import Mathlib.Data.List.ReduceOption

/-! A command that is called again and again. Between the calls others may do what they like to the world, and each call
may fail at any stage. Every call does what it would do as the first call of a new command: no set of an earlier call
takes part in it. All that a command keeps is the set that was built last, and a call that builds none leaves it. -/

namespace ClassDump.Pipeline

/-- A call of a command, after whatever has happened to the world since the call before. -/
structure Call where
  change : World → World
  settings : Settings
  progress : Bool

/-- What a call ends with: its result, the command and the world with its reports. -/
abbrev Ended := Except Failure Stats × Command × World

def Command.callAll : Command → List Call → World → List Ended
  | _, [], _ => []
  | command, call :: rest, world =>
    let ended := command.execute call.settings call.progress (call.change world)
    ended :: ended.2.1.callAll rest ended.2.2

def callEach : List Call → World → List Ended
  | [], _ => []
  | call :: rest, world =>
    let ended := Command.execute {} call.settings call.progress (call.change world)
    ended :: callEach rest ended.2.2

def built? (settings : Settings) (world : World) : Option ReferenceSet :=
  match resolveClasspath settings world with
  | (.error _, _) => none
  | (.ok (entries, roots), world) => (buildReferenceSet entries roots false world).1.toOption

/-- What each of the calls builds, if it is called on a new command. -/
def builtEach : List Call → World → List (Option ReferenceSet)
  | [], _ => []
  | call :: rest, world =>
    built? call.settings (call.change world) ::
      builtEach rest (Command.execute {} call.settings call.progress (call.change world)).2.2

section Step

variable (command : Command) (settings : Settings) (progress : Bool) (world : World)

/-- The result of a call, and what it does to the world, do not depend on what the command was called for before. -/
theorem execute_eq_new :
    (command.execute settings progress world).1 = (Command.execute {} settings progress world).1 ∧
      (command.execute settings progress world).2.2 = (Command.execute {} settings progress world).2.2 := by
  unfold Command.execute
  dsimp only
  split
  · exact ⟨rfl, rfl⟩
  · split
    · exact ⟨rfl, rfl⟩
    · split <;> exact ⟨rfl, rfl⟩

/-- After a call the command has the set that the call has built, or else the one that it had. -/
theorem referenceSet_execute :
    (command.execute settings progress world).2.1.referenceSet = (built? settings world).or command.referenceSet := by
  have hlogged : ∀ message, (world.log .info .pipeline message).silent = world.silent := fun _ => rfl
  unfold Command.execute built?
  dsimp only
  obtain ⟨answer, after, later, hafter, hlater, hsilent⟩ := (sameOutcome_resolveClasspath (SameRun.refl settings)
    (hlogged ("Pruning Jacoco classdump at: " ++ (Path.ofText settings.classdump).text))).exists_eq
  rw [hafter, hlater]
  cases answer with
  | error failure => rfl
  | ok found =>
      obtain ⟨entries, roots⟩ := found
      obtain ⟨answer, after, later, hafter, hlater, -⟩ :=
        (sameOutcome_buildReferenceSet entries roots progress false hsilent).exists_eq
      dsimp only
      rw [hafter, hlater]
      cases answer with
      | error failure => rfl
      | ok references =>
          dsimp only
          split <;> rfl

end Step

/-- A list of calls ends as the calls on new commands do, whatever command it starts with. -/
theorem map_callAll_eq_callEach (calls : List Call) (command : Command) (world : World) :
    ((command.callAll calls world).map fun ended => (ended.1, ended.2.2)) =
      (callEach calls world).map fun ended => (ended.1, ended.2.2) := by
  induction calls generalizing command world with
  | nil => rfl
  | cons call rest ih =>
      obtain ⟨hresult, hworld⟩ := execute_eq_new command call.settings call.progress (call.change world)
      simp only [Command.callAll, callEach, List.map_cons, hresult, hworld, ih]

/-- After each of the calls, the command has the last of the sets built so far, or else the one that it started with. -/
theorem referenceSets_callAll (calls : List Call) (command : Command) (world : World) :
    (command.callAll calls world).map (·.2.1.referenceSet) =
      (List.range calls.length).map fun i =>
        ((builtEach calls world).take (i + 1)).reduceOption.getLast?.or command.referenceSet := by
  induction calls generalizing command world with
  | nil => rfl
  | cons call rest ih =>
      have hworld := (execute_eq_new command call.settings call.progress (call.change world)).2
      have hset := referenceSet_execute command call.settings call.progress (call.change world)
      have hlater : ∀ (set : Option ReferenceSet) (sets : List (Option ReferenceSet)),
          (set :: sets).reduceOption.getLast?.or command.referenceSet =
            sets.reduceOption.getLast?.or (set.or command.referenceSet) := by
        intro set sets
        cases set with
        | none => rfl
        | some found =>
            rw [List.reduceOption_cons_of_some, List.getLast?_cons, Option.some_or]
            cases sets.reduceOption.getLast? <;> rfl
      rw [Command.callAll, List.map_cons, ih, hset, hworld, List.length_cons, List.range_succ_eq_map, List.map_cons,
        List.map_map]
      simp only [builtEach, List.take_succ_cons, hlater, List.take_zero]
      rfl

/-- A command that is called for the first time or again answers, reports and changes the files as a new one would, and
after each call it has the set built by the last call whose reference stage succeeded, if there was one. -/
theorem reused_as_new (calls : List Call) (world : World) :
    ((Command.callAll {} calls world).map fun ended => (ended.1, ended.2.2)) =
        (callEach calls world).map (fun ended => (ended.1, ended.2.2)) ∧
      (Command.callAll {} calls world).map (·.2.1.referenceSet) =
        (List.range calls.length).map fun i => ((builtEach calls world).take (i + 1)).reduceOption.getLast? := by
  refine ⟨map_callAll_eq_callEach calls {} world, ?_⟩
  rw [referenceSets_callAll]
  simp only [Option.or_none]

end ClassDump.Pipeline
