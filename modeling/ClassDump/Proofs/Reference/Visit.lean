import ClassDump.Proofs.Path.Descend
import ClassDump.Proofs.Progress.Course
import ClassDump.Reference

/-! The visit of an entry below a class directory, case by case. What is no class file is passed over; a class without a
key ends the scan, and any other adds its key and is counted. The world changes by log records, by reports of progress
and by what the source of class bytes does to it. -/

namespace ClassDump.Reference

variable {ρ : Type} {task : Task ρ}

/-- The key of a class by its name and the answer for it. -/
def keyBy (classId : Bytes → Int) (name : String) : Except Failure (Option Bytes) → Except Failure ClassKey
  | .error failure =>
    match failure.refusal? with
    | some refusal => .error (.consistency name refusal)
    | none => .error failure
  | .ok none => .error (.consistency name "no classpath entry provides it")
  | .ok (some data) => (ClassKey.of name (classId data)).mapError .key

/-- The scan with one more class, which has this key. -/
def Scan.count (scan : Scan ρ) (key : ClassKey) : Scan ρ :=
  { scan with keys := scan.keys.insert key.path, processed := scan.processed + 1 }

/-- The key of a class goes by the answer of the source, and all that keying it does besides asking is to log. -/
theorem exists_keyFor {file root relative : Path} (h : file.relativeTo? root = some relative) (scan : Scan ρ) :
    ∃ logged answer source read later, scan.world.Logged logged ∧
      task.read scan.source logged relative.text = (answer, source, read) ∧ read.Logged later ∧
      keyFor task file root scan =
        (keyBy task.classId (binaryNameOf relative.text) answer, { scan with source := source, world := later }) := by
  have hlogged := World.Logged.log (.refl scan.world) .debug .reference
    ("Got local class: " ++ file.text ++ " " ++ binaryNameOf relative.text)
  obtain ⟨ask, classId, interval⟩ := task
  unfold keyFor
  rw [h]
  dsimp only [Scan.log]
  generalize binaryNameOf relative.text = name at hlogged ⊢
  generalize scan.world.log .debug .reference _ = logged at hlogged ⊢
  rcases hread : ask scan.source logged relative.text with ⟨answer, source, read⟩
  refine ⟨logged, answer, source, read, ?_⟩
  rw [hread]
  cases answer with
  | error failure =>
      refine ⟨read, hlogged, rfl, .refl read, ?_⟩
      dsimp only [keyBy]
      cases failure.refusal? <;> rfl
  | ok found =>
      cases found with
      | none => exact ⟨read, hlogged, rfl, .refl read, rfl⟩
      | some data =>
          dsimp only [keyBy]
          cases ClassKey.of name (classId data) with
          | error error => exact ⟨read, hlogged, rfl, .refl read, rfl⟩
          | ok key => exact ⟨_, hlogged, rfl, .log (.refl read) .debug .reference _, rfl⟩

theorem keyFor_of_not_below {file root : Path} (h : file.relativeTo? root = none) (scan : Scan ρ) :
    keyFor task file root scan = (.error (.notBelow ⟨file, root⟩), scan) := by
  unfold keyFor
  rw [h]

/-- Keying a class leaves alone the keys and the count so far, and all of the world that neither log records nor the
source of class bytes change. -/
theorem keyFor_keeps {α : Type} (view : World → α)
    (hlog : ∀ {world after : World}, world.Logged after → view after = view world)
    (hread : ∀ source world resource, view (task.read source world resource).2.2 = view world) (file root : Path)
    (scan : Scan ρ) :
    view (keyFor task file root scan).2.world = view scan.world ∧ (keyFor task file root scan).2.keys = scan.keys ∧
      (keyFor task file root scan).2.processed = scan.processed := by
  cases hrelative : file.relativeTo? root with
  | none =>
      rw [keyFor_of_not_below hrelative]
      exact ⟨rfl, rfl, rfl⟩
  | some relative =>
      obtain ⟨logged, answer, source, read, later, hlogged, hask, hlater, hkey⟩ :=
        @exists_keyFor _ task _ _ _ hrelative scan
      have hview := hread scan.source logged relative.text
      rw [hask] at hview
      have hkeyed : view later = view scan.world :=
        calc view later = view read := hlog hlater
          _ = view logged := hview
          _ = view scan.world := hlog hlogged
      rw [hkey]
      exact ⟨hkeyed, rfl, rfl⟩

theorem visit_of_not_isClassFile {root file : Path} (h : isClassFile file = false) (scan : Scan ρ)
    (listener : Listener := .mute) : visit task root file scan listener = (.ok .proceed, scan) := by
  rw [visit, h, if_neg Bool.false_ne_true]

section Class

variable {root file : Path} {scan next : Scan ρ} (hclass : isClassFile file = true)
include hclass

theorem visit_of_keyFor_error {failure : Failure} (h : keyFor task file root scan = (.error failure, next))
    (listener : Listener := .mute) : visit task root file scan listener = (.error (.own failure), next) := by
  rw [visit, if_pos hclass, h]

theorem visit_of_listener {key : ClassKey} {due : Bool} (h : keyFor task file root scan = (.ok key, next))
    (hdue : Progress.due? task.interval (next.processed + 1) = some due) (listener : Listener) :
    visit task root file scan listener =
      (verdict listener due (next.count key).progress,
        if due then (next.count key).reportProgress else next.count key) := by
  rw [visit, if_pos hclass, h]
  dsimp only
  rw [hdue]
  rfl

/-- A class with a key adds it and is counted. -/
theorem visit_of_keyFor_ok {key : ClassKey} {due : Bool} (h : keyFor task file root scan = (.ok key, next))
    (hdue : Progress.due? task.interval (next.processed + 1) = some due) :
    visit task root file scan =
      (.ok .proceed, if due then (next.count key).reportProgress else next.count key) := by
  rw [visit_of_listener hclass h hdue, verdict_mute]

end Class

theorem visit_eq_or (task : Task ρ) (root file : Path) (scan : Scan ρ) (listener : Listener := .mute) :
    visit task root file scan listener = (.ok .proceed, scan) ∨
      (visit task root file scan listener).2.source = (keyFor task file root scan).2.source ∧
        (visit task root file scan listener).2.world.silent = (keyFor task file root scan).2.world.silent := by
  cases hclass : isClassFile file with
  | false => exact .inl (visit_of_not_isClassFile hclass scan listener)
  | true =>
      refine .inr ?_
      cases hkey : keyFor task file root scan with
      | mk result next =>
          cases result with
          | error failure =>
              rw [visit_of_keyFor_error hclass hkey listener]
              exact ⟨rfl, rfl⟩
          | ok key =>
              cases hdue : Progress.due? task.interval (next.processed + 1) with
              | none =>
                  rw [visit, if_pos hclass, hkey]
                  dsimp only
                  rw [hdue]
                  exact ⟨rfl, rfl⟩
              | some due =>
                  rw [visit_of_listener hclass hkey hdue listener]
                  cases due <;> exact ⟨rfl, rfl⟩

section Silent

variable (hread : ∀ source world resource, (task.read source world resource).2.2.silent = world.silent)
include hread

/-- A scan of the local classes only reports, if the source of the class bytes does. -/
theorem keeps_visitor (root : Path) (before : World) (listener : Listener := .mute) :
    Walk.Keeps (visitor task root listener) (·.world.silent = before.silent) fun _ => True where
  visit file scan hscan := by
    change (visit task root file scan listener).2.world.silent = before.silent
    rcases visit_eq_or task root file scan listener with hsame | ⟨-, hsilent⟩
    · rwa [hsame]
    · calc _ = _ := hsilent
        _ = scan.world.silent := (keyFor_keeps World.silent World.Logged.silent hread file root scan).1
        _ = before.silent := hscan
  raise _ _ _ _ _ := .inl trivial
  log _ _ hscan := hscan
  onError _ hnone := by cases hnone

theorem silent_scanRoots (roots : List Path) (scan : Scan ρ) (listener : Listener := .mute) :
    (scanRoots task roots scan listener).2.world.silent = scan.world.silent := by
  induction roots generalizing scan with
  | nil => rfl
  | cons root rest ih =>
      have hrun := (keeps_visitor hread root scan.world listener).guided.inv_run root
        (scan.log .reference ("Checking local classes: " ++ root.text)) trivial rfl
      rw [scanRoots]
      split
      · next heq =>
        rw [heq] at hrun
        exact hrun
      · next heq =>
        rw [heq] at hrun
        exact (ih _).trans hrun

theorem silent_build (roots : List Path) (source : ρ) (world : World) (listener : Listener := .mute) :
    (build task roots source world listener).2.2.silent = world.silent := by
  have hscan := silent_scanRoots hread roots { world := world, source := source } listener
  rw [build]
  split
  · next heq =>
    rw [heq] at hscan
    exact hscan
  · next heq =>
    rw [heq] at hscan
    split
    · exact hscan
    · dsimp only
      split
      · split <;> exact hscan
      · split <;> split <;> exact hscan

end Silent

end ClassDump.Reference
