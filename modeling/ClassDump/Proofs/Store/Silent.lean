import ClassDump.Classpath.Entry
import ClassDump.Classpath.Lookup

/-! What only reports. The silent world is the world with nothing reported: the files, the working directory and what
else surrounds a run. Everything that happens before the class dump is touched leaves it as it is. -/

namespace ClassDump

def World.silent (world : World) : World :=
  { world with events := #[] }

@[simp] theorem World.silent_report (world : World) (event : Event) : (world.report event).silent = world.silent := rfl

@[simp] theorem World.silent_log (world : World) (level : Level) (source : Source) (message : String) :
    (world.log level source message).silent = world.silent := rfl

namespace World

/-- Nothing but log records came about between the first world and the second. -/
inductive Logged : World → World → Prop where
  | refl (world : World) : Logged world world
  | log {world after : World} (h : Logged world after) (level : Level) (source : Source) (message : String) :
      Logged world (after.log level source message)

theorem Logged.trans {world after later : World} (h : world.Logged after) (hlater : after.Logged later) :
    world.Logged later := by
  induction hlater with
  | refl => exact h
  | log _ level source message ih => exact ih.log level source message

theorem Logged.silent {world after : World} (h : world.Logged after) : after.silent = world.silent := by
  induction h with
  | refl => rfl
  | log _ level source message ih => exact ih

variable {world other : World}

theorem root_eq_of_silent (h : world.silent = other.silent) : world.root = other.root :=
  congrArg (·.root) h

theorem eq_of_silent (h : world.silent = other.silent) : world = { other with events := world.events } := by
  obtain ⟨root, workingDir, home, accounts, faults, events⟩ := world
  obtain ⟨root', workingDir', home', accounts', faults', events'⟩ := other
  cases h
  rfl

theorem locateFrom_of_silent (h : world.silent = other.silent) : world.locateFrom = other.locateFrom := by
  rw [eq_of_silent h]
  rfl

theorem absolute_of_silent (h : world.silent = other.silent) : world.absolute = other.absolute := by
  rw [eq_of_silent h]
  rfl

theorem stat_of_silent (h : world.silent = other.silent) : world.stat = other.stat := by
  rw [eq_of_silent h]
  rfl

theorem lstat_of_silent (h : world.silent = other.silent) : world.lstat = other.lstat := by
  rw [eq_of_silent h]
  rfl

theorem pathExists_of_silent (h : world.silent = other.silent) : world.pathExists = other.pathExists := by
  rw [eq_of_silent h]
  rfl

theorem isDir_of_silent (h : world.silent = other.silent) : world.isDir = other.isDir := by
  rw [eq_of_silent h]
  rfl

theorem isFile_of_silent (h : world.silent = other.silent) : world.isFile = other.isFile := by
  rw [eq_of_silent h]
  rfl

theorem isLink_of_silent (h : world.silent = other.silent) : world.isLink = other.isLink := by
  rw [eq_of_silent h]
  rfl

theorem readFile_of_silent (h : world.silent = other.silent) : world.readFile = other.readFile := by
  rw [eq_of_silent h]
  rfl

theorem list_of_silent (h : world.silent = other.silent) : world.list = other.list := by
  rw [eq_of_silent h]
  rfl

theorem pursue_of_silent (h : world.silent = other.silent)
    (expand : Path → List String → RealPath.Seen → RealPath.Outcome) (components : List String) (path : Path)
    (seen : RealPath.Seen) :
    RealPath.pursue world expand components path seen = RealPath.pursue other expand components path seen := by
  induction components generalizing path seen with
  | nil => rfl
  | cons component rest ih => simp only [RealPath.pursue, lstat_of_silent h, ih]

theorem pursueNested_of_silent (h : world.silent = other.silent) (depth : Nat) :
    RealPath.pursueNested world depth = RealPath.pursueNested other depth := by
  induction depth with
  | zero => rfl
  | succ depth ih =>
      funext path components seen
      rw [RealPath.pursueNested, RealPath.pursueNested, ih, pursue_of_silent h]

theorem resolve_of_silent (h : world.silent = other.silent) : world.resolve = other.resolve := by
  funext path
  unfold World.resolve
  rw [pursueNested_of_silent h, stat_of_silent h, absolute_of_silent h]

end World

namespace Classpath

theorem absoluteOf_of_silent {world other : World} (h : world.silent = other.silent) :
    absoluteOf world = absoluteOf other := by
  have hhome : world.home = other.home := congrArg (·.home) h
  have haccounts : world.accounts = other.accounts := congrArg (·.accounts) h
  funext text shown
  unfold absoluteOf
  rw [World.absolute_of_silent h, hhome, haccounts]

theorem resolveEntries_of_silent {world other : World} (h : world.silent = other.silent) :
    resolveEntries world = resolveEntries other := by
  have hentry : resolveEntry world = resolveEntry other := by
    funext entry
    cases entry <;> simp only [resolveEntry, absoluteOf_of_silent h]
  funext entries
  rw [resolveEntries, resolveEntries, hentry]

theorem silent_rootsFrom (index : Nat) (paths : List Path) (world : World) :
    (rootsFrom index paths world).2.silent = world.silent := by
  induction paths generalizing index world with
  | nil => rfl
  | cons path rest ih =>
      rw [rootsFrom]
      split
      · rfl
      · have h := ih (index + 1) world
        split
        · next heq => simpa [heq] using h
        · exact h
      · rw [ih, World.silent_log]

theorem silent_resolveRoots (world : World) (entries : List Entry) :
    (resolveRoots world entries).2.silent = world.silent := by
  rw [resolveRoots]
  split
  · rfl
  · next paths _ =>
    have h := silent_rootsFrom 0 paths world
    split
    · next heq => simpa [heq] using h
    · next heq => simpa [heq] using h

end Classpath

end ClassDump
