import ClassDump.Walk
import Mathlib.Data.List.Nodup

/-! What a walk sees of a directory: each name once, and each either as a directory or not. -/

namespace ClassDump

theorem Node.nodup_distinct (entries : List (String × Node)) : ((distinct entries).map Prod.fst).Nodup := by
  induction entries with
  | nil => exact List.nodup_nil
  | cons entry rest ih =>
      rw [distinct, List.map_cons, List.nodup_cons]
      constructor
      · intro hmem
        obtain ⟨other, hother, hname⟩ := List.mem_map.mp hmem
        have hne := (List.mem_filter.mp hother).2
        simp only [decide_eq_true_eq] at hne
        exact hne hname
      · exact ih.sublist (List.filter_sublist.map Prod.fst)

theorem Node.nodup_children (node : Node) : (node.children.map Prod.fst).Nodup := by
  cases node with
  | file data => exact List.nodup_nil
  | link target => exact List.nodup_nil
  | special => exact List.nodup_nil
  | dir entries => exact nodup_distinct entries

theorem Node.mem_distinct_iff {entries : List (String × Node)} {name : String} {node : Node} :
    (name, node) ∈ distinct entries ↔ entries.lookup name = some node := by
  induction entries with
  | nil => simp [distinct]
  | cons entry rest ih =>
      obtain ⟨first, found⟩ := entry
      rw [distinct, List.mem_cons, List.mem_filter, ih, List.lookup_cons]
      by_cases hname : name = first
      · subst hname
        simp [eq_comm]
      · have hbeq : (name == first) = false := by simpa using hname
        simp [hname, hbeq]

namespace World

variable {world : World} {text : String} {path : Path} {entries : List (String × Node)} {listed : List Listed}

/-- An entry of a directory as a scan of the path sees it. -/
def seen (world : World) (path : Path) (entry : String × Node) : Listed :=
  ⟨entry.1, entry.2.isDir || entry.2.isLink && (world.stat (path.child entry.1)).toOption.any Node.isDir⟩

theorem list_of_stat (hfault : world.faults.list.lookup text = none) (hlength : text.utf8ByteSize < pathMax)
    (hstat : world.stat path = .ok (.dir entries)) :
    world.list text path = .ok ((Node.dir entries).children.map (world.seen path)) := by
  unfold World.list
  simp only [hfault, if_neg (Nat.not_le.mpr hlength), hstat]
  refine congrArg Except.ok (List.map_congr_left fun entry _ => ?_)
  obtain ⟨name, node⟩ := entry
  cases node with
  | file data => rfl
  | dir inner => rfl
  | special => rfl
  | link target =>
      simp only [seen]
      cases world.stat (path.child name) <;> rfl

theorem list_of_fault {errno : Errno} (h : world.faults.list.lookup text = some errno) :
    world.list text path = .error (.refused errno (some text) none) := by
  unfold World.list
  simp only [h]

/-- A listing that succeeds shows the entries of a directory that the path leads to. -/
theorem exists_entries_of_list (h : world.list text path = .ok listed) :
    world.faults.list.lookup text = none ∧ text.utf8ByteSize < pathMax ∧
      ∃ entries, world.stat path = .ok (.dir entries) ∧ listed = (Node.dir entries).children.map (world.seen path) := by
  have hfault : world.faults.list.lookup text = none := by
    cases hlookup : world.faults.list.lookup text with
    | none => rfl
    | some errno =>
        unfold World.list at h
        simp [hlookup] at h
  have hlength : text.utf8ByteSize < pathMax := by
    refine Nat.not_le.mp fun hlong => ?_
    unfold World.list at h
    simp [hfault, hlong] at h
  obtain ⟨entries, hstat⟩ : ∃ entries, world.stat path = .ok (.dir entries) := by
    cases hstat : world.stat path with
    | error errno =>
        unfold World.list at h
        simp [hfault, Nat.not_le.mpr hlength, hstat] at h
    | ok node =>
        cases node with
        | dir entries => exact ⟨entries, rfl⟩
        | file data =>
            unfold World.list at h
            simp [hfault, Nat.not_le.mpr hlength, hstat] at h
        | link target =>
            unfold World.list at h
            simp [hfault, Nat.not_le.mpr hlength, hstat] at h
        | special =>
            unfold World.list at h
            simp [hfault, Nat.not_le.mpr hlength, hstat] at h
  refine ⟨hfault, hlength, entries, hstat, ?_⟩
  rw [list_of_stat hfault hlength hstat] at h
  exact (Except.ok.inj h).symm

theorem nodup_of_list (h : world.list text path = .ok listed) : (listed.map (·.name)).Nodup := by
  obtain ⟨-, -, entries, -, rfl⟩ := exists_entries_of_list h
  rw [List.map_map]
  exact Node.nodup_children (.dir entries)

end World

namespace Walk

/-- A location is below one of the names of a directory only. -/
theorem eq_of_below_names {relative location : Location} {name other : String} (h : relative ++ [name] <+: location)
    (hother : relative ++ [other] <+: location) : name = other := by
  obtain ⟨rest, rfl⟩ := h
  obtain ⟨more, hmore⟩ := hother
  simp only [List.append_assoc, List.append_cancel_left_eq, List.singleton_append, List.cons.injEq] at hmore
  exact hmore.1.symm

variable {listed : List World.Listed} {condition : World.Listed → Bool} {name : String}

theorem mem_namesWhere_iff :
    name ∈ namesWhere condition listed ↔ ∃ entry ∈ listed, condition entry ∧ entry.name = name := by
  simp [namesWhere, and_assoc]

theorem mem_dirs_iff : name ∈ namesWhere (·.isDir) listed ↔ ⟨name, true⟩ ∈ listed := by
  rw [mem_namesWhere_iff]
  constructor
  · rintro ⟨⟨name, isDir⟩, hentry, hisDir, rfl⟩
    cases hisDir
    exact hentry
  · exact fun h => ⟨_, h, rfl, rfl⟩

theorem mem_files_iff : name ∈ namesWhere (!·.isDir) listed ↔ ⟨name, false⟩ ∈ listed := by
  rw [mem_namesWhere_iff]
  constructor
  · rintro ⟨⟨name, isDir⟩, hentry, hisDir, rfl⟩
    cases isDir with
    | true => cases hisDir
    | false => exact hentry
  · exact fun h => ⟨_, h, rfl, rfl⟩

theorem nodup_namesWhere (h : (listed.map (·.name)).Nodup) : (namesWhere condition listed).Nodup := by
  rw [namesWhere, (List.mergeSort_perm _ _).nodup_iff]
  exact h.sublist (List.filter_sublist.map _)

theorem pairwise_namesWhere (condition : World.Listed → Bool) (listed : List World.Listed) :
    (namesWhere condition listed).Pairwise (· ≤ ·) := by
  have hsorted := @List.pairwise_mergeSort _ (fun first second : String => decide (first ≤ second))
    (fun first second third hfirst hsecond => ?_) (fun first second => ?_) ((listed.filter condition).map (·.name))
  · exact hsorted.imp of_decide_eq_true
  · exact decide_eq_true (String.le_trans (of_decide_eq_true hfirst) (of_decide_eq_true hsecond))
  · simpa using String.le_total first second

theorem pairwise_lt_namesWhere {listed : List World.Listed} (honce : (listed.map (·.name)).Nodup)
    (condition : World.Listed → Bool) : (namesWhere condition listed).Pairwise (· < ·) :=
  (pairwise_namesWhere condition listed).imp₂ (fun _ _ hle hne => Std.lt_of_le_of_ne hle hne) (nodup_namesWhere honce)

/-- No name is that of a directory and of something else. -/
theorem not_mem_namesWhere_not (h : (listed.map (·.name)).Nodup) (hname : name ∈ namesWhere condition listed) :
    name ∉ namesWhere (!condition ·) listed := by
  intro hother
  obtain ⟨entry, hentry, hcondition, rfl⟩ := mem_namesWhere_iff.mp hname
  obtain ⟨other, hother, hnot, hsame⟩ := mem_namesWhere_iff.mp hother
  have heq : other = entry := List.inj_on_of_nodup_map h hother hentry hsame
  rw [heq, hcondition] at hnot
  cases hnot

section Enter

variable {σ ε : Type} {visitor : Visitor σ ε} {root : Path} {levels : Nat} {place : Place} {state next : State σ}

theorem hand_of_proceed {path : Path} {inner : σ} (h : visitor.visit path state.inner = (.ok .proceed, inner)) :
    hand visitor root path state = (.onward, ⟨inner, state.visited + 1⟩) := by
  simp only [hand, h]

/-- An error of the system goes to the handler. -/
theorem hand_of_error {path : Path} {error : OsError} {inner : σ} {handle : Path → OsError → σ → σ}
    (h : visitor.visit path state.inner = (.error (.os error), inner)) (hhandle : visitor.onError = some handle) :
    hand visitor root path state = (.onward, ⟨handle path error inner, state.visited + 1⟩) := by
  simp only [hand, h, hhandle]

theorem hand_of_own {path : Path} {error : ε} {inner : σ}
    (h : visitor.visit path state.inner = (.error (.own error), inner)) :
    hand visitor root path state = (.stopped (.own error), ⟨inner, state.visited + 1⟩) := by
  simp only [hand, h]

/-- All that handing over a path can come to. Only what no handler takes stops the walk. -/
theorem hand_cases (visitor : Visitor σ ε) (root path : Path) (state : State σ) :
    ((visitor.visit path state.inner).1 = .ok .proceed ∧
      hand visitor root path state = (.onward, ⟨(visitor.visit path state.inner).2, state.visited + 1⟩)) ∨
    ((visitor.visit path state.inner).1 = .ok .terminate ∧
      hand visitor root path state =
        (.ended, ⟨visitor.log ("Walk of " ++ root.text ++ " terminated at " ++ path.text)
          (visitor.visit path state.inner).2, state.visited + 1⟩)) ∨
    (∃ error handle, (visitor.visit path state.inner).1 = .error (.os error) ∧ visitor.onError = some handle ∧
      hand visitor root path state =
        (.onward, ⟨handle path error (visitor.visit path state.inner).2, state.visited + 1⟩)) ∨
    ∃ raised, (visitor.visit path state.inner).1 = .error raised ∧
      (visitor.onError.isSome → ∀ error, raised ≠ .os error) ∧
      hand visitor root path state = (.stopped raised, ⟨(visitor.visit path state.inner).2, state.visited + 1⟩) := by
  unfold hand
  cases visitor.visit path state.inner with
  | mk result inner =>
      cases result with
      | ok action =>
          cases action with
          | proceed => exact .inl ⟨rfl, rfl⟩
          | terminate => exact .inr (.inl ⟨rfl, rfl⟩)
      | error raised =>
          cases raised with
          | os error =>
              cases visitor.onError with
              | some handle => exact .inr (.inr (.inl ⟨error, handle, rfl, rfl, rfl⟩))
              | none => exact .inr (.inr (.inr ⟨_, rfl, nofun, rfl⟩))
          | nul => exact .inr (.inr (.inr ⟨_, rfl, fun _ _ => nofun, rfl⟩))
          | own error => exact .inr (.inr (.inr ⟨_, rfl, fun _ _ => nofun, rfl⟩))

/-- Enters the listed directories of a place one after the other, if there are levels left. -/
def enterAll (visitor : Visitor σ ε) (root : Path) : Nat → Place → List World.Listed → State σ → Flow ε × State σ
  | 0, _, _, state => (.onward, state)
  | below + 1, place, listed, state =>
    each
      (fun name state =>
        if !visitor.followLinks && (visitor.world state.inner).isLink (place.path.child name) then (.onward, state)
        else enter visitor root below (place.child name) state)
      (namesWhere (·.isDir) listed) state

theorem enter_of_error {error : OsError} (h : (visitor.world state.inner).list place.text place.path = .error error) :
    enter visitor root levels place state = (.onward, listingFailed visitor place.path error state) := by
  cases levels <;> simp only [enter, h]

theorem enter_of_onward (h : (visitor.world state.inner).list place.text place.path = .ok listed)
    (hfiles : each (fun name => hand visitor root (place.path.child name)) (namesWhere (!·.isDir) listed) state =
      (.onward, next)) :
    enter visitor root levels place state = enterAll visitor root levels place listed next := by
  cases levels with
  | zero =>
      rw [enter, h]
      simp only [hfiles]
      rfl
  | succ below =>
      rw [enter, h]
      simp only [hfiles]
      rfl

theorem enter_of_not_onward {flow : Flow ε} (h : (visitor.world state.inner).list place.text place.path = .ok listed)
    (hfiles : each (fun name => hand visitor root (place.path.child name)) (namesWhere (!·.isDir) listed) state =
      (flow, next)) (hflow : flow ≠ .onward) :
    enter visitor root levels place state = (flow, next) := by
  cases flow with
  | onward => exact absurd rfl hflow
  | ended => cases levels <;> simp only [enter, h, hfiles]
  | stopped raised => cases levels <;> simp only [enter, h, hfiles]

end Enter

section Run

variable {σ ε : Type} {visitor : Visitor σ ε} {root : Path}

def conclusion : Flow ε × State σ → Except (Raised ε) Nat × σ
  | (.stopped raised, state) => (.error raised, state.inner)
  | (_, state) => (.ok state.visited, state.inner)

theorem inner_conclusion (result : Flow ε × State σ) : (conclusion result).2 = result.2.inner := by
  obtain ⟨flow, state⟩ := result
  cases flow <;> rfl

theorem conclusion_eq_error_iff {result : Flow ε × State σ} {raised : Raised ε} :
    (conclusion result).1 = .error raised ↔ result.1 = .stopped raised := by
  obtain ⟨flow, state⟩ := result
  cases flow <;> simp [conclusion]

theorem run_of_hasNul (hnul : root.hasNul = true) (inner : σ) : run visitor root inner = (.error .nul, inner) := by
  rw [run, if_pos hnul]

theorem run_eq_conclusion (hnul : root.hasNul = false) (inner : σ) :
    run visitor root inner = conclusion (enter visitor root pathMax (.ofPath root) ⟨inner, 0⟩) := by
  rw [run, hnul, if_neg Bool.false_ne_true]
  cases enter visitor root pathMax (.ofPath root) ⟨inner, 0⟩ with
  | mk flow state => cases flow <;> rfl

theorem noNul_of_run {inner after : σ} {count : Nat} (h : run visitor root inner = (.ok count, after)) :
    root.hasNul = false := by
  rw [Bool.eq_false_iff]
  intro hnul
  rw [run_of_hasNul hnul] at h
  cases h

end Run

end Walk
end ClassDump
