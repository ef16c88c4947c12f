import ClassDump.Proofs.Path.Written
import ClassDump.Proofs.Store.Slot
import ClassDump.Store.RealPath

/-! Straight paths. Such a path goes down from the root, or out of the working directory by double dots and then down,
and no link stands on its way: it is its own real path. -/

namespace ClassDump

/-- The location so many levels up; above the root there is no more. -/
def levelsUp (location : Location) : Nat → Location
  | 0 => location
  | levels + 1 => levelsUp location.dropLast levels

theorem foldl_step_replicate_up (location : Location) (levels : Nat) :
    (List.replicate levels "..").foldl Path.step location = levelsUp location levels := by
  induction levels generalizing location with
  | zero => rfl
  | succ levels ih => exact ih location.dropLast

theorem dropLast_levelsUp (location : Location) (levels : Nat) :
    (levelsUp location levels).dropLast = levelsUp location (levels + 1) := by
  induction levels generalizing location with
  | zero => rfl
  | succ levels ih => exact ih location.dropLast

namespace World

/-- The path goes straight to the location, if directories lead there. -/
inductive Straight (world : World) : Path → Location → Prop
  | root {there : Location} (hnames : ".." ∉ there) : Straight world ⟨.root, there⟩ there
  | here {ups : Nat} {names : List String} (hups : world.workingDir.removed.length ≤ ups) (hnames : ".." ∉ names) :
      Straight world ⟨.here, List.replicate ups ".." ++ names⟩
        (levelsUp world.workingDir.location (ups - world.workingDir.removed.length) ++ names)

end World

/-- Out of the working directory one more double dot leads up. -/
theorem RealPath.up_replicate (ups : Nat) :
    RealPath.up ⟨.here, List.replicate ups ".."⟩ = ⟨.here, List.replicate (ups + 1) ".."⟩ := by
  cases ups with
  | zero => rfl
  | succ ups =>
      have hlast : List.replicate (ups + 1) ".." = List.replicate ups ".." ++ [".."] := List.replicate_succ'
      have hmore : List.replicate (ups + 1 + 1) ".." = List.replicate (ups + 1) ".." ++ [".."] := List.replicate_succ'
      unfold RealPath.up
      rw [hmore, hlast, List.getLast?_concat]
      rfl

/-- Double dots in front can be told from the names after them. -/
theorem replicate_up_append_inj {ups others : Nat} {names more : List String} (hnames : ".." ∉ names)
    (hmore : ".." ∉ more) (h : List.replicate ups ".." ++ names = List.replicate others ".." ++ more) :
    ups = others ∧ names = more := by
  induction ups generalizing others with
  | zero =>
      cases others with
      | zero => exact ⟨rfl, h⟩
      | succ others =>
          rw [List.replicate_zero, List.nil_append] at h
          exact absurd (h ▸ List.mem_append_left more (List.mem_replicate.mpr ⟨nofun, rfl⟩)) hnames
  | succ ups ih =>
      cases others with
      | zero =>
          rw [List.replicate_zero, List.nil_append] at h
          exact absurd (h ▸ List.mem_append_left names (List.mem_replicate.mpr ⟨nofun, rfl⟩)) hmore
      | succ others =>
          rw [List.replicate_succ, List.replicate_succ, List.cons_append, List.cons_append] at h
          obtain ⟨hups, hsame⟩ := ih (List.cons.inj h).2
          exact ⟨congrArg Nat.succ hups, hsame⟩

namespace World.Straight

variable {world : World} {path : Path} {there other : Location} {name : String}

theorem unique (h : world.Straight path there) (hother : world.Straight path other) : there = other := by
  cases h with
  | root hnames =>
      cases hother
      rfl
  | @here ups names hups hnames =>
      generalize hpath : (⟨.here, List.replicate ups ".." ++ names⟩ : Path) = path at hother
      cases hother with
      | root => cases hpath
      | @here others more _ hmore =>
          obtain ⟨rfl, rfl⟩ := replicate_up_append_inj hnames hmore (congrArg Path.parts hpath)
          rfl

theorem child (h : world.Straight path there) (hname : name ≠ "..") :
    world.Straight (path.child name) (there ++ [name]) := by
  have hlast : ∀ {names : List String}, ".." ∉ names → ".." ∉ names ++ [name] := fun hnames hmem =>
    (List.mem_append.mp hmem).elim hnames fun hmem => hname (List.mem_singleton.mp hmem).symm
  cases h with
  | root hnames => exact .root (hlast hnames)
  | @here ups names hups hnames =>
      have hchild := @Straight.here world ups (names ++ [name]) hups (hlast hnames)
      rwa [← List.append_assoc, ← List.append_assoc] at hchild

/-- The target of a link is pursued from a straight path. -/
theorem targetStart (h : world.Straight path there) (target : String) :
    world.Straight (if Text.startsWith target "/" then ⟨.root, []⟩ else path) (Node.targetStart target there) := by
  unfold Node.targetStart
  split
  · exact .root List.not_mem_nil
  · exact h

theorem up (h : world.Straight path there) : world.Straight (RealPath.up path) there.dropLast := by
  have hinit : ∀ {names : List String}, ".." ∉ names → ".." ∉ names.dropLast := fun hnames hmem =>
    hnames ((List.dropLast_sublist _).mem hmem)
  cases h with
  | root hnames =>
      have hup : RealPath.up ⟨.root, there⟩ = ⟨.root, there.dropLast⟩ := by
        unfold RealPath.up
        split
        · next hanchor => cases hanchor
        · next hlast => exact absurd (List.mem_of_getLast? hlast) hnames
        · rfl
      rw [hup]
      exact .root (hinit hnames)
  | @here ups names hups hnames =>
      rcases List.eq_nil_or_concat names with rfl | ⟨before, last, rfl⟩
      · have hup : RealPath.up ⟨.here, List.replicate ups ".." ++ []⟩ =
            ⟨.here, List.replicate (ups + 1) ".." ++ []⟩ := by
          rw [List.append_nil, List.append_nil, RealPath.up_replicate]
        have hthere : (levelsUp world.workingDir.location (ups - world.workingDir.removed.length) ++ []).dropLast =
            levelsUp world.workingDir.location (ups + 1 - world.workingDir.removed.length) ++ [] := by
          rw [List.append_nil, List.append_nil, dropLast_levelsUp, Nat.sub_add_comm hups]
        rw [hup, hthere]
        exact .here (Nat.le_succ_of_le hups) hnames
      · rw [List.concat_eq_append] at hnames ⊢
        have hlast : last ≠ ".." := by
          rintro rfl
          exact hnames (List.mem_append_right before List.mem_cons_self)
        have hup : RealPath.up ⟨.here, List.replicate ups ".." ++ (before ++ [last])⟩ =
            ⟨.here, List.replicate ups ".." ++ before⟩ := by
          rw [← List.append_assoc]
          unfold RealPath.up
          rw [List.getLast?_concat]
          split
          · next hnone _ => cases hnone
          · next hsame => exact absurd (Option.some.inj hsame) hlast
          · simp [Path.parent]
        rw [hup, ← List.append_assoc, List.dropLast_concat]
        exact .here hups fun hmem => hnames (List.mem_append_left _ hmem)

section Legal

variable (hlegal : world.Legal)
include hlegal

/-- A straight path to a directory leads there. -/
theorem leads (h : world.Straight path there) (hdir : world.root.HasDir there) : world.Leads 0 path there := by
  have hnames : ∀ {above names : Location}, world.root.HasDir (above ++ names) →
      world.root.Reach 0 above names (above ++ names) := fun hdir =>
    Node.reach_names (fun name hname => (hlegal.names hdir name hname).isName) hdir rfl
  cases h with
  | root => exact ⟨there, rfl, hnames hdir⟩
  | @here ups names hups =>
      have hway : ∀ (location : Location) (levels : Nat), world.root.HasDir location →
          world.root.HasDir (levelsUp location levels ++ names) →
          world.root.Reach 0 location (List.replicate levels ".." ++ names) (levelsUp location levels ++ names) := by
        intro location levels hlocation hdir
        induction levels generalizing location with
        | zero => exact hnames hdir
        | succ levels ih =>
            exact .up hlocation (ih location.dropLast (Node.hasDir_dropLast hlocation) hdir)
      refine ⟨List.replicate (ups - world.workingDir.removed.length) ".." ++ names, ?_,
        hway _ _ hlegal.workingDir hdir⟩
      change List.replicate ups ".." ++ names = List.replicate world.workingDir.removed.length ".." ++ _
      rw [← List.append_assoc, List.replicate_append_replicate, Nat.add_sub_of_le hups]

/-- The absolute form of a straight path has just the names of the location, but there is none for a relative path when
the working directory was removed. -/
theorem absolute (h : world.Straight path there) :
    world.absolute path = .ok ⟨.root, there⟩ ∨
      world.workingDir.removed ≠ [] ∧ world.absolute path = .error (.refused .noEntry none none) := by
  cases h with
  | root hnames => exact .inl (congrArg (fun parts => Except.ok (Path.mk .root parts)) (Path.collapse_eq_self hnames))
  | @here ups names hups hnames =>
      unfold World.absolute World.currentDir
      cases hremoved : world.workingDir.removed with
      | cons first rest => exact .inr ⟨nofun, rfl⟩
      | nil =>
          refine .inl ?_
          have hlocation : ".." ∉ world.workingDir.location := fun hmem =>
            (hlegal.root _ _ hlegal.workingDir ".." hmem).isName.2.1 rfl
          have hall : Path.collapse (world.workingDir.location ++ (List.replicate ups ".." ++ names)) =
              levelsUp world.workingDir.location ups ++ names := by
            rw [Path.collapse, List.foldl_append, List.foldl_append, Path.foldl_step_eq_append hlocation,
              List.nil_append, foldl_step_replicate_up, Path.foldl_step_eq_append hnames]
          simp only [List.length_nil, Nat.sub_zero]
          rw [← hall]
          rfl

end Legal

end World.Straight
end ClassDump
