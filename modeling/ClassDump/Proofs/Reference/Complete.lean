import ClassDump.Proofs.Reference.Exact

/-! What a reference set leaves out. A directory of the local build that cannot be listed is passed over, with all that
is below it, and the build goes on. All other local classes have their keys in the set, and the build fails only for one
of them or because there are none. -/

namespace ClassDump.Reference

open Classpath

variable {world : World} {entries roots : List Path} {root : Path} {relative : Location} {progress : Bool}

/-- A local class that a scan comes to: no directory above it is one that cannot be listed. -/
def IsVisibleClass (world : World) (root : Path) (relative : Location) : Prop :=
  IsLocalClass world root relative ∧ Walk.Visible (Walk.Unlisted world root) relative

theorem mem_flatMap_classesBelow_iff (hlegal : world.Legal) (hroots : ∀ root ∈ roots, root.hasNul = false) :
    relative ∈ roots.flatMap (classesBelow world) ↔ ∃ root ∈ roots, IsVisibleClass world root relative := by
  rw [List.mem_flatMap]
  exact exists_congr fun root => and_congr_right fun hroot => mem_classesBelow_iff hlegal (hroots root hroot)

/-- A reference set that is built has the keys of all classes that are not behind a directory that cannot be listed, and
no other key. The build fails for one of these classes only or because there are none, unless there is a root that
cannot be asked about. -/
theorem build_complete (hlegal : world.Legal) (entries roots : List Path) (progress : Bool) :
    (∀ references, (build (Pipeline.referenceTask progress) roots (.along entries) world).1 = .ok references →
      (∀ root ∈ roots, ∀ relative, IsVisibleClass world root relative →
        ∃ key, IsKeyAt world entries relative key ∧ references.contains key = true) ∧
      ∀ key, references.contains key = true →
        ∃ root ∈ roots, ∃ relative, IsVisibleClass world root relative ∧ IsKeyAt world entries relative key) ∧
    ∀ failure, (build (Pipeline.referenceTask progress) roots (.along entries) world).1 = .error failure →
      (∃ root ∈ roots, root.hasNul = true) ∨
      (failure = .emptyReferenceSet ∧ ∀ root ∈ roots, ∀ relative, ¬IsVisibleClass world root relative) ∨
      ∃ root ∈ roots, ∃ relative, IsVisibleClass world root relative ∧
        keyAt agentId (fun resource => firstAnswer world resource entries) relative = .error failure := by
  refine ⟨fun references h => ?_, fun failure h => ?_⟩
  · have hroots := noNul_of_build h
    rw [build_along_fst rfl hroots] at h
    obtain ⟨hall, hcontains⟩ := contains_of_setOf h
    refine ⟨fun root hroot relative hclass => ?_, fun key hkey => ?_⟩
    · have hmem := (mem_flatMap_classesBelow_iff hlegal hroots).mpr ⟨root, hroot, hclass⟩
      obtain ⟨⟨key⟩, hkey⟩ := hall relative hmem
      exact ⟨key, ((keyAt_eq_ok_iff_isKeyAt hlegal hclass.1.1).mp hkey).2, (hcontains key).mpr ⟨relative, hmem, hkey⟩⟩
    · obtain ⟨relative, hmem, hkey⟩ := (hcontains key).mp hkey
      obtain ⟨root, hroot, hclass⟩ := (mem_flatMap_classesBelow_iff hlegal hroots).mp hmem
      exact ⟨root, hroot, relative, hclass, ((keyAt_eq_ok_iff_isKeyAt hlegal hclass.1.1).mp hkey).2⟩
  · by_cases hnul : ∃ root ∈ roots, root.hasNul = true
    · exact .inl hnul
    · have hroots : ∀ root ∈ roots, root.hasNul = false := by simpa using hnul
      have hmem := fun relative => @mem_flatMap_classesBelow_iff _ _ relative hlegal hroots
      rw [build_along_fst rfl hroots] at h
      rcases error_of_setOf h with ⟨rfl, hempty⟩ | ⟨relative, hrelative, hkey⟩
      · refine .inr (.inl ⟨rfl, fun root hroot relative hclass => ?_⟩)
        have hfound := (hmem relative).mpr ⟨root, hroot, hclass⟩
        rw [hempty] at hfound
        exact absurd hfound List.not_mem_nil
      · obtain ⟨root, hroot, hclass⟩ := (hmem relative).mp hrelative
        exact .inr (.inr ⟨root, hroot, relative, hclass, hkey⟩)

/-- A local build with a package that cannot be listed. -/
def withClosedPackage : World where
  root := .dir [("classes", .dir [("K.class", .file [1]), ("p", .dir [("L.class", .file [2])])])]
  workingDir := ⟨[], []⟩
  home := "/"
  faults := { list := [("/classes/p", ⟨13⟩)] }

theorem legal_withClosedPackage : withClosedPackage.Legal := ⟨Node.legal_of_flatten (by decide +kernel), rfl⟩

/-- The class outside of the package is in the reference set. -/
theorem build_complete_withClosedPackage :
    let root : Path := ⟨.root, ["classes"]⟩
    ∃ references, (build (Pipeline.referenceTask false) [root] (.along [root]) withClosedPackage).1 = .ok references ∧
      ∃ key, IsKeyAt withClosedPackage [root] ["K.class"] key ∧ references.contains key = true := by
  intro root
  have hok : (build (Pipeline.referenceTask false) [root] (.along [root]) withClosedPackage).1 =
      .ok (ReferenceSet.ofList [keyOf "K.class" [1]]) := by
    decide +kernel
  obtain ⟨hall, -⟩ := (build_complete legal_withClosedPackage [root] [root] false).1 _ hok
  have hclass : IsLocalClass withClosedPackage root ["K.class"] :=
    ⟨⟨["classes"], .file [1], ⟨by decide +kernel, rfl⟩, rfl, rfl, by decide⟩, by decide +kernel⟩
  exact ⟨_, hok, hall root List.mem_cons_self ["K.class"] ⟨hclass, by decide +kernel⟩⟩

/-- The class in the package is missing, though nothing else is wrong with it. -/
theorem build_incomplete_withClosedPackage :
    let root : Path := ⟨.root, ["classes"]⟩
    let key := keyOf "p/L.class" [2]
    ∃ references, (build (Pipeline.referenceTask false) [root] (.along [root]) withClosedPackage).1 = .ok references ∧
      Walk.Unlisted withClosedPackage root ["p"] ∧ IsLocalClass withClosedPackage root ["p", "L.class"] ∧
      IsKeyAt withClosedPackage [root] ["p", "L.class"] key ∧ references.contains key = false := by
  intro root key
  refine ⟨ReferenceSet.ofList [keyOf "K.class" [1]], by decide +kernel, by decide +kernel, ?_, ?_, by decide +kernel⟩
  · exact ⟨⟨["classes"], .file [2], ⟨by decide +kernel, rfl⟩, rfl, rfl, by decide⟩, by decide +kernel⟩
  · exact ⟨[2], by decide +kernel, by decide +kernel⟩

end ClassDump.Reference
