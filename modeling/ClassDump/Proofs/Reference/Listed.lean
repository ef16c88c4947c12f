import ClassDump.Proofs.Reference.Sequence
import ClassDump.Proofs.Walk.Preorder

/-! What can stop the scan of a class directory. Whatever its listings show and whatever the classpath answers, the scan
stops with a failure that is announced, with that of a damaged or unsupported archive which is asked for one of its
classes, or because one of its entries is named by the ending of a class file alone. -/

namespace ClassDump

open Classpath

namespace Reference

variable {base world : World} {entries : List Path} {root : Path} {relative : Location} {failure : Failure}
  {progress : Bool}

/-- A listing below the class directory shows, at the relative location, something other than a directory. -/
def IsListedBelow (world : World) (root : Path) (relative : Location) : Prop :=
  ∃ above name listed, relative = above ++ [name] ∧
    world.list ((Walk.Place.ofPath root).descend above).text (root.descend above) = .ok listed ∧ ⟨name, false⟩ ∈ listed

/-- What stops the scan of a class directory without an announcement: an archive fails otherwise than by a refusal of
the system, or a class file is named by the ending alone. -/
inductive Unannounced (world : World) (entries : List Path) (root : Path) : Failure → Prop where
  | archive (relative : Location) (error : Archive.Error) (hlisted : IsListedBelow world root relative)
      (hclass : isClassFile (root.descend relative) = true)
      (hanswer : firstAnswer world (Path.mk .here relative).text entries = .error (.archive error))
      (hrefusal : (Failure.archive error).refusal? = none) : Unannounced world entries root (.archive error)
  | nameless (hlisted : IsListedBelow world root [classSuffix]) : Unannounced world entries root (.key .emptyName)

/-- What is handed over from a location on is listed below the class directory, by names that a tree can have. -/
theorem isListedBelow_of_mem_itinerary (hlegal : base.Legal) {followLinks : Bool} {levels : Nat} {above : Location}
    (hnames : ∀ name ∈ above, LegalName name)
    (h : relative ∈ Walk.entriesOf (Walk.itinerary base followLinks root levels above)) :
    IsListedBelow base root relative ∧ ∀ name ∈ relative, LegalName name := by
  induction levels using Nat.strongRecOn generalizing above with
  | _ levels ih =>
    obtain ⟨listed, hlist, hfound⟩ := Walk.mem_itinerary_iff.mp h
    have hlonger : ∀ entry ∈ listed, ∀ name ∈ above ++ [entry.name], LegalName name := fun entry hentry =>
      List.forall_mem_append.mpr
        ⟨hnames, List.forall_mem_singleton.mpr (World.legalName_of_list hlegal.root hlist hentry)⟩
    rcases hfound with ⟨name, hname, rfl⟩ | ⟨below, rfl, name, hname, -, hbelow⟩
    · obtain ⟨entry, hentry, -, rfl⟩ := Walk.mem_namesWhere_iff.mp hname
      exact ⟨⟨above, entry.name, listed, rfl, hlist, Walk.mem_files_iff.mp hname⟩, hlonger entry hentry⟩
    · obtain ⟨entry, hentry, -, rfl⟩ := Walk.mem_namesWhere_iff.mp hname
      exact ih below (Nat.lt_succ_self below) (hlonger entry hentry) hbelow

/-- A class file that is listed has a key, or the failure is announced or one of the others. -/
theorem announced_of_keyAt (hlisted : IsListedBelow base root relative) (hnames : ∀ name ∈ relative, LegalName name)
    (hclass : isClassFile (root.descend relative) = true)
    (h : keyAt agentId (fun resource => firstAnswer base resource entries) relative = .error failure) :
    failure.isPipeline = true ∨ Unannounced base entries root failure := by
  unfold keyAt at h
  dsimp only at h
  cases hanswer : firstAnswer base (Path.mk .here relative).text entries with
  | error found =>
      rw [hanswer, keyBy] at h
      split at h
      · cases h
        exact .inl rfl
      · next hrefusal =>
        cases h
        rcases error_of_firstAnswer hanswer with ⟨error, rfl⟩ | ⟨error, rfl⟩
        · cases hrefusal
        · exact .inr (.archive relative error hlisted hclass hanswer hrefusal)
  | ok found =>
      rw [hanswer] at h
      cases found with
      | none =>
          cases h
          exact .inl rfl
      | some data =>
          have hne : relative ≠ [] := by
            obtain ⟨above, name, -, rfl, -⟩ := hlisted
            exact List.append_ne_nil_of_right_ne_nil above (List.cons_ne_nil name [])
          by_cases hnamed : relative = [classSuffix]
          · subst hnamed
            rw [keyBy, of_binaryNameOf_classSuffix] at h
            cases h
            exact .inr (.nameless hlisted)
          · have hkey := @of_binaryNameOf _ data (endsWith_text_of_isClassFile hne hclass)
              (text_ne_classSuffix hnames hne hnamed)
            rw [keyBy, hkey] at h
            cases h

/-- What keeps the reference set from being built is announced or one of the other failures. -/
theorem announced_of_build (hlegal : base.Legal) {roots : List Path} (hroots : ∀ root ∈ roots, root.hasNul = false)
    (hsilent : world.silent = base.silent)
    (h : (build (Pipeline.referenceTask progress) roots (.along entries) world).1 = .error failure) :
    failure.isPipeline = true ∨ ∃ root ∈ roots, Unannounced base entries root failure := by
  rw [build_along_fst hsilent hroots] at h
  rcases error_of_setOf h with ⟨rfl, -⟩ | ⟨relative, hrelative, hkey⟩
  · exact .inl rfl
  · obtain ⟨root, hroot, hbelow⟩ := List.mem_flatMap.mp hrelative
    obtain ⟨hentry, hclass⟩ := List.mem_filter.mp hbelow
    obtain ⟨hlisted, hnames⟩ := isListedBelow_of_mem_itinerary hlegal (fun _ hname => absurd hname List.not_mem_nil) hentry
    exact (announced_of_keyAt hlisted hnames hclass hkey).imp_right fun hcause => ⟨root, hroot, hcause⟩

end Reference
end ClassDump
