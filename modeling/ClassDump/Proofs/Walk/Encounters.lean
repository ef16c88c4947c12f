import ClassDump.Proofs.Walk.Preorder

/-! All that a walk comes to, whether or not it follows links. From its root it comes to every directory that is shown as
one where it lists a directory, and so to the entries of all these directories and to those that cannot be listed. They
come in the order of their places, which is the only one. -/

namespace ClassDump.Walk

variable {world : World} {followLinks : Bool} {root : Path}

/-- From the directory at the first location a walk comes to that at the second, through directories that it lists. -/
inductive ComesTo (world : World) (followLinks : Bool) (root : Path) : Location → Location → Prop where
  | here (relative : Location) : ComesTo world followLinks root relative relative
  | down {above relative : Location} {name : String} {listed : List World.Listed}
      (hlist : world.list ((Place.ofPath root).descend above).text (root.descend above) = .ok listed)
      (hname : ⟨name, true⟩ ∈ listed)
      (hlink : followLinks = true ∨ world.isLink (root.descend (above ++ [name])) = false)
      (hrest : ComesTo world followLinks root (above ++ [name]) relative) : ComesTo world followLinks root above relative

/-- From the directory at a location a walk has this encounter: something other than a directory, shown where it lists a
directory, or a directory that cannot be listed. -/
def Meets (world : World) (followLinks : Bool) (root : Path) (above : Location) : Encounter → Prop
  | .entry relative => ∃ directory name listed, relative = directory ++ [name] ∧
      ComesTo world followLinks root above directory ∧
      world.list ((Place.ofPath root).descend directory).text (root.descend directory) = .ok listed ∧
      ⟨name, false⟩ ∈ listed
  | .unlisted relative error => ComesTo world followLinks root above relative ∧
      world.list ((Place.ofPath root).descend relative).text (root.descend relative) = .error error

/-- All that a walk comes to, each once, in the order in which it does: entries in pre-order, and what cannot be listed
where it would be entered. -/
structure IsEncounterOrder (world : World) (followLinks : Bool) (root : Path) (encounters : List Encounter) : Prop where
  pairwise : encounters.Pairwise fun encounter next => Precedes encounter.spot next.spot
  mem_iff : ∀ encounter, encounter ∈ encounters ↔ Meets world followLinks root [] encounter

theorem IsEncounterOrder.unique {encounters others : List Encounter}
    (h : IsEncounterOrder world followLinks root encounters) (hothers : IsEncounterOrder world followLinks root others) :
    encounters = others :=
  Precedes.eq_of_pairwise_on Encounter.spot h.pairwise hothers.pairwise fun encounter =>
    (h.mem_iff encounter).trans (hothers.mem_iff encounter).symm

variable {above directory : Location} {levels : Nat} {encounter : Encounter}

theorem Meets.down {name : String} {listed : List World.Listed}
    (hlist : world.list ((Place.ofPath root).descend above).text (root.descend above) = .ok listed)
    (hname : ⟨name, true⟩ ∈ listed) (hlink : followLinks = true ∨ world.isLink (root.descend (above ++ [name])) = false)
    (h : Meets world followLinks root (above ++ [name]) encounter) : Meets world followLinks root above encounter := by
  cases encounter with
  | entry relative =>
      obtain ⟨directory, last, shown, hrelative, hcomes, hshown⟩ := h
      exact ⟨directory, last, shown, hrelative, .down hlist hname hlink hcomes, hshown⟩
  | unlisted relative error => exact ⟨.down hlist hname hlink h.1, h.2⟩

theorem meets_of_mem_itinerary (h : encounter ∈ itinerary world followLinks root levels above) :
    Meets world followLinks root above encounter := by
  induction levels using Nat.strongRecOn generalizing above with
  | _ levels ih =>
    obtain ⟨error, herror, rfl⟩ | ⟨listed, hlist, ⟨name, hname, rfl⟩ | ⟨below, rfl, name, hname, hlink, hbelow⟩⟩ :=
      mem_encounters_iff.mp h
    · exact ⟨.here above, herror⟩
    · exact ⟨above, name, listed, rfl, .here above, hlist, mem_files_iff.mp hname⟩
    · refine .down hlist (mem_dirs_iff.mp hname) ?_ (ih below (Nat.lt_succ_self below) hbelow)
      cases followLinks with
      | true => exact .inl rfl
      | false => exact .inr hlink

/-- What comes from a directory on that the walk comes to is on the itinerary, with as many levels left as names fit
into a path. -/
theorem exists_levels_of_comesTo (hlegal : world.Legal) (h : ComesTo world followLinks root above directory)
    (hlevels : pathMax ≤ ((Place.ofPath root).descend above).text.utf8ByteSize + levels) :
    ∃ left, pathMax ≤ ((Place.ofPath root).descend directory).text.utf8ByteSize + left ∧
      ∀ encounter ∈ itinerary world followLinks root left directory,
        encounter ∈ itinerary world followLinks root levels above := by
  induction h generalizing levels with
  | here relative => exact ⟨levels, hlevels, fun _ hmem => hmem⟩
  | @down above relative name listed hlist hname hlink _ ih =>
      -- what is listed has a short path, so there is a level left
      obtain ⟨-, hshort, -⟩ := World.exists_entries_of_list hlist
      obtain ⟨below, rfl⟩ := Nat.exists_eq_succ_of_ne_zero (show levels ≠ 0 by omega)
      have hnamed : LegalName name := World.legalName_of_list hlegal.root hlist hname
      have hlonger := Place.utf8ByteSize_child ((Place.ofPath root).descend above) hnamed.ne_empty
      rw [← Place.descend_concat] at hlonger
      have hdeeper : pathMax ≤ ((Place.ofPath root).descend (above ++ [name])).text.utf8ByteSize + below := by omega
      obtain ⟨left, hleft, hsub⟩ := ih hdeeper
      refine ⟨left, hleft, fun encounter hmem => ?_⟩
      refine mem_encounters_iff.mpr (.inr ⟨listed, hlist, .inr ⟨below, rfl, name, mem_dirs_iff.mpr hname, ?_,
        hsub encounter hmem⟩⟩)
      rcases hlink with rfl | hlink
      · rfl
      · rw [hlink, Bool.and_false]

/-- The itinerary from a directory on has all that the walk comes to from there. -/
theorem mem_itinerary_iff_meets (hlegal : world.Legal)
    (hlevels : pathMax ≤ ((Place.ofPath root).descend above).text.utf8ByteSize + levels) :
    encounter ∈ itinerary world followLinks root levels above ↔ Meets world followLinks root above encounter := by
  refine ⟨meets_of_mem_itinerary, fun h => ?_⟩
  cases encounter with
  | entry relative =>
      obtain ⟨directory, name, listed, rfl, hcomes, hlist, hname⟩ := h
      obtain ⟨left, -, hsub⟩ := exists_levels_of_comesTo hlegal hcomes hlevels
      exact hsub _ (mem_encounters_iff.mpr (.inr ⟨listed, hlist, .inl ⟨name, mem_files_iff.mpr hname, rfl⟩⟩))
  | unlisted relative error =>
      obtain ⟨hcomes, hlist⟩ := h
      obtain ⟨left, -, hsub⟩ := exists_levels_of_comesTo hlegal hcomes hlevels
      exact hsub _ (mem_encounters_iff.mpr (.inl ⟨error, hlist, rfl⟩))

/-- The itinerary of a walk is all that it comes to, in order. -/
theorem isEncounterOrder_itinerary (hlegal : world.Legal) (followLinks : Bool) (root : Path) :
    IsEncounterOrder world followLinks root (itinerary world followLinks root pathMax []) where
  pairwise := pairwise_spots world followLinks root pathMax []
  mem_iff _ := mem_itinerary_iff_meets hlegal (Nat.le_add_left _ _)

end ClassDump.Walk
