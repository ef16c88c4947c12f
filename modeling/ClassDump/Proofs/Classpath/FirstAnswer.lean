import ClassDump.Proofs.Classpath.Answer

/-! The answer of a classpath: that of its first entry which has the resource. A look-up that keeps the archives it has
opened answers just so, as long as no file changes. -/

namespace ClassDump

namespace Classpath

variable {base world : World} {lookup : Lookup} {resource : String} {path entry : Path} {paths : List Path}

def firstAnswer (world : World) (resource : String) : List Path → Except Failure (Option Bytes)
  | [] => .ok none
  | entry :: rest =>
    match answerOf world resource entry with
    | .ok none => firstAnswer world resource rest
    | answer => answer

/-- The first answer is that of an entry before which no other has the resource. -/
theorem firstAnswer_eq_some_iff {data : Bytes} : firstAnswer world resource paths = .ok (some data) ↔
    ∃ before entry after, paths = before ++ entry :: after ∧
      (∀ other ∈ before, answerOf world resource other = .ok none) ∧
      answerOf world resource entry = .ok (some data) := by
  induction paths with
  | nil => simp [firstAnswer]
  | cons first rest ih =>
      rw [firstAnswer]
      constructor
      · intro h
        split at h
        · next hnone =>
          obtain ⟨before, entry, after, rfl, hbefore, hentry⟩ := ih.mp h
          refine ⟨first :: before, entry, after, rfl, fun other hother => ?_, hentry⟩
          rcases List.mem_cons.mp hother with rfl | hother
          · exact hnone
          · exact hbefore other hother
        · exact ⟨[], first, rest, rfl, fun _ hother => absurd hother List.not_mem_nil, h⟩
      · rintro ⟨before, entry, after, hpaths, hbefore, hentry⟩
        cases before with
        | nil =>
            obtain ⟨rfl, rfl⟩ := List.cons.inj hpaths
            rw [hentry]
        | cons other before =>
            obtain ⟨rfl, rfl⟩ := List.cons.inj hpaths
            rw [hbefore first List.mem_cons_self]
            exact ih.mpr ⟨before, entry, after, rfl, fun other hother =>
              hbefore other (List.mem_cons_of_mem _ hother), hentry⟩

theorem error_of_firstAnswer {failure : Failure} (h : firstAnswer world resource paths = .error failure) :
    (∃ error, failure = .ofOs error) ∨ ∃ error, failure = .archive error := by
  induction paths with
  | nil => cases h
  | cons entry rest ih =>
      unfold firstAnswer at h
      split at h
      · exact ih h
      · exact error_of_answerOf h

/-- What an entry has is found whatever comes after it. -/
theorem firstAnswer_append_of_some {data : Bytes} (h : firstAnswer world resource paths = .ok (some data))
    (more : List Path) : firstAnswer world resource (paths ++ more) = .ok (some data) := by
  obtain ⟨before, entry, after, rfl, hbefore, hentry⟩ := firstAnswer_eq_some_iff.mp h
  exact firstAnswer_eq_some_iff.mpr ⟨before, entry, after ++ more, by simp, hbefore, hentry⟩

/-- Every entry that a look-up comes to has the resource or misses it, and none fails. -/
def Answers (world : World) (resource : String) (paths : List Path) : Prop :=
  ∀ before entry after, paths = before ++ entry :: after →
    (∀ other ∈ before, answerOf world resource other = .ok none) → ∃ found, answerOf world resource entry = .ok found

theorem answers_of_forall (h : ∀ entry ∈ paths, ∃ found, answerOf world resource entry = .ok found) :
    Answers world resource paths := by
  rintro before entry after rfl -
  exact h entry (by simp)

/-- Where no entry fails there is a first answer. It is a miss only if every entry misses. -/
theorem exists_firstAnswer (h : Answers world resource paths) :
    ∃ found, firstAnswer world resource paths = .ok found ∧
      (found = none → ∀ entry ∈ paths, answerOf world resource entry = .ok none) := by
  induction paths with
  | nil => exact ⟨none, rfl, fun _ _ hentry => absurd hentry List.not_mem_nil⟩
  | cons first rest ih =>
      obtain ⟨found, hfirst⟩ := h [] first rest rfl fun _ hother => absurd hother List.not_mem_nil
      unfold firstAnswer
      rw [hfirst]
      cases found with
      | some data => exact ⟨some data, rfl, fun hmiss => absurd hmiss (Option.some_ne_none data)⟩
      | none =>
          have hrest : Answers world resource rest := by
            rintro before entry after rfl hbefore
            exact h (first :: before) entry after rfl (List.forall_mem_cons.mpr ⟨hfirst, hbefore⟩)
          obtain ⟨found, hfound, hnone⟩ := ih hrest
          exact ⟨found, hfound, fun hmiss => List.forall_mem_cons.mpr ⟨hfirst, hnone hmiss⟩⟩

/-- A class directory does not miss what may be a file in it. -/
theorem answerOf_ne_none (hdir : world.isDir entry = .ok true)
    (hfile : world.isFile (entry.below (Text.splitAt '/' resource)) ≠ .ok false) :
    answerOf world resource entry ≠ .ok none := by
  intro h
  unfold answerOf at h
  rw [hdir] at h
  dsimp only at h
  cases hisFile : world.isFile (entry.below (Text.splitAt '/' resource)) with
  | error error =>
      rw [hisFile] at h
      cases h
  | ok isFile =>
      rw [hisFile] at h
      cases isFile with
      | false => exact hfile hisFile
      | true =>
          dsimp only at h
          cases hread : world.readFile (entry.below (Text.splitAt '/' resource)) <;> rw [hread] at h <;> cases h

namespace Lookup

/-- Every archive that was opened is still what its path holds. -/
def Sound (base : World) (lookup : Lookup) : Prop :=
  ∀ path archive, (path, archive) ∈ lookup.archives → archiveOf base path = .ok archive

/-- The later look-up is the same but for archives that were opened in between, and it is still sound. -/
structure Onward (base : World) (lookup later : Lookup) : Prop where
  sound : later.Sound base
  entries : later.entries = lookup.entries
  closed : later.closed = lookup.closed

theorem sound_along (base : World) (entries : List Path) : (along entries).Sound base :=
  fun _ _ hmem => absurd hmem List.not_mem_nil

theorem Onward.refl (h : lookup.Sound base) : lookup.Onward base lookup := ⟨h, rfl, rfl⟩

theorem Onward.trans {later final : Lookup} (h : lookup.Onward base later) (hnext : later.Onward base final) :
    lookup.Onward base final :=
  ⟨hnext.sound, hnext.entries.trans h.entries, hnext.closed.trans h.closed⟩

/-- A sound look-up has the archive that is there, opened now or before. -/
theorem exists_archiveAt (hworld : world.silent = base.silent) (h : lookup.Sound base) (path : Path) :
    ∃ later after, lookup.archiveAt world path = (archiveOf base path, later, after) ∧ lookup.Onward base later := by
  cases hknown : lookup.archives.lookup path with
  | some archive =>
      obtain ⟨before, after, harchives, -⟩ := List.lookup_eq_some_iff.mp hknown
      refine ⟨lookup, world, ?_, .refl h⟩
      rw [archiveAt_of_known hknown, h path archive (by simp [harchives])]
  | none =>
      have hopened := archiveOf_of_silent hworld path
      rw [archiveAt_of_unknown hknown, ← hopened]
      unfold archiveOf at hopened ⊢
      cases hopening : opening world path with
      | mk result after =>
          rw [hopening] at hopened
          cases result with
          | error error => exact ⟨lookup, after, rfl, .refl h⟩
          | ok archive =>
              refine ⟨_, after, rfl, fun other found hmem => ?_, rfl, rfl⟩
              rcases List.mem_append.mp hmem with hmem | hmem
              · exact h other found hmem
              · obtain ⟨rfl, rfl⟩ := Prod.mk.inj (List.mem_singleton.mp hmem)
                exact hopened.symm

theorem exists_answerAt (hworld : world.silent = base.silent) (h : lookup.Sound base) (resource : String)
    (entry : Path) :
    ∃ later after, lookup.answerAt world resource entry = (answerOf base resource entry, later, after) ∧
      lookup.Onward base later := by
  unfold answerAt
  rw [consults_of_silent hworld, answerOf_of_silent hworld]
  by_cases hconsults : consults base entry = true
  · obtain ⟨later, after, harchive, hlater⟩ := exists_archiveAt hworld h entry
    rw [if_pos hconsults, harchive, answerOf_of_consults hconsults]
    exact ⟨later, after, rfl, hlater⟩
  · rw [if_neg hconsults]
    exact ⟨lookup, world, rfl, .refl h⟩

/-- A sound look-up answers as the first entry does that has the resource. -/
theorem exists_readFrom (resource : String) (paths : List Path) (hworld : world.silent = base.silent)
    (h : lookup.Sound base) :
    ∃ later after, readFrom resource paths lookup world = (firstAnswer base resource paths, later, after) ∧
      lookup.Onward base later := by
  induction paths generalizing lookup world with
  | nil => exact ⟨lookup, world, rfl, .refl h⟩
  | cons entry rest ih =>
      obtain ⟨later, after, hanswer, hlater⟩ := exists_answerAt hworld h resource entry
      have hafter := silent_answerAt lookup world resource entry
      rw [hanswer] at hafter
      rw [readFrom_cons, hanswer, firstAnswer]
      cases answerOf base resource entry with
      | error error => exact ⟨later, after, rfl, hlater⟩
      | ok found =>
          cases found with
          | some data => exact ⟨later, after, rfl, hlater⟩
          | none =>
              obtain ⟨final, last, hread, hfinal⟩ := ih (hafter.trans hworld) hlater.sound
              exact ⟨final, last, hread, hlater.trans hfinal⟩

end Lookup
end Classpath
end ClassDump
