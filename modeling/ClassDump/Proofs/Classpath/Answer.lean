import ClassDump.Proofs.Store.Silent

/-! The answer of one entry of a classpath. A read asks the entries in turn and goes on while they miss; an entry that is
asked leaves the files alone, and the look-up may come to know an archive by it. -/

namespace ClassDump.Classpath

variable {base world : World} {lookup : Lookup} {resource : String} {path entry : Path}

/-- The opening of the archive at a path. -/
def opening (world : World) (path : Path) : Except Failure (Option Archive) × World :=
  match world.isFile path, world.stat path with
  | .error error, _ => (.error (.ofOs error), world)
  | .ok true, .ok (.file data) => Lookup.openData path data world
  | _, _ => (.ok none, world)

def archiveOf (world : World) (path : Path) : Except Failure (Option Archive) :=
  (opening world path).1

def answerIn (resource : String) : Option Archive → Except Failure (Option Bytes)
  | none => .ok none
  | some archive => (archive.read resource).mapError .archive

def answerOf (world : World) (resource : String) (entry : Path) : Except Failure (Option Bytes) :=
  match world.isDir entry with
  | .error error => .error (.ofOs error)
  | .ok true =>
    match world.isFile (entry.below (Text.splitAt '/' resource)) with
    | .error error => .error (.ofOs error)
    | .ok false => .ok none
    | .ok true => ((world.readFile (entry.below (Text.splitAt '/' resource))).map some).mapError .ofOs
  | .ok false =>
    if Lookup.isArchiveName entry then
      match archiveOf world entry with
      | .error error => .error error
      | .ok none => .ok none
      | .ok (some archive) => (archive.read resource).mapError .archive
    else .ok none

/-- A read that comes to the entry answers from the archive there. -/
def consults (world : World) (entry : Path) : Bool :=
  match world.isDir entry with
  | .ok false => Lookup.isArchiveName entry
  | _ => false

theorem isDir_of_consults (h : consults world entry = true) :
    world.isDir entry = .ok false ∧ Lookup.isArchiveName entry = true := by
  unfold consults at h
  split at h
  · next hdir => exact ⟨hdir, h⟩
  · cases h

theorem answerOf_of_consults (h : consults world entry = true) :
    answerOf world resource entry = (archiveOf world entry).bind (answerIn resource) := by
  obtain ⟨hdir, hname⟩ := isDir_of_consults h
  unfold answerOf
  rw [hdir]
  dsimp only
  rw [if_pos hname]
  cases archiveOf world entry with
  | error error => rfl
  | ok held => cases held <;> rfl

theorem answerOf_of_not_isArchiveName (hdir : world.isDir entry = .ok false)
    (hname : ¬Lookup.isArchiveName entry = true) : answerOf world resource entry = .ok none := by
  unfold answerOf
  rw [hdir]
  exact if_neg hname

/-- A failure to open an archive comes from the system or from the archive. -/
theorem error_of_archiveOf {failure : Failure} (h : archiveOf world path = .error failure) :
    (∃ error, failure = .ofOs error) ∨ ∃ error, failure = .archive error := by
  unfold archiveOf opening at h
  split at h
  · exact .inl ⟨_, (Except.error.inj h).symm⟩
  · unfold Lookup.openData at h
    dsimp only at h
    split at h
    · cases h
    · cases h
    · cases h
    · exact .inr ⟨_, (Except.error.inj h).symm⟩
  · cases h

theorem error_of_answerOf {failure : Failure} (h : answerOf world resource entry = .error failure) :
    (∃ error, failure = .ofOs error) ∨ ∃ error, failure = .archive error := by
  unfold answerOf at h
  split at h
  · exact .inl ⟨_, (Except.error.inj h).symm⟩
  · split at h
    · exact .inl ⟨_, (Except.error.inj h).symm⟩
    · cases h
    · cases hread : world.readFile (entry.below (Text.splitAt '/' resource)) with
      | error error =>
          rw [hread] at h
          exact .inl ⟨error, (Except.error.inj h).symm⟩
      | ok data =>
          rw [hread] at h
          cases h
  · split at h
    · split at h
      · next error heq =>
        rw [Except.error.inj h] at heq
        exact error_of_archiveOf heq
      · cases h
      · next archive _ =>
        cases hread : archive.read resource with
        | error error =>
            rw [hread] at h
            exact .inr ⟨error, (Except.error.inj h).symm⟩
        | ok found =>
            rw [hread] at h
            cases h
    · cases h

theorem consults_of_silent (h : world.silent = base.silent) : consults world = consults base := by
  funext entry
  unfold consults
  rw [World.isDir_of_silent h]

namespace Lookup

theorem openFile_of_silent (h : world.silent = base.silent) (path : Path) (data : Bytes) :
    openFile path data world = openFile path data base := by
  rw [World.eq_of_silent h]
  rfl

theorem openData_fst (h : world.silent = base.silent) (path : Path) (data : Bytes) :
    (openData path data world).1 = (openData path data base).1 := by
  unfold openData
  rw [openFile_of_silent h]
  cases openFile path data base with
  | ok archive => rfl
  | error error => cases error <;> rfl

theorem archiveOf_of_silent (h : world.silent = base.silent) (path : Path) :
    archiveOf world path = archiveOf base path := by
  unfold archiveOf opening
  rw [World.isFile_of_silent h, World.stat_of_silent h]
  split
  · rfl
  · exact openData_fst h _ _
  · rfl

theorem archiveAt_of_known {held : Option Archive} (h : lookup.archives.lookup path = some held) :
    lookup.archiveAt world path = (.ok held, lookup, world) := by
  unfold archiveAt
  rw [h]

theorem archiveAt_of_unknown (h : lookup.archives.lookup path = none) :
    lookup.archiveAt world path =
      match opening world path with
      | (.error error, after) => (.error error, lookup, after)
      | (.ok archive, after) =>
        (.ok archive, { lookup with archives := lookup.archives ++ [(path, archive)] }, after) := by
  unfold archiveAt opening
  rw [h]
  dsimp only
  cases world.isFile path with
  | error error => rfl
  | ok isFile =>
      cases isFile with
      | false => rfl
      | true =>
          cases world.stat path with
          | error errno => rfl
          | ok node =>
              cases node with
              | link target => rfl
              | dir entries => rfl
              | special => rfl
              | file data =>
                  dsimp only
                  rcases openData path data world with ⟨opened, after⟩
                  cases opened <;> rfl

/-- The answer of one entry to a look-up that may come to know an archive by asking for it. -/
def answerAt (lookup : Lookup) (world : World) (resource : String) (entry : Path) : Answer (Option Bytes) :=
  if consults world entry then
    ((lookup.archiveAt world entry).1.bind (answerIn resource), (lookup.archiveAt world entry).2)
  else (answerOf world resource entry, lookup, world)

theorem readFrom_cons (resource : String) (entry : Path) (rest : List Path) (lookup : Lookup) (world : World) :
    readFrom resource (entry :: rest) lookup world =
      match lookup.answerAt world resource entry with
      | (.ok none, later, after) => readFrom resource rest later after
      | found => found := by
  rw [readFrom]
  unfold answerAt consults answerOf
  cases world.isDir entry with
  | error error => rfl
  | ok isDir =>
      cases isDir with
      | true =>
          dsimp only
          cases world.isFile (entry.below (Text.splitAt '/' resource)) with
          | error error => rfl
          | ok isFile =>
              cases isFile with
              | false => rfl
              | true => cases world.readFile (entry.below (Text.splitAt '/' resource)) <;> rfl
      | false =>
          dsimp only
          by_cases hname : isArchiveName entry = true
          · simp only [hname, if_true]
            rcases lookup.archiveAt world entry with ⟨held, later, after⟩
            cases held with
            | error error => rfl
            | ok held =>
                cases held with
                | none => rfl
                | some archive =>
                    dsimp only [Except.bind, answerIn]
                    cases archive.read resource with
                    | error error => rfl
                    | ok found => cases found <;> rfl
          · simp only [hname]
            rfl

/-! ### What asking does to the world -/

theorem logged_openData (path : Path) (data : Bytes) (world : World) : world.Logged (openData path data world).2 := by
  rw [openData]
  split
  · exact .refl world
  · exact .log (.refl world) _ _ _
  · exact .log (.refl world) _ _ _
  · exact .refl world

theorem logged_opening (world : World) (path : Path) : world.Logged (opening world path).2 := by
  unfold opening
  split
  · exact .refl world
  · exact logged_openData _ _ world
  · exact .refl world

theorem logged_archiveAt (lookup : Lookup) (world : World) (path : Path) :
    world.Logged (lookup.archiveAt world path).2.2 := by
  cases hlookup : lookup.archives.lookup path with
  | some held =>
      rw [archiveAt_of_known hlookup]
      exact .refl world
  | none =>
      have hopening := logged_opening world path
      rw [archiveAt_of_unknown hlookup]
      generalize opening world path = result at hopening ⊢
      obtain ⟨opened, after⟩ := result
      cases opened <;> exact hopening

theorem logged_answerAt (lookup : Lookup) (world : World) (resource : String) (entry : Path) :
    world.Logged (lookup.answerAt world resource entry).2.2 := by
  unfold answerAt
  split
  · exact logged_archiveAt lookup world entry
  · exact .refl world

theorem logged_readFrom (resource : String) (entries : List Path) (lookup : Lookup) (world : World) :
    world.Logged (readFrom resource entries lookup world).2.2 := by
  induction entries generalizing lookup world with
  | nil => exact .refl world
  | cons entry rest ih =>
      have hstep := logged_answerAt lookup world resource entry
      rw [readFrom_cons]
      split
      · next later after heq =>
        rw [heq] at hstep
        exact hstep.trans (ih later after)
      · exact hstep

theorem logged_readResource (lookup : Lookup) (world : World) (resource : String) :
    world.Logged (lookup.readResource world resource).2.2 := by
  rw [readResource]
  split
  · exact .refl world
  · exact logged_readFrom _ _ _ _

theorem silent_archiveAt (lookup : Lookup) (world : World) (path : Path) :
    (lookup.archiveAt world path).2.2.silent = world.silent :=
  (logged_archiveAt lookup world path).silent

theorem silent_answerAt (lookup : Lookup) (world : World) (resource : String) (entry : Path) :
    (lookup.answerAt world resource entry).2.2.silent = world.silent :=
  (logged_answerAt lookup world resource entry).silent

theorem silent_readFrom (resource : String) (entries : List Path) (lookup : Lookup) (world : World) :
    (readFrom resource entries lookup world).2.2.silent = world.silent :=
  (logged_readFrom resource entries lookup world).silent

theorem silent_readResource (lookup : Lookup) (world : World) (resource : String) :
    (lookup.readResource world resource).2.2.silent = world.silent :=
  (logged_readResource lookup world resource).silent

end Lookup

theorem answerOf_of_silent (h : world.silent = base.silent) : answerOf world resource = answerOf base resource := by
  funext entry
  unfold answerOf
  rw [World.isDir_of_silent h, World.isFile_of_silent h, World.readFile_of_silent h,
    Lookup.archiveOf_of_silent h]

end ClassDump.Classpath
