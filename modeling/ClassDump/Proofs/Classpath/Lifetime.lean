import ClassDump.Proofs.Classpath.Snapshots
import ClassDump.Proofs.Store.Leads
import Mathlib.Data.List.Induction

/-! A look-up over its life. Calls come in any order, the files change in between as they like, and at some time the
look-up is closed. The invariant is that the look-up knows just the snapshots that its reads took, each when a read
first came to the archive. -/

namespace ClassDump.Classpath.Lookup

variable {known : Snapshots} {world : World} {lookup : Lookup} {resource : String} {path entry : Path}
  {paths entries : List Path}

inductive Call where
  | read (binaryName : String)
  | readResource (resource : String)
  | close
deriving DecidableEq, Repr

def Call.resource? : Call → Option String
  | .read binaryName => some (resourceName binaryName)
  | .readResource resource => some resource
  | .close => none

def apply (lookup : Lookup) (step : World × Call) : Lookup :=
  match step.2 with
  | .read binaryName => (lookup.read step.1 binaryName).2.1
  | .readResource resource => (lookup.readResource step.1 resource).2.1
  | .close => lookup.close

/-- The look-up after calls in turn, each in the world of its time. -/
def after (lookup : Lookup) (history : List (World × Call)) : Lookup :=
  history.foldl apply lookup

def Closes (history : List (World × Call)) : Prop :=
  Call.close ∈ history.map Prod.snd

instance (history : List (World × Call)) : Decidable (Closes history) :=
  inferInstanceAs (Decidable (Call.close ∈ history.map Prod.snd))

/-- The snapshots that the reads among the calls take. -/
def snapshots (entries : List Path) (history : List (World × Call)) : Snapshots :=
  history.foldl
    (fun known step =>
      match step.2.resource? with
      | some resource => learn known step.1 resource entries
      | none => known)
    fun _ => none

/-- The paths at which the calls open archives, in turn. -/
def openings : Lookup → List (World × Call) → List Path
  | _, [] => []
  | lookup, step :: rest =>
    (match step.2.resource? with
      | some resource => if lookup.closed then [] else (readNoting resource lookup.entries lookup step.1).1
      | none => []) ++ openings (lookup.apply step) rest

section History

variable {history : List (World × Call)} {step : World × Call}

theorem apply_of_resource (h : step.2.resource? = some resource) :
    lookup.apply step = (lookup.readResource step.1 resource).2.1 := by
  obtain ⟨world, call⟩ := step
  cases call with
  | read binaryName =>
      obtain rfl := Option.some.inj h
      rfl
  | readResource other =>
      obtain rfl := Option.some.inj h
      rfl
  | close => cases h

theorem resource_eq_none_iff {call : Call} : call.resource? = none ↔ call = .close := by
  cases call <;> simp [Call.resource?]

theorem apply_of_no_resource (h : step.2.resource? = none) : lookup.apply step = lookup.close := by
  unfold apply
  rw [resource_eq_none_iff.mp h]

theorem ne_close_of_resource (h : step.2.resource? = some resource) : step.2 ≠ .close := by
  intro hclose
  rw [hclose] at h
  cases h

theorem closes_append_singleton : Closes (history ++ [step]) ↔ Closes history ∨ step.2 = .close := by
  unfold Closes
  rw [List.map_append, List.mem_append, List.map_singleton, List.mem_singleton, eq_comm (a := Call.close)]

theorem snapshots_append_singleton (entries : List Path) (history : List (World × Call)) (step : World × Call) :
    snapshots entries (history ++ [step]) =
      match step.2.resource? with
      | some resource => learn (snapshots entries history) step.1 resource entries
      | none => snapshots entries history :=
  List.foldl_append

/-- No call takes a snapshot again. -/
theorem snapshots_append_of_some {held : Option Archive} (h : snapshots entries history path = some held)
    (more : List (World × Call)) : snapshots entries (history ++ more) path = some held := by
  induction more using List.reverseRecOn with
  | nil => rwa [List.append_nil]
  | append_singleton more step ih =>
      rw [← List.append_assoc, snapshots_append_singleton]
      cases step.2.resource? with
      | none => exact ih
      | some resource =>
          exact (learn_apply _ _ _ _ _).trans (by rw [ih, Option.some_or])

/-- A snapshot is what the first read that came to the archive has found there. -/
theorem snapshots_eq_some_iff {held : Option Archive} : snapshots entries history path = some held ↔
    ∃ before world call after resource, history = before ++ (world, call) :: after ∧
      call.resource? = some resource ∧ snapshots entries before path = none ∧
      comesTo (snapshots entries before) world resource path entries = true ∧ archiveOf world path = .ok held := by
  constructor
  · intro h
    induction history using List.reverseRecOn with
    | nil => cases h
    | append_singleton history step ih =>
        by_cases hbefore : snapshots entries history path = some held
        · obtain ⟨before, world, call, after, resource, rfl, hfirst⟩ := ih hbefore
          exact ⟨before, world, call, after ++ [step], resource, by simp, hfirst⟩
        · rw [snapshots_append_singleton] at h
          cases hresource : step.2.resource? with
          | none =>
              rw [hresource] at h
              exact absurd h hbefore
          | some resource =>
              rw [hresource] at h
              rcases Option.or_eq_some_iff.mp h with h | ⟨hnone, h⟩
              · exact absurd h hbefore
              · split at h
                · next hcomes =>
                  refine ⟨history, step.1, step.2, [], resource, rfl, hresource, hnone, hcomes, ?_⟩
                  cases harchive : archiveOf step.1 path with
                  | error error =>
                      rw [harchive] at h
                      cases h
                  | ok archive =>
                      rw [harchive] at h
                      exact congrArg Except.ok (Option.some.inj h)
                · cases h
  · rintro ⟨before, world, call, after, resource, rfl, hresource, hnone, hcomes, harchive⟩
    have hfirst : snapshots entries (before ++ [(world, call)]) path = some held := by
      rw [snapshots_append_singleton]
      dsimp only
      rw [hresource]
      exact (learn_apply _ _ _ _ _).trans (by rw [hnone, if_pos hcomes, harchive]; rfl)
    have h := snapshots_append_of_some hfirst after
    rwa [List.append_assoc] at h

/-- A look-up is what its calls have made of it: open with just the snapshots that they took, or closed. -/
structure Tracks (entries : List Path) (history : List (World × Call)) (lookup : Lookup) : Prop where
  route : lookup.entries = entries
  closed : lookup.closed = true ↔ Closes history
  archives : ¬Closes history → ∀ path, lookup.archives.lookup path = snapshots entries history path

theorem Tracks.apply (h : lookup.Tracks entries history) (step : World × Call) :
    (lookup.apply step).Tracks entries (history ++ [step]) := by
  cases hresource : step.2.resource? with
  | none =>
      have hclose : step.2 = .close := resource_eq_none_iff.mp hresource
      have hcloses : Closes (history ++ [step]) := closes_append_singleton.mpr (.inr hclose)
      rw [apply_of_no_resource hresource]
      exact ⟨h.route, iff_of_true rfl hcloses, fun hopen => absurd hcloses hopen⟩
  | some resource =>
      have hcloses : Closes (history ++ [step]) ↔ Closes history := by
        rw [closes_append_singleton, or_iff_left (ne_close_of_resource hresource)]
      rw [apply_of_resource hresource]
      unfold readResource
      by_cases hclosed : lookup.closed = true
      · rw [if_pos hclosed]
        exact ⟨h.route, h.closed.trans hcloses.symm, fun hopen =>
          absurd (hcloses.mpr (h.closed.mp hclosed)) hopen⟩
      · have hknown := h.archives (mt h.closed.mpr hclosed)
        obtain ⟨later, after, hread, hlater⟩ :=
          exists_readFrom_eq_firstOf resource lookup.entries rfl fun path => .inl (hknown path)
        rw [if_neg hclosed, hread]
        refine ⟨hlater.entries.trans h.route, ?_, fun _ path => ?_⟩
        · rw [hlater.closed]
          exact h.closed.trans hcloses.symm
        · rw [hlater.archives, hknown, h.route, snapshots_append_singleton, hresource]
          rfl

theorem tracks_after (entries : List Path) (history : List (World × Call)) :
    ((along entries).after history).Tracks entries history := by
  induction history using List.reverseRecOn with
  | nil => exact ⟨rfl, iff_of_false Bool.false_ne_true List.not_mem_nil, fun _ _ => rfl⟩
  | append_singleton history step ih =>
      have hafter : (along entries).after (history ++ [step]) = ((along entries).after history).apply step :=
        List.foldl_append
      rw [hafter]
      exact ih.apply step

theorem openings_of_closed (h : lookup.closed = true) (history : List (World × Call)) : openings lookup history = [] := by
  induction history generalizing lookup with
  | nil => rfl
  | cons step rest ih =>
      have happly : (lookup.apply step).closed = true := by
        cases hresource : step.2.resource? with
        | none =>
            rw [apply_of_no_resource hresource]
            rfl
        | some resource =>
            rw [apply_of_resource hresource]
            unfold readResource
            rwa [if_pos h]
      rw [openings, ih happly, List.append_nil]
      cases step.2.resource? with
      | none => rfl
      | some resource => exact if_pos h

/-- As long as every archive opens or is refused for good, none is opened again. -/
theorem nodup_openings (lookup : Lookup) (history : List (World × Call))
    (hopens : ∀ step ∈ history, step.2 ≠ .close → ∀ entry ∈ lookup.entries, consults step.1 entry = true →
      ∃ held, archiveOf step.1 entry = .ok held)
    (h : lookup.opened.Nodup) : (lookup.opened ++ openings lookup history).Nodup := by
  induction history generalizing lookup with
  | nil => rwa [openings, List.append_nil]
  | cons step rest ih =>
      obtain ⟨hstep, hrest⟩ := List.forall_mem_cons.mp hopens
      by_cases hclosed : lookup.closed = true
      · rwa [openings_of_closed hclosed, List.append_nil]
      · rw [openings]
        cases hresource : step.2.resource? with
        | none =>
            rw [apply_of_no_resource hresource, openings_of_closed rfl, List.append_nil]
            rwa [List.append_nil]
        | some resource =>
            have happly : lookup.apply step = (readFrom resource lookup.entries lookup step.1).2.1 := by
              rw [apply_of_resource hresource]
              unfold readResource
              rw [if_neg hclosed]
            obtain ⟨hadded, hnodup⟩ :=
              opened_readFrom resource lookup.entries rfl (hstep (ne_close_of_resource hresource)) h
            have hfollows : lookup.Follows (fun path => lookup.archives.lookup path) step.1 := fun _ => .inl rfl
            obtain ⟨later, after, hread, hlater⟩ := exists_readFrom_eq_firstOf resource lookup.entries rfl hfollows
            have hentries : (lookup.apply step).entries = lookup.entries := by
              rw [happly, hread]
              exact hlater.entries
            have hmore : ((lookup.apply step).opened ++ openings (lookup.apply step) rest).Nodup :=
              ih (lookup.apply step) (hentries ▸ hrest) (happly ▸ hnodup)
            rw [happly, hadded, List.append_assoc] at hmore
            dsimp only
            rw [if_neg hclosed, happly]
            exact hmore

end History

/-! ### Files that behave -/

/-- The contents of a file are an archive of which every member can be read, or they are refused as none, or the system
refuses to open the file. -/
def Opens (world : World) (path : Path) (data : Bytes) : Prop :=
  match openFile path data world with
  | .ok archive => ∀ resource, ∃ found, archive.read resource = .ok found
  | .error (.malformed _) => True
  | .error (.os _) => True
  | .error _ => False

/-- Where the entries are looked at for a resource, no call on a directory fails, and no archive. -/
structure Orderly (entries : List Path) (world : World) (resource : String) : Prop where
  isDir : ∀ entry ∈ entries, ∃ isDir, world.isDir entry = .ok isDir
  directory : ∀ entry ∈ entries, world.isDir entry = .ok true → ∃ found, answerOf world resource entry = .ok found
  archive : ∀ entry ∈ entries, isArchiveName entry = true → ∀ data, world.stat entry = .ok (.file data) →
    Opens world entry data

theorem exists_openData {data : Bytes} (h : Opens world path data) :
    ∃ held, (openData path data world).1 = .ok held ∧
      ∀ archive, held = some archive → ∀ resource, ∃ found, archive.read resource = .ok found := by
  unfold Opens at h
  unfold openData
  cases hopen : openFile path data world with
  | ok archive =>
      rw [hopen] at h
      exact ⟨some archive, rfl, fun other hother => Option.some.inj hother ▸ h⟩
  | error error =>
      rw [hopen] at h
      cases error <;> first | exact ⟨none, rfl, nofun⟩ | exact h.elim

theorem Orderly.exists_archiveOf (h : Orderly entries world resource) (hentry : entry ∈ entries)
    (hconsults : consults world entry = true) :
    ∃ held, archiveOf world entry = .ok held ∧
      ∀ archive, held = some archive → ∀ resource, ∃ found, archive.read resource = .ok found := by
  obtain ⟨isFile, hisFile⟩ := World.exists_ask (isDir_of_consults hconsults).1 Node.isFile
  unfold archiveOf opening World.isFile
  rw [hisFile]
  cases isFile with
  | false => exact ⟨none, rfl, nofun⟩
  | true =>
      cases hstat : world.stat entry with
      | error errno => exact ⟨none, rfl, nofun⟩
      | ok node =>
          cases node with
          | link target => exact ⟨none, rfl, nofun⟩
          | dir children => exact ⟨none, rfl, nofun⟩
          | special => exact ⟨none, rfl, nofun⟩
          | file data => exact exists_openData (h.archive entry hentry (isDir_of_consults hconsults).2 data hstat)

/-- Snapshots hold archives of which every member can be read, if the files were in order when they were taken. -/
theorem exists_read_of_snapshots {history : List (World × Call)} {archive : Archive}
    (horderly : ∀ step ∈ history, ∀ asked, step.2.resource? = some asked → Orderly entries step.1 asked)
    (h : snapshots entries history path = some (some archive)) (resource : String) :
    ∃ found, archive.read resource = .ok found := by
  obtain ⟨before, earlier, call, later, asked, rfl, hasked, -, hcomes, harchive⟩ := snapshots_eq_some_iff.mp h
  obtain ⟨_, _, rfl, hconsults, -⟩ := comesTo_eq_true_iff.mp hcomes
  obtain ⟨held, hheld, hread⟩ :=
    (horderly (earlier, call) (by simp) asked hasked).exists_archiveOf (by simp) hconsults
  exact hread archive (Except.ok.inj (hheld.symm.trans harchive)) resource

theorem Orderly.exists_answerWith (h : Orderly entries world resource)
    (hknown : ∀ path archive, known path = some (some archive) → ∃ found, archive.read resource = .ok found)
    (hentry : entry ∈ entries) : ∃ found, answerWith known world resource entry = .ok found := by
  have hanswerIn : ∀ held : Option Archive,
      (∀ archive, held = some archive → ∃ found, archive.read resource = .ok found) →
        ∃ found, answerIn resource held = .ok found := by
    intro held hread
    cases held with
    | none => exact ⟨none, rfl⟩
    | some archive =>
        obtain ⟨found, hfound⟩ := hread archive rfl
        exact ⟨found, by rw [answerIn, hfound]; rfl⟩
  unfold answerWith
  by_cases hconsults : consults world entry = true
  · rw [if_pos hconsults]
    unfold heldAt
    cases hpath : known entry with
    | some held => exact hanswerIn held fun archive hheld => hknown entry archive (hheld ▸ hpath)
    | none =>
        obtain ⟨held, hheld, hread⟩ := h.exists_archiveOf hentry hconsults
        dsimp only
        rw [hheld]
        exact hanswerIn held fun archive harchive => hread archive harchive resource
  · rw [if_neg hconsults]
    obtain ⟨isDir, hisDir⟩ := h.isDir entry hentry
    cases isDir with
    | true => exact h.directory entry hentry hisDir
    | false =>
        refine ⟨none, ?_⟩
        unfold consults at hconsults
        rw [hisDir] at hconsults
        exact answerOf_of_not_isArchiveName hisDir hconsults

theorem exists_firstOf {answer : Path → Except Failure (Option Bytes)}
    (h : ∀ entry ∈ paths, ∃ found, answer entry = .ok found) : ∃ found, firstOf answer paths = .ok found := by
  induction paths with
  | nil => exact ⟨none, rfl⟩
  | cons entry rest ih =>
      obtain ⟨⟨found, hfound⟩, hrest⟩ := List.forall_mem_cons.mp h
      rw [firstOf, hfound]
      cases found with
      | some data => exact ⟨some data, rfl⟩
      | none => exact ih hrest

/-- Over files that stay as they are, snapshots are what is there. -/
theorem answerWith_eq_answerOf (hknown : ∀ path held, known path = some held → archiveOf world path = .ok held) :
    answerWith known world resource = answerOf world resource := by
  funext entry
  unfold answerWith
  by_cases hconsults : consults world entry = true
  · have hheld : heldAt known world entry = archiveOf world entry := by
      unfold heldAt
      cases hpath : known entry with
      | none => rfl
      | some held => exact (hknown entry held hpath).symm
    rw [if_pos hconsults, hheld, answerOf_of_consults hconsults]
  · rw [if_neg hconsults]

/-- After any calls, a read answers as the first of the entries does that has the resource: a directory by what it is
now, an archive by the snapshot that was taken when a read first came to it. A closed look-up refuses. While the files
are in order there is an answer, and no archive is opened twice. Over files that stay as they are the answer is that of
the classpath. -/
theorem answers_by_snapshots (entries : List Path) (history : List (World × Call)) (world : World)
    (resource : String) :
    let lookup := (along entries).after history
    let answer :=
      if Closes history then .error .lookupClosed
      else firstOf (answerWith (snapshots entries history) world resource) entries
    (lookup.readResource world resource).1 = answer ∧
      (∀ binaryName, resourceName binaryName = resource → (lookup.read world binaryName).1 = answer) ∧
      ((∀ step ∈ history, ∀ asked, step.2.resource? = some asked → Orderly entries step.1 asked) →
        (openings (along entries) history).Nodup ∧
          (Orderly entries world resource → ¬Closes history → ∃ found, answer = .ok found)) ∧
      ((∀ step ∈ history, step.1.silent = world.silent) → ¬Closes history →
        answer = firstAnswer world resource entries) := by
  intro lookup answer
  have htracks : lookup.Tracks entries history := tracks_after entries history
  have hanswer : (lookup.readResource world resource).1 = answer := by
    unfold readResource answer
    by_cases hcloses : Closes history
    · rw [if_pos hcloses, if_pos (htracks.closed.mpr hcloses)]
    · have hknown := htracks.archives hcloses
      obtain ⟨later, after, hread, -⟩ :=
        exists_readFrom_eq_firstOf resource lookup.entries (rfl : world.silent = world.silent) fun path =>
          .inl (hknown path)
      rw [if_neg hcloses, if_neg (mt htracks.closed.mp hcloses), hread, htracks.route]
  refine ⟨hanswer, ?_, fun horderly => ⟨?_, fun hnow hopen => ?_⟩, fun hsame hopen => ?_⟩
  · rintro binaryName rfl
    exact hanswer
  · have hopens : ∀ step ∈ history, step.2 ≠ .close → ∀ entry ∈ entries, consults step.1 entry = true →
        ∃ held, archiveOf step.1 entry = .ok held := by
      intro step hstep hcall entry hentry hconsults
      obtain ⟨asked, hasked⟩ := Option.ne_none_iff_exists'.mp (mt resource_eq_none_iff.mp hcall)
      obtain ⟨held, hheld, -⟩ := (horderly step hstep asked hasked).exists_archiveOf hentry hconsults
      exact ⟨held, hheld⟩
    exact nodup_openings (along entries) history hopens List.nodup_nil
  · have hread := fun path archive (h : snapshots entries history path = some (some archive)) =>
      exists_read_of_snapshots horderly h resource
    unfold answer
    rw [if_neg hopen]
    exact exists_firstOf fun entry hentry => hnow.exists_answerWith hread hentry
  · have hknown : ∀ path held, snapshots entries history path = some held → archiveOf world path = .ok held := by
      intro path held h
      obtain ⟨_, earlier, call, _, _, rfl, -, -, -, harchive⟩ := snapshots_eq_some_iff.mp h
      rw [← harchive]
      exact (archiveOf_of_silent (hsame (earlier, call) (by simp)) path).symm
    unfold answer
    rw [if_neg hopen, answerWith_eq_answerOf hknown, firstAnswer_eq_firstOf]

def library : Bytes :=
  [80, 75, 3, 4, 10, 0, 0, 0, 0, 0, 0, 0, 33, 0, 27, 223, 5, 165, 1, 0, 0, 0, 1, 0, 0, 0, 7, 0, 0, 0, 75, 46, 99, 108,
    97, 115, 115, 1] ++
  [80, 75, 1, 2, 20, 0, 10, 0, 0, 0, 0, 0, 0, 0, 33, 0, 27, 223, 5, 165, 1, 0, 0, 0, 1, 0, 0, 0, 7, 0, 0, 0, 0, 0, 0,
    0, 0, 0, 0, 0, 0, 0, 0, 0, 0, 0, 75, 46, 99, 108, 97, 115, 115] ++
  [80, 75, 5, 6, 0, 0, 0, 0, 1, 0, 1, 0, 53, 0, 0, 0, 38, 0, 0, 0, 0, 0]

theorem opens_library {world : World} (hopening : world.faults.opening = []) (path : Path) :
    Opens world path library := by
  have hopen : Archive.open library =
      .ok ⟨library, [⟨"K.class", 0, 0, 0xA505DF1B, 1, 1, 0⟩], 38⟩ := by decide +kernel
  unfold Opens openFile
  rw [hopening, List.lookup_nil, hopen]
  intro resource
  by_cases hresource : resource = "K.class"
  · subst hresource
    exact ⟨some [1], by decide +kernel⟩
  · refine ⟨none, ?_⟩
    have hname : ("K.class" == resource) = false := beq_eq_false_iff_ne.mpr (Ne.symm hresource)
    have hmember : Archive.Member.name ⟨"K.class", 0, 0, 0xA505DF1B, 1, 1, 0⟩ = "K.class" := by decide +kernel
    unfold Archive.read Archive.find?
    simp [hmember, hname]

/-- An archive in front of an empty class directory. -/
def withLibrary : World where
  root := .dir [("lib.jar", .file library), ("classes", .dir [])]
  workingDir := ⟨[], []⟩
  home := "/"

/-- The class directory with a class of its own, and no archive. -/
def withoutLibrary : World where
  root := .dir [("classes", .dir [("K.class", .file [2])])]
  workingDir := ⟨[], []⟩
  home := "/"

/-- The archive answers after it has gone, although the class directory has the class by then. -/
theorem answers_withoutLibrary :
    let entries := [Path.ofText "lib.jar", Path.ofText "classes"]
    let history := [(withLibrary, Call.read "K")]
    (∀ step ∈ history, ∀ asked, step.2.resource? = some asked → Orderly entries step.1 asked) ∧
      Orderly entries withoutLibrary "K.class" ∧ ¬Closes history ∧
      (∀ step ∈ history, step.1.silent = withLibrary.silent) ∧
      (openings (along entries) history).Nodup ∧
      (((along entries).after history).read withoutLibrary "K").1 = .ok (some [1]) ∧
      (((along entries).after history).read withLibrary "K").1 = firstAnswer withLibrary "K.class" entries ∧
      firstAnswer withoutLibrary "K.class" entries = .ok (some [2]) := by
  intro entries history
  have hlibrary : withLibrary.isDir (Path.ofText "lib.jar") = .ok false := by decide +kernel
  have hgone : withoutLibrary.isDir (Path.ofText "lib.jar") = .ok false := by decide +kernel
  have hfirst : Orderly entries withLibrary "K.class" := by
    refine ⟨List.forall_mem_cons.mpr ⟨⟨false, hlibrary⟩, List.forall_mem_singleton.mpr ⟨true, by decide +kernel⟩⟩,
      List.forall_mem_cons.mpr ⟨fun hdir => ?_, List.forall_mem_singleton.mpr fun _ => ⟨none, by decide +kernel⟩⟩,
      List.forall_mem_cons.mpr ⟨fun _ data hdata => ?_, List.forall_mem_singleton.mpr fun hname => ?_⟩⟩
    · rw [hlibrary] at hdir
      cases hdir
    · have hstat : withLibrary.stat (Path.ofText "lib.jar") = .ok (.file library) := by rfl
      rw [hstat] at hdata
      cases hdata
      exact opens_library rfl _
    · exact absurd hname (by decide +kernel)
  have hnow : Orderly entries withoutLibrary "K.class" := by
    refine ⟨List.forall_mem_cons.mpr ⟨⟨false, hgone⟩, List.forall_mem_singleton.mpr ⟨true, by decide +kernel⟩⟩,
      List.forall_mem_cons.mpr ⟨fun hdir => ?_, List.forall_mem_singleton.mpr fun _ => ⟨some [2], by decide +kernel⟩⟩,
      List.forall_mem_cons.mpr ⟨fun _ data hdata => ?_, List.forall_mem_singleton.mpr fun hname => ?_⟩⟩
    · rw [hgone] at hdir
      cases hdir
    · have hstat : withoutLibrary.stat (Path.ofText "lib.jar") = .error .noEntry := by rfl
      rw [hstat] at hdata
      cases hdata
    · exact absurd hname (by decide +kernel)
  have hopen : ¬Closes history := by decide
  have horderly : ∀ step ∈ history, ∀ asked, step.2.resource? = some asked → Orderly entries step.1 asked := by
    intro step hstep asked hasked
    obtain rfl := List.mem_singleton.mp hstep
    obtain rfl : "K.class" = asked := by
      rw [← Option.some.inj hasked]
      decide +kernel
    exact hfirst
  have hsame : ∀ step ∈ history, step.1.silent = withLibrary.silent := fun step hstep =>
    List.mem_singleton.mp hstep ▸ rfl
  have hname : resourceName "K" = "K.class" := by decide +kernel
  obtain ⟨-, hread, hfiles, -⟩ := answers_by_snapshots entries history withoutLibrary "K.class"
  obtain ⟨-, hagain, -, hstatic⟩ := answers_by_snapshots entries history withLibrary "K.class"
  refine ⟨horderly, hnow, hopen, hsame, (hfiles horderly).1, ?_, ?_, by decide +kernel⟩
  · rw [hread "K" hname]
    decide +kernel
  · rw [hagain "K" hname]
    exact hstatic hsame hopen

end ClassDump.Classpath.Lookup
