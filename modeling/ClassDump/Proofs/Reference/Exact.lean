import ClassDump.Proofs.Reference.Sequence
import ClassDump.Proofs.Walk.Preorder

/-! The reference set is exact. Where every directory can be listed, the local classes are gone through root by root and
in the order of the walks. The first class that the source of class bytes does not answer for is reported, and if there
is none, the set has the keys of all these classes and no other. -/

namespace ClassDump

open Classpath

namespace Reference

variable {ρ : Type} {task : Task ρ} {world : World} {inv : ρ → Prop} {answer : String → Except Failure (Option Bytes)}
  {classId : Bytes → Int} {root : Path} {relative : Location} {roots : List Path}

/-- A class file stands at the relative location of a class directory, and no directory is behind it. -/
def IsLocalClass (world : World) (root : Path) (relative : Location) : Prop :=
  IsClassBelow world root relative ∧ world.isDir (root.descend relative) ≠ .ok true

/-- The local classes of a class directory, each once, in the order in which a walk comes to them. -/
structure IsScanOrder (world : World) (root : Path) (order : List Location) : Prop where
  pairwise : order.Pairwise Walk.Precedes
  mem_iff : ∀ relative, relative ∈ order ↔ IsLocalClass world root relative

theorem IsScanOrder.unique {order other : List Location} (h : IsScanOrder world root order)
    (hother : IsScanOrder world root other) : order = other :=
  Walk.Precedes.eq_of_pairwise h.pairwise hother.pairwise fun relative =>
    (h.mem_iff relative).trans (hother.mem_iff relative).symm

/-- The class directory, if it is there, and all directories in it can be listed. -/
structure Listable (world : World) (root : Path) : Prop where
  noNul : root.hasNul = false
  below : ∀ there relative, world.IsDirAt root there → world.root.HasDir (there ++ relative) →
    ¬Walk.Unlisted world root relative

/-- A class directory can be listed if its directories can be, each as it stands in the tree. -/
theorem listable_of_flatten {there : Location} (hnul : root.hasNul = false) (hthere : world.IsDirAt root there)
    (h : ∀ found ∈ world.root.flatten [], there <+: found.1 → found.2.bare.isDir = true →
      (world.list ((Walk.Place.ofPath root).descend (found.1.drop there.length)).text
        (root.descend (found.1.drop there.length))).toBool = true) : Listable world root := by
  refine ⟨hnul, fun other relative hother hdir => ?_⟩
  obtain rfl := hthere.unique hother
  have hlist := @Node.forall_of_flatten world.root (fun location node => there <+: location → node.isDir = true →
    (world.list ((Walk.Place.ofPath root).descend (location.drop there.length)).text
      (root.descend (location.drop there.length))).toBool = true) h _ _ hdir (List.prefix_append _ _) rfl
  rw [List.drop_left] at hlist
  rintro ⟨error, herror⟩
  rw [herror] at hlist
  cases hlist

/-- The scan of a class directory comes to the local classes that are not behind a directory that cannot be listed. -/
theorem mem_classesBelow_iff (hlegal : world.Legal) (hnul : root.hasNul = false) :
    relative ∈ classesBelow world root ↔
      IsLocalClass world root relative ∧ Walk.Visible (Walk.Unlisted world root) relative := by
  rw [classesBelow, List.mem_filter, Walk.mem_entriesOf_iff hlegal hnul]
  constructor
  · rintro ⟨⟨⟨there, hthere, hvisible, node, hnode, hbare⟩, hnot⟩, hclass⟩
    exact ⟨⟨⟨there, node, hthere, hnode, hbare, hclass⟩, hnot⟩, hvisible⟩
  · rintro ⟨⟨⟨there, node, hthere, hnode, hbare, hclass⟩, hnot⟩, hvisible⟩
    exact ⟨⟨⟨there, hthere, hvisible, node, hnode, hbare⟩, hnot⟩, hclass⟩

theorem pairwise_classesBelow (world : World) (root : Path) : (classesBelow world root).Pairwise Walk.Precedes :=
  (Walk.pairwise_itinerary world false root pathMax []).filter _

/-- Nothing is hidden where all directories can be listed. -/
theorem Listable.visible (h : Listable world root) (hclass : IsLocalClass world root relative) :
    Walk.Visible (Walk.Unlisted world root) relative := by
  obtain ⟨⟨there, node, hthere, -, hbare, -⟩, -⟩ := hclass
  rintro above ⟨rest, rfl⟩ hne
  obtain ⟨name, more, rfl⟩ := List.exists_cons_of_ne_nil (show rest ≠ [] by simpa using hne)
  rw [← List.append_assoc] at hbare
  exact h.below there above hthere (Node.hasDir_of_bare? hbare)

theorem Listable.isScanOrder (h : Listable world root) (hlegal : world.Legal) :
    IsScanOrder world root (classesBelow world root) where
  pairwise := pairwise_classesBelow world root
  mem_iff _ := (mem_classesBelow_iff hlegal h.noNul).trans (and_iff_left_of_imp h.visible)

section KeyAt

variable {data : Bytes}

/-- The source has bytes for the class file at a relative location. -/
def Answered (answer : String → Except Failure (Option Bytes)) (relative : Location) : Prop :=
  ∃ data, answer (Path.mk .here relative).text = .ok (some data)

theorem keyAt_of_answer (hlegal : world.Legal) (hclass : IsClassBelow world root relative)
    (hnamed : relative ≠ [classSuffix]) (hid : 0 ≤ classId data ∧ classId data < ClassKey.idCount)
    (hanswer : answer (Path.mk .here relative).text = .ok (some data)) :
    keyAt classId answer relative = .ok ⟨keyText (Path.mk .here relative).text (classId data)⟩ := by
  have hne := hclass.ne_nil
  obtain ⟨there, node, -, -, hbare, hsuffix⟩ := hclass
  have hkey := of_binaryNameOf_of_range (endsWith_text_of_isClassFile hne hsuffix)
    (text_ne_classSuffix (hlegal.names hbare) hne hnamed) hid
  rw [keyAt, hanswer, keyBy, hkey]
  rfl

/-- A class has a key by the classpath unless it has no name. -/
theorem keyAt_eq_ok_iff_isKeyAt {entries : List Path} {key : String} (hlegal : world.Legal)
    (hclass : IsClassBelow world root relative) :
    keyAt agentId (fun resource => firstAnswer world resource entries) relative = .ok ⟨key⟩ ↔
      relative ≠ [classSuffix] ∧ IsKeyAt world entries relative key := by
  constructor
  · intro h
    obtain ⟨data, hdata, hof⟩ := exists_of_keyAt h
    have hnamed : relative ≠ [classSuffix] := by
      rintro rfl
      rw [of_binaryNameOf_classSuffix] at hof
      cases hof
    have hkey := @keyAt_of_answer world (fun resource => firstAnswer world resource entries) agentId root relative data
      hlegal hclass hnamed (agentId_mem_range data) hdata
    rw [h] at hkey
    exact ⟨hnamed, data, hdata, congrArg ClassKey.path (Except.ok.inj hkey)⟩
  · rintro ⟨hnamed, data, hdata, rfl⟩
    exact keyAt_of_answer hlegal hclass hnamed (agentId_mem_range data) hdata

theorem exists_keyAt_of_not_answered
    (hrefuses : ∀ resource failure, answer resource = .error failure → failure.refusal?.isSome = true)
    (h : ¬Answered answer relative) :
    ∃ detail, keyAt classId answer relative =
      .error (.consistency (binaryNameOf (Path.mk .here relative).text) detail) := by
  unfold keyAt
  cases hanswer : answer (Path.mk .here relative).text with
  | error failure =>
      obtain ⟨refusal, hrefusal⟩ := Option.isSome_iff_exists.mp (hrefuses _ _ hanswer)
      exact ⟨refusal, by rw [keyBy, hrefusal]⟩
  | ok found =>
      cases found with
      | none => exact ⟨_, rfl⟩
      | some data => exact absurd ⟨data, hanswer⟩ h

end KeyAt

/-- What a scan of local classes comes to: that there are none, the first class without an answer, or the keys of all
classes. -/
structure IsExact (answer : String → Except Failure (Option Bytes)) (classId : Bytes → Int)
    (classes : List (Path × Location)) (outcome : Except Failure ReferenceSet) : Prop where
  empty : classes = [] → outcome = .error .emptyReferenceSet
  unanswered : ∀ before root relative after, classes = before ++ (root, relative) :: after →
    (∀ earlier ∈ before, Answered answer earlier.2) → ¬Answered answer relative →
      ∃ detail, outcome = .error (.consistency (binaryNameOf (Path.mk .here relative).text) detail)
  answered : classes ≠ [] → (∀ found ∈ classes, Answered answer found.2) →
    ∃ references, outcome = .ok references ∧ ∀ key, references.contains key = true ↔
      ∃ found ∈ classes, ∃ data, answer (Path.mk .here found.2).text = .ok (some data) ∧
        key = keyText (Path.mk .here found.2).text (classId data)

section Outcome

variable {classes : List (Path × Location)} (hlegal : world.Legal)
  (hclasses : ∀ found ∈ classes, IsClassBelow world found.1 found.2 ∧ found.2 ≠ [classSuffix])
  (hids : ∀ data, 0 ≤ classId data ∧ classId data < ClassKey.idCount)
include hlegal hclasses hids

theorem exists_keyAt_of_answered {found : Path × Location} (hfound : found ∈ classes)
    (h : Answered answer found.2) : ∃ key, keyAt classId answer found.2 = .ok key := by
  obtain ⟨data, hdata⟩ := h
  obtain ⟨hclass, hnamed⟩ := hclasses found hfound
  exact ⟨_, keyAt_of_answer hlegal hclass hnamed (hids data) hdata⟩

/-- The keys of answered classes are those of their answers. -/
theorem keyAt_eq_ok_iff {found : Path × Location} (hfound : found ∈ classes) (h : Answered answer found.2)
    {key : ClassKey} : keyAt classId answer found.2 = .ok key ↔
      ∃ data, answer (Path.mk .here found.2).text = .ok (some data) ∧
        key.path = keyText (Path.mk .here found.2).text (classId data) := by
  obtain ⟨data, hdata⟩ := h
  obtain ⟨hclass, hnamed⟩ := hclasses found hfound
  obtain ⟨path⟩ := key
  rw [keyAt_of_answer hlegal hclass hnamed (hids data) hdata, hdata]
  simp only [Except.ok.injEq, Option.some.injEq, exists_eq_left', ClassKey.mk.injEq]
  exact eq_comm

theorem isExact_of_mapM
    (hrefuses : ∀ resource failure, answer resource = .error failure → failure.refusal?.isSome = true) :
    IsExact answer classId classes (setOf ((classes.map Prod.snd).mapM (keyAt classId answer))) := by
  have hkeyed := fun found hfound =>
    @exists_keyAt_of_answered world answer classId classes hlegal hclasses hids found hfound
  constructor
  case empty =>
    rintro rfl
    rfl
  case unanswered =>
    intro before root relative after hsplit hbefore hnot
    obtain ⟨detail, hdetail⟩ := @exists_keyAt_of_not_answered _ classId _ hrefuses hnot
    refine ⟨detail, ?_⟩
    have herror : (classes.map Prod.snd).mapM (keyAt classId answer) =
        .error (.consistency (binaryNameOf (Path.mk .here relative).text) detail) := by
      refine mapM_eq_error_iff.mpr ⟨before.map Prod.snd, relative, after.map Prod.snd, ?_, fun other hother => ?_, hdetail⟩
      · rw [hsplit, List.map_append, List.map_cons]
      · obtain ⟨earlier, hearlier, rfl⟩ := List.mem_map.mp hother
        exact hkeyed earlier (by rw [hsplit]; exact List.mem_append_left _ hearlier) (hbefore earlier hearlier)
    rw [herror, setOf]
  case answered =>
    intro hne hall
    have hkeys : ∀ relative ∈ classes.map Prod.snd, ∃ key, keyAt classId answer relative = .ok key :=
      List.forall_mem_map.mpr fun found hfound => hkeyed found hfound (hall found hfound)
    obtain ⟨references, hreferences⟩ := exists_setOf (by simpa using hne) hkeys
    refine ⟨references, hreferences, fun text => ?_⟩
    rw [(contains_of_setOf hreferences).2 text]
    simp only [List.mem_map, exists_exists_and_eq_and]
    exact exists_congr fun found => and_congr_right fun hfound =>
      keyAt_eq_ok_iff hlegal hclasses hids hfound (hall found hfound)

end Outcome

/-- The reference set of class directories in which everything can be listed is exact. The identities that the agent
gives always fit into 64 bits. -/
theorem build_exact {source : ρ} (hlegal : world.Legal) (hroots : ∀ root ∈ roots, Listable world root)
    (hanswering : Answering task world inv answer) (hsource : inv source)
    (hrefuses : ∀ resource failure, answer resource = .error failure → failure.refusal?.isSome = true)
    (hids : ∀ data, 0 ≤ task.classId data ∧ task.classId data < ClassKey.idCount) (hinterval : task.interval ≠ some 0)
    (hnamed : ∀ root ∈ roots, ¬IsLocalClass world root [classSuffix]) :
    (∃ order : Path → List Location, (∀ root ∈ roots, IsScanOrder world root (order root)) ∧
      IsExact answer task.classId (roots.flatMap fun root => (order root).map (root, ·))
        (build task roots source world).1) ∧
      ∀ name data id, ClassKey.of name (agentId data) ≠ .error (.idOutOfRange id) := by
  refine ⟨⟨classesBelow world, fun root hroot => (hroots root hroot).isScanOrder hlegal, ?_⟩, fun name data id h => ?_⟩
  · rw [hanswering.build_fst hinterval hsource rfl fun root hroot => (hroots root hroot).noNul]
    have hclasses : ∀ found ∈ roots.flatMap (fun root => (classesBelow world root).map (root, ·)),
        IsClassBelow world found.1 found.2 ∧ found.2 ≠ [classSuffix] := by
      intro found hfound
      obtain ⟨root, hroot, hbelow⟩ := List.mem_flatMap.mp hfound
      obtain ⟨relative, hrelative, rfl⟩ := List.mem_map.mp hbelow
      have hlocal := (((hroots root hroot).isScanOrder hlegal).mem_iff relative).mp hrelative
      refine ⟨hlocal.1, ?_⟩
      rintro rfl
      exact hnamed root hroot hlocal
    have hexact := isExact_of_mapM hlegal hclasses hids hrefuses
    rw [List.map_flatMap] at hexact
    simpa only [List.map_map, Function.comp_def, List.map_id'] using hexact
  · have hrange := agentId_mem_range data
    unfold ClassKey.of at h
    split at h
    · cases h
    · rw [if_neg (by omega)] at h
      cases h

/-- A class directory, and within it a second one. -/
def withInnerRoot : World where
  root := .dir
    [("classes", .dir [("sub", .dir [("a.b.class", .file [2])]), ("K.class", .file [1])])]
  workingDir := ⟨[], []⟩
  home := "/"

/-- Class bytes from elsewhere than the class directories. -/
def tabled (table : List (String × Bytes)) : Task Unit where
  read _ world resource := (.ok (table.lookup resource), (), world)
  classId := agentId

theorem answering_tabled (table : List (String × Bytes)) (world : World) :
    Answering (tabled table) world (fun _ => True) fun resource => .ok (table.lookup resource) where
  answers _ _ _ _ _ := rfl
  keeps _ _ _ _ _ := trivial
  silent _ _ _ _ hworld := hworld

/-- The class in the inner directory is keyed under both names. -/
theorem build_exact_withInnerRoot :
    let roots : List Path := [⟨.root, ["classes"]⟩, ⟨.root, ["classes", "sub"]⟩]
    let task := tabled [("K.class", [1]), ("sub/a.b.class", [2]), ("a.b.class", [3])]
    ∃ references, (build task roots () withInnerRoot).1 = .ok references ∧
      ∀ key, references.contains key = true ↔ key = keyText "K.class" (agentId [1]) ∨
        key = keyText "sub/a.b.class" (agentId [2]) ∨ key = keyText "a.b.class" (agentId [3]) := by
  intro roots task
  have hlegal : withInnerRoot.Legal := ⟨Node.legal_of_flatten (by decide +kernel), rfl⟩
  have hroots : ∀ root ∈ roots, Listable withInnerRoot root := by
    refine List.forall_mem_cons.mpr ⟨?_, List.forall_mem_singleton.mpr ?_⟩
    · exact @listable_of_flatten withInnerRoot ⟨.root, ["classes"]⟩ ["classes"] rfl ⟨by decide +kernel, rfl⟩
        (by decide +kernel)
    · exact @listable_of_flatten withInnerRoot ⟨.root, ["classes", "sub"]⟩ ["classes", "sub"] rfl
        ⟨by decide +kernel, rfl⟩ (by decide +kernel)
  have horders : ∀ root ∈ roots, IsScanOrder withInnerRoot root (classesBelow withInnerRoot root) := fun root hroot =>
    (hroots root hroot).isScanOrder hlegal
  have hclasses : (roots.flatMap fun root => (classesBelow withInnerRoot root).map (root, ·)) =
      [(⟨.root, ["classes"]⟩, ["K.class"]), (⟨.root, ["classes"]⟩, ["sub", "a.b.class"]),
        (⟨.root, ["classes", "sub"]⟩, ["a.b.class"])] := by
    decide +kernel
  have hnamed : ∀ root ∈ roots, ¬IsLocalClass withInnerRoot root [classSuffix] := by
    intro root hroot hlocal
    have hfound : (root, [classSuffix]) ∈ roots.flatMap fun root => (classesBelow withInnerRoot root).map (root, ·) :=
      List.mem_flatMap.mpr ⟨root, hroot, List.mem_map_of_mem (((horders root hroot).mem_iff _).mpr hlocal)⟩
    rw [hclasses] at hfound
    simp [classSuffix] at hfound
  obtain ⟨⟨order, horder, hexact⟩, -⟩ := @build_exact Unit task _ _ _ _ () hlegal hroots (answering_tabled _ _) trivial
    nofun agentId_mem_range nofun hnamed
  have hsame : (roots.flatMap fun root => (order root).map (root, ·)) =
      roots.flatMap fun root => (classesBelow withInnerRoot root).map (root, ·) :=
    List.flatMap_congr fun root hroot => by rw [(horder root hroot).unique (horders root hroot)]
  rw [hsame, hclasses] at hexact
  obtain ⟨references, hok, hkeys⟩ := hexact.answered (List.cons_ne_nil _ _) <|
    List.forall_mem_cons.mpr ⟨⟨[1], by decide⟩,
      List.forall_mem_cons.mpr ⟨⟨[2], by decide⟩, List.forall_mem_singleton.mpr ⟨[3], by decide⟩⟩⟩
  refine ⟨references, hok, fun key => (hkeys key).trans ?_⟩
  have htexts : (Path.mk .here ["K.class"]).text = "K.class" ∧
      (Path.mk .here ["sub", "a.b.class"]).text = "sub/a.b.class" ∧
      (Path.mk .here ["a.b.class"]).text = "a.b.class" := by decide
  have hid : task.classId = agentId := rfl
  simp [htexts, hid, List.lookup_cons]

end Reference
end ClassDump
