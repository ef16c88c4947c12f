import ClassDump.Proofs.Classpath.Resolved
import ClassDump.Proofs.Reference.Key
import ClassDump.Proofs.Reference.Visit
import ClassDump.Proofs.Walk.Itinerary

/-! The reference set as it is collected class by class. A source of class bytes that keeps to its answers is asked for
the class files below the roots, root by root and in the order of the walks; the first class without a key ends the
scan, and the keys of all classes are the set. -/

namespace ClassDump

def ReferenceSet.insertAll (set : ReferenceSet) (keys : List String) : ReferenceSet :=
  keys.foldl ReferenceSet.insert set

@[simp] theorem ReferenceSet.mem_keys_insertAll {set : ReferenceSet} {keys : List String} {key : String} :
    key ∈ (set.insertAll keys).keys ↔ key ∈ set.keys ∨ key ∈ keys := by
  induction keys generalizing set with
  | nil => simp [insertAll]
  | cons first rest ih =>
      change key ∈ ((set.insert first).insertAll rest).keys ↔ _
      rw [ih, mem_keys_insert, List.mem_cons, or_comm (a := key = first), or_assoc]

@[simp] theorem ReferenceSet.contains_ofList {keys : List String} {key : String} :
    (ReferenceSet.ofList keys).contains key = true ↔ key ∈ keys := by
  change (ReferenceSet.empty.insertAll keys).contains key = true ↔ _
  rw [contains, List.contains_iff_mem, mem_keys_insertAll]
  exact or_iff_right List.not_mem_nil

theorem ReferenceSet.insertAll_append (set : ReferenceSet) (keys others : List String) :
    (set.insertAll keys).insertAll others = set.insertAll (keys ++ others) :=
  List.foldl_append.symm

theorem ReferenceSet.isEmpty_insertAll (keys : List String) :
    (ReferenceSet.empty.insertAll keys).isEmpty = keys.isEmpty := by
  cases keys with
  | nil => rfl
  | cons key rest =>
      have hmem : key ∈ (ReferenceSet.empty.insertAll (key :: rest)).keys :=
        mem_keys_insertAll.mpr (.inr List.mem_cons_self)
      rw [isEmpty, List.isEmpty_cons, List.isEmpty_eq_false_iff]
      exact List.ne_nil_of_mem hmem

namespace Reference

open Classpath

variable {ρ : Type} {task : Task ρ} {base world : World} {inv : ρ → Prop}
  {answer : String → Except Failure (Option Bytes)} {root : Path} {relative : Location} {roots : List Path}

/-- The source of class bytes keeps to its answers, as long as it is asked about a world with these files. -/
structure Answering (task : Task ρ) (base : World) (inv : ρ → Prop)
    (answer : String → Except Failure (Option Bytes)) : Prop where
  answers : ∀ source world resource, inv source → world.silent = base.silent →
    (task.read source world resource).1 = answer resource
  keeps : ∀ source world resource, inv source → world.silent = base.silent →
    inv (task.read source world resource).2.1
  silent : ∀ source world resource, inv source → world.silent = base.silent →
    (task.read source world resource).2.2.silent = base.silent

def keyAt (classId : Bytes → Int) (answer : String → Except Failure (Option Bytes)) (relative : Location) :
    Except Failure ClassKey :=
  keyBy classId (binaryNameOf (Path.mk .here relative).text) (answer (Path.mk .here relative).text)

theorem exists_of_keyAt {classId : Bytes → Int} {key : ClassKey} (h : keyAt classId answer relative = .ok key) :
    ∃ data, answer (Path.mk .here relative).text = .ok (some data) ∧
      ClassKey.of (binaryNameOf (Path.mk .here relative).text) (classId data) = .ok key := by
  unfold keyAt keyBy at h
  split at h
  · split at h <;> cases h
  · cases h
  · next data hdata =>
    refine ⟨data, hdata, ?_⟩
    cases hkey : ClassKey.of (binaryNameOf (Path.mk .here relative).text) (classId data) with
    | error error =>
        rw [hkey] at h
        cases h
    | ok found =>
        rw [hkey] at h
        exact congrArg Except.ok (Except.ok.inj h)

/-- The class files that the scan of a class directory comes to, in turn. -/
def classesBelow (world : World) (root : Path) : List Location :=
  (Walk.entriesOf (Walk.itinerary world false root pathMax [])).filter fun relative =>
    isClassFile (root.descend relative)

/-- The reference set of the keys of all classes; that there are none is an error. -/
def setOf : Except Failure (List ClassKey) → Except Failure ReferenceSet
  | .error failure => .error failure
  | .ok [] => .error .emptyReferenceSet
  | .ok (key :: rest) => .ok (ReferenceSet.ofList ((key :: rest).map (·.path)))

section SetOf

variable {classes : List Location} {key : Location → Except Failure ClassKey}

/-- The reference set has the keys of all classes, and no other. -/
theorem contains_of_setOf {references : ReferenceSet} (h : setOf (classes.mapM key) = .ok references) :
    (∀ relative ∈ classes, ∃ found, key relative = .ok found) ∧
      ∀ text, references.contains text = true ↔ ∃ relative ∈ classes, key relative = .ok ⟨text⟩ := by
  cases hkeys : classes.mapM key with
  | error failure =>
      rw [hkeys] at h
      cases h
  | ok keys =>
      have hset : references = ReferenceSet.ofList (keys.map (·.path)) := by
        rw [hkeys] at h
        cases keys with
        | nil => cases h
        | cons first rest => exact (Except.ok.inj h).symm
      refine ⟨exists_mapM_eq_ok_iff.mp ⟨keys, hkeys⟩, fun text => ?_⟩
      rw [hset, ReferenceSet.contains_ofList, List.mem_map]
      constructor
      · rintro ⟨found, hfound, rfl⟩
        exact (mem_of_mapM_eq_ok hkeys).mp hfound
      · exact fun hfound => ⟨⟨text⟩, (mem_of_mapM_eq_ok hkeys).mpr hfound, rfl⟩

/-- Classes that all have keys make a reference set. -/
theorem exists_setOf (hne : classes ≠ []) (hall : ∀ relative ∈ classes, ∃ found, key relative = .ok found) :
    ∃ references, setOf (classes.mapM key) = .ok references := by
  obtain ⟨keys, hkeys⟩ := exists_mapM_eq_ok_iff.mpr hall
  obtain ⟨relative, hrelative⟩ := List.exists_mem_of_ne_nil classes hne
  obtain ⟨found, hfound⟩ := hall relative hrelative
  have hmem : found ∈ keys := (mem_of_mapM_eq_ok hkeys).mpr ⟨relative, hrelative, hfound⟩
  obtain ⟨first, rest, rfl⟩ := List.exists_cons_of_ne_nil (List.ne_nil_of_mem hmem)
  rw [hkeys]
  exact ⟨_, rfl⟩

/-- There is no reference set if there are no classes, or if one of them has no key. -/
theorem error_of_setOf {failure : Failure} (h : setOf (classes.mapM key) = .error failure) :
    failure = .emptyReferenceSet ∧ classes = [] ∨ ∃ relative ∈ classes, key relative = .error failure := by
  cases hkeys : classes.mapM key with
  | error found =>
      rw [hkeys] at h
      cases h
      obtain ⟨before, relative, after, rfl, -, hrelative⟩ := mapM_eq_error_iff.mp hkeys
      exact .inr ⟨relative, by simp, hrelative⟩
  | ok keys =>
      rw [hkeys] at h
      cases keys with
      | cons first rest => cases h
      | nil =>
          cases h
          refine .inl ⟨rfl, ?_⟩
          by_contra hne
          obtain ⟨references, hok⟩ := exists_setOf hne (exists_mapM_eq_ok_iff.mp ⟨[], hkeys⟩)
          rw [hkeys] at hok
          cases hok

end SetOf

/-- The scan goes over a world with the given files, and its source keeps to its answers. -/
structure Scan.Over (base : World) (inv : ρ → Prop) (scan : Scan ρ) : Prop where
  source : inv scan.source
  silent : scan.world.silent = base.silent

/-- A part of a scan yields these keys, or it is ended by this failure. -/
def Yields (base : World) (inv : ρ → Prop) (before : ReferenceSet) (outcome : Except Failure (List ClassKey))
    (result : Walk.Flow Failure × Walk.State (Scan ρ)) : Prop :=
  result.2.inner.Over base inv ∧
    match outcome with
    | .error failure => result.1 = .stopped (.own failure)
    | .ok keys => result.1 = .onward ∧ result.2.inner.keys = before.insertAll (keys.map (·.path))

theorem Yields.cons {before : ReferenceSet} {key : ClassKey} {outcome : Except Failure (List ClassKey)}
    {result : Walk.Flow Failure × Walk.State (Scan ρ)} (h : Yields base inv (before.insert key.path) outcome result) :
    Yields base inv before (outcome.map (key :: ·)) result := by
  cases outcome <;> exact h

namespace Answering

variable (h : Answering task base inv answer)
include h

section Visit

variable {scan : Scan ρ} (hscan : scan.Over base inv)
include hscan

theorem over_keyFor (file root : Path) :
    (keyFor task file root scan).2.Over base inv ∧ (keyFor task file root scan).2.keys = scan.keys := by
  cases hrelative : file.relativeTo? root with
  | none =>
      rw [keyFor_of_not_below hrelative]
      exact ⟨hscan, rfl⟩
  | some relative =>
      obtain ⟨logged, answer, source, read, later, hlogged, hask, hlater, hkey⟩ :=
        @exists_keyFor _ task _ _ _ hrelative scan
      have hsilent := hlogged.silent.trans hscan.silent
      have hkeeps := h.keeps scan.source logged relative.text hscan.source hsilent
      have hafter := h.silent scan.source logged relative.text hscan.source hsilent
      rw [hask] at hkeeps hafter
      rw [hkey]
      exact ⟨⟨hkeeps, hlater.silent.trans hafter⟩, rfl⟩

theorem keyFor_fst (root : Path) (relative : Location) :
    (keyFor task (root.descend relative) root scan).1 = keyAt task.classId answer relative := by
  obtain ⟨logged, found, source, read, later, hlogged, hask, -, hkey⟩ :=
    @exists_keyFor _ task _ _ _ (Path.relativeTo?_descend root relative) scan
  have hanswer := h.answers scan.source logged (Path.mk .here relative).text hscan.source
    (hlogged.silent.trans hscan.silent)
  rw [hask] at hanswer
  rw [hkey, keyAt, ← hanswer]

theorem exists_visit_of_ok (hinterval : task.interval ≠ some 0) (hclass : isClassFile (root.descend relative) = true)
    {key : ClassKey} (hkey : keyAt task.classId answer relative = .ok key) :
    ∃ next, visit task root (root.descend relative) scan = (.ok .proceed, next) ∧ next.Over base inv ∧
      next.keys = scan.keys.insert key.path := by
  obtain ⟨hover, hkeys⟩ := h.over_keyFor hscan (root.descend relative) root
  have hfst := (h.keyFor_fst hscan root relative).trans hkey
  cases hresult : keyFor task (root.descend relative) root scan with
  | mk result next =>
      rw [hresult] at hover hkeys hfst
      obtain rfl : result = .ok key := hfst
      obtain ⟨due, hdue⟩ := Progress.exists_due? hinterval (next.processed + 1)
      refine ⟨_, visit_of_keyFor_ok hclass hresult hdue, ?_⟩
      rw [← hkeys]
      cases due <;> exact ⟨⟨hover.source, hover.silent⟩, rfl⟩

theorem exists_visit_of_error (hclass : isClassFile (root.descend relative) = true) {failure : Failure}
    (hkey : keyAt task.classId answer relative = .error failure) :
    ∃ next, visit task root (root.descend relative) scan = (.error (.own failure), next) ∧ next.Over base inv := by
  have hover := (h.over_keyFor hscan (root.descend relative) root).1
  have hfst := (h.keyFor_fst hscan root relative).trans hkey
  cases hresult : keyFor task (root.descend relative) root scan with
  | mk result next =>
      rw [hresult] at hover hfst
      obtain rfl : result = .error failure := hfst
      exact ⟨next, visit_of_keyFor_error hclass hresult, hover⟩

end Visit

theorem watches (root : Path) : Walk.Watches (visitor task root) base (Scan.Over base inv) where
  keeps :=
    { visit := by
        intro file scan hscan
        change (visit task root file scan).2.Over base inv
        rcases visit_eq_or task root file scan with hsame | ⟨hsource, hsilent⟩
        · rwa [hsame]
        · have hover := (h.over_keyFor hscan file root).1
          exact ⟨hsource ▸ hover.source, hsilent.trans hover.silent⟩
      raise := fun _ _ _ _ _ => .inl trivial
      log := fun _ _ hscan => ⟨hscan.source, hscan.silent⟩
      onError := fun _ hnone => by cases hnone }
  world _ hscan := hscan.silent

variable (hinterval : task.interval ≠ some 0)
include hinterval

/-- The encounters of a walk yield the keys of the class files among them. -/
theorem yields_each (root : Path) (encounters : List Walk.Encounter) {state : Walk.State (Scan ρ)}
    (hstate : state.inner.Over base inv) :
    Yields base inv state.inner.keys
      (((Walk.entriesOf encounters).filter fun relative => isClassFile (root.descend relative)).mapM
        (keyAt task.classId answer))
      (Walk.each (Walk.meet (visitor task root) root) encounters state) := by
  induction encounters generalizing state with
  | nil => exact ⟨hstate, rfl, rfl⟩
  | cons encounter rest ih =>
      cases encounter with
      | unlisted relative error =>
          exact @ih (Walk.listingFailed (visitor task root) (root.descend relative) error state)
            ⟨hstate.source, hstate.silent⟩
      | entry relative =>
          rw [Walk.entriesOf_cons_entry, Walk.each, Walk.meet]
          cases hclass : isClassFile (root.descend relative) with
          | false =>
              rw [List.filter_cons_of_neg (by simp [hclass]), Walk.hand_of_proceed (visit_of_not_isClassFile hclass _)]
              exact @ih ⟨state.inner, state.visited + 1⟩ hstate
          | true =>
              rw [List.filter_cons_of_pos (by simpa using hclass), List.mapM_cons]
              cases hkey : keyAt task.classId answer relative with
              | error failure =>
                  obtain ⟨next, hvisit, hnext⟩ := h.exists_visit_of_error hstate hclass hkey
                  rw [Walk.hand_of_own hvisit]
                  exact ⟨hnext, rfl⟩
              | ok key =>
                  obtain ⟨next, hvisit, hnext, hkeys⟩ := h.exists_visit_of_ok hstate hinterval hclass hkey
                  have hrest := @ih ⟨next, state.visited + 1⟩ hnext
                  rw [hkeys] at hrest
                  rw [Walk.hand_of_proceed hvisit]
                  exact hrest.cons

/-- The walk through a class directory yields the keys of the class files below it. -/
theorem exists_run (hnul : root.hasNul = false) {scan : Scan ρ} (hscan : scan.Over base inv) :
    ∃ after, after.Over base inv ∧
      match (classesBelow base root).mapM (keyAt task.classId answer) with
      | .error failure => Walk.run (visitor task root) root scan = (.error (.own failure), after)
      | .ok keys =>
        (∃ count, Walk.run (visitor task root) root scan = (.ok count, after)) ∧
          after.keys = scan.keys.insertAll (keys.map (·.path)) := by
  have hyields := @yields_each _ _ _ _ _ h hinterval root (Walk.itinerary base false root pathMax []) ⟨scan, 0⟩ hscan
  have hrun := (h.watches root).run_eq hnul hscan
  rw [show (visitor task root).followLinks = false from rfl] at hrun
  rw [hrun]
  generalize Walk.each (Walk.meet (visitor task root) root) (Walk.itinerary base false root pathMax []) ⟨scan, 0⟩ =
    result at hyields ⊢
  obtain ⟨flow, next⟩ := result
  refine ⟨next.inner, hyields.1, ?_⟩
  change Yields base inv scan.keys ((classesBelow base root).mapM _) _ at hyields
  generalize (classesBelow base root).mapM (keyAt task.classId answer) = outcome at hyields ⊢
  cases outcome with
  | error failure =>
      obtain rfl : flow = .stopped (.own failure) := hyields.2
      rfl
  | ok keys =>
      obtain ⟨rfl, hkeys⟩ : flow = .onward ∧ _ := hyields.2
      exact ⟨⟨next.visited, rfl⟩, hkeys⟩

/-- The scan of the roots yields the keys of the class files below them, one root after the other. -/
theorem exists_scanRoots (hroots : ∀ root ∈ roots, root.hasNul = false) {scan : Scan ρ} (hscan : scan.Over base inv) :
    ∃ after,
      match (roots.flatMap (classesBelow base)).mapM (keyAt task.classId answer) with
      | .error failure => scanRoots task roots scan = (.error failure, after)
      | .ok keys => scanRoots task roots scan = (.ok (), after) ∧
          after.keys = scan.keys.insertAll (keys.map (·.path)) := by
  induction roots generalizing scan with
  | nil => exact ⟨scan, rfl, rfl⟩
  | cons root rest ih =>
      obtain ⟨next, hnext, hrun⟩ := @exists_run _ _ _ _ _ root h hinterval (hroots root List.mem_cons_self)
        (scan.log .reference ("Checking local classes: " ++ root.text)) ⟨hscan.source, hscan.silent⟩
      rw [List.flatMap_cons, List.mapM_append]
      cases hfirst : (classesBelow base root).mapM (keyAt task.classId answer) with
      | error failure =>
          rw [hfirst] at hrun
          refine ⟨next, ?_⟩
          change scanRoots task (root :: rest) scan = (.error failure, next)
          rw [scanRoots, hrun]
          rfl
      | ok keys =>
          rw [hfirst] at hrun
          obtain ⟨⟨count, hrun⟩, hkeys⟩ := hrun
          obtain ⟨after, hafter⟩ := ih (fun other hother => hroots other (List.mem_cons_of_mem _ hother)) hnext
          refine ⟨after, ?_⟩
          have hscanRoots : scanRoots task (root :: rest) scan = scanRoots task rest next := by
            rw [scanRoots, hrun]
          rw [hscanRoots]
          cases hrest : (rest.flatMap (classesBelow base)).mapM (keyAt task.classId answer) with
          | error failure =>
              rw [hrest] at hafter
              exact hafter
          | ok others =>
              rw [hrest] at hafter
              refine ⟨hafter.1, hafter.2.trans ?_⟩
              rw [hkeys, ReferenceSet.insertAll_append, List.map_append]
              rfl

/-- The reference set is that of the keys of the class files below the roots; the first of them without a key keeps it
from being built, and so does that there are none. -/
theorem build_fst {source : ρ} (hsource : inv source) (hworld : world.silent = base.silent)
    (hroots : ∀ root ∈ roots, root.hasNul = false) :
    (build task roots source world).1 =
      setOf ((roots.flatMap (classesBelow base)).mapM (keyAt task.classId answer)) := by
  obtain ⟨after, hafter⟩ := @exists_scanRoots _ _ _ _ _ roots h hinterval hroots { world := world, source := source }
    ⟨hsource, hworld⟩
  unfold build
  cases hkeys : (roots.flatMap (classesBelow base)).mapM (keyAt task.classId answer) with
  | error failure =>
      rw [hkeys] at hafter
      rw [show scanRoots task roots { world := world, source := source } = _ from hafter]
      rfl
  | ok keys =>
      rw [hkeys] at hafter
      obtain ⟨hscan, hset⟩ := hafter
      obtain ⟨isOpen, hopen⟩ := Progress.exists_open? hinterval after.processed
      have hempty : after.keys.isEmpty = keys.isEmpty := by
        rw [hset]
        change (ReferenceSet.empty.insertAll _).isEmpty = _
        rw [ReferenceSet.isEmpty_insertAll, List.isEmpty_map]
      rw [hscan]
      dsimp only
      rw [hopen]
      cases keys with
      | nil => cases isOpen <;> exact congrArg Prod.fst (if_pos hempty)
      | cons key rest =>
          rw [List.isEmpty_cons] at hempty
          cases isOpen <;>
            exact (congrArg Prod.fst (if_neg (Bool.eq_false_iff.mp hempty))).trans (congrArg Except.ok hset)

end Answering

section Along

variable {entries : List Path} {progress : Bool}

/-- What is read for a class is the first answer of the classpath. -/
theorem exists_answer {source : Lookup} (resource : String) (hworld : world.silent = base.silent)
    (hsource : (Lookup.along entries).Onward base source) :
    ∃ later after,
      (Pipeline.referenceTask progress).read source world resource = (firstAnswer base resource entries, later, after) ∧
      (Lookup.along entries).Onward base later ∧ after.silent = base.silent := by
  obtain ⟨later, after, hread, hlater⟩ := Lookup.exists_readFrom resource entries hworld hsource.sound
  have hsilent := Lookup.silent_readFrom resource entries source world
  rw [hread] at hsilent
  refine ⟨later, after, ?_, hsource.trans hlater, hsilent.trans hworld⟩
  change source.readResource world resource = _
  unfold Lookup.readResource
  rw [show source.closed = false from hsource.closed, show source.entries = entries from hsource.entries, hread]
  rfl

/-- The look-up along a classpath keeps to the first answers of its entries. -/
theorem answering_along (base : World) (entries : List Path) (progress : Bool) :
    Answering (Pipeline.referenceTask progress) base ((Lookup.along entries).Onward base) fun resource =>
      firstAnswer base resource entries where
  answers source world resource hsource hworld := by
    obtain ⟨later, after, hread, -⟩ := @exists_answer _ _ _ progress _ resource hworld hsource
    rw [hread]
  keeps source world resource hsource hworld := by
    obtain ⟨later, after, hread, hlater, -⟩ := @exists_answer _ _ _ progress _ resource hworld hsource
    rw [hread]
    exact hlater
  silent source world resource hsource hworld := by
    obtain ⟨later, after, hread, -, hafter⟩ := @exists_answer _ _ _ progress _ resource hworld hsource
    rw [hread]
    exact hafter

theorem build_along_fst (hworld : world.silent = base.silent) (hroots : ∀ root ∈ roots, root.hasNul = false) :
    (build (Pipeline.referenceTask progress) roots (.along entries) world).1 =
      setOf ((roots.flatMap (classesBelow base)).mapM
        (keyAt agentId fun resource => firstAnswer base resource entries)) :=
  (answering_along base entries progress).build_fst (interval_ne_zero progress)
    (.refl (Lookup.sound_along base entries)) hworld hroots

end Along

theorem noNul_of_scanRoots {scan : Scan ρ} (h : (scanRoots task roots scan).1 = .ok ()) :
    ∀ root ∈ roots, root.hasNul = false := by
  induction roots generalizing scan with
  | nil => exact fun _ hroot => absurd hroot List.not_mem_nil
  | cons root rest ih =>
      rw [scanRoots] at h
      split at h
      · cases h
      · next hwalk => exact List.forall_mem_cons.mpr ⟨Walk.noNul_of_run hwalk, ih h⟩

/-- Where a reference set is built, every root can be asked about. -/
theorem noNul_of_build {source : ρ} {references : ReferenceSet}
    (h : (build task roots source world).1 = .ok references) : ∀ root ∈ roots, root.hasNul = false := by
  unfold build at h
  split at h
  · cases h
  · next heq => exact noNul_of_scanRoots (congrArg Prod.fst heq)

end Reference
end ClassDump
