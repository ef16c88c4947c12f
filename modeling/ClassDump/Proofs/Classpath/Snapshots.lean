import ClassDump.Proofs.Classpath.FirstAnswer
import Mathlib.Data.List.Nodup

/-! A read of a look-up that has taken snapshots of archives. It answers as the first entry does that has the resource: a
directory by what it is now, an archive by its snapshot. Of the archives that it is the first to come to, it takes
snapshots, and it opens no others. -/

namespace ClassDump.Classpath

/-- The snapshots taken so far, by the path of the archive; that of an unreadable archive is none. -/
abbrev Snapshots := Path → Option (Option Archive)

section Answer

variable (known : Snapshots) (world : World) (resource : String)

/-- The archive that the snapshots have for a path, or else the one that is there. -/
def heldAt (path : Path) : Except Failure (Option Archive) :=
  match known path with
  | some held => .ok held
  | none => archiveOf world path

/-- The answer of one entry, where archives answer from their snapshots. -/
def answerWith (entry : Path) : Except Failure (Option Bytes) :=
  if consults world entry then (heldAt known world entry).bind (answerIn resource) else answerOf world resource entry

def firstOf (answer : Path → Except Failure (Option Bytes)) : List Path → Except Failure (Option Bytes)
  | [] => .ok none
  | entry :: rest =>
    match answer entry with
    | .ok none => firstOf answer rest
    | found => found

/-- A read along the entries comes to the archive at a path: all entries before it miss. -/
def comesTo (path : Path) : List Path → Bool
  | [] => false
  | entry :: rest =>
    (consults world entry && entry == path) ||
      match answerWith known world resource entry with
      | .ok none => comesTo path rest
      | _ => false

/-- The snapshots after a read: those from before, and one of each archive that the read is the first to come to. -/
def learn (entries : List Path) : Snapshots := fun path =>
  (known path).or (if comesTo known world resource path entries then (archiveOf world path).toOption else none)

end Answer

variable {known : Snapshots} {base world : World} {lookup : Lookup} {resource : String} {path entry : Path}
  {paths entries : List Path}

theorem learn_apply (known : Snapshots) (world : World) (resource : String) (entries : List Path) (path : Path) :
    learn known world resource entries path =
      (known path).or (if comesTo known world resource path entries then (archiveOf world path).toOption else none) :=
  rfl

theorem firstAnswer_eq_firstOf (world : World) (resource : String) (paths : List Path) :
    firstAnswer world resource paths = firstOf (answerOf world resource) paths := by
  induction paths with
  | nil => rfl
  | cons entry rest ih =>
      cases hanswer : answerOf world resource entry with
      | error error => simp only [firstAnswer, firstOf, hanswer]
      | ok found => cases found <;> simp only [firstAnswer, firstOf, hanswer, ih]

/-- What comes to an archive finds it in the list, behind entries that miss. -/
theorem comesTo_eq_true_iff : comesTo known world resource path entries = true ↔
    ∃ before after, entries = before ++ path :: after ∧ consults world path = true ∧
      ∀ other ∈ before, answerWith known world resource other = .ok none := by
  induction entries with
  | nil => simp [comesTo]
  | cons first rest ih =>
      constructor
      · intro h
        rcases Bool.or_eq_true_iff.mp h with h | h
        · obtain ⟨hconsults, hpath⟩ := Bool.and_eq_true_iff.mp h
          obtain rfl := eq_of_beq hpath
          exact ⟨[], rest, rfl, hconsults, fun _ hother => absurd hother List.not_mem_nil⟩
        · split at h
          · next hmiss =>
            obtain ⟨before, after, rfl, hconsults, hbefore⟩ := ih.mp h
            exact ⟨first :: before, after, rfl, hconsults, List.forall_mem_cons.mpr ⟨hmiss, hbefore⟩⟩
          · cases h
      · rintro ⟨before, after, hentries, hconsults, hbefore⟩
        cases before with
        | nil =>
            obtain ⟨rfl, rfl⟩ := List.cons.inj hentries
            exact Bool.or_eq_true_iff.mpr (.inl (Bool.and_eq_true_iff.mpr ⟨hconsults, beq_self_eq_true _⟩))
        | cons other before =>
            obtain ⟨rfl, rfl⟩ := List.cons.inj hentries
            obtain ⟨hmiss, hbefore⟩ := List.forall_mem_cons.mp hbefore
            refine Bool.or_eq_true_iff.mpr (.inr ?_)
            rw [hmiss]
            exact ih.mpr ⟨before, after, rfl, hconsults, hbefore⟩

namespace Lookup

/-- In the course of a read that starts from the snapshots, the look-up has them, and perhaps archives that were opened
since. -/
def Follows (known : Snapshots) (base : World) (lookup : Lookup) : Prop :=
  ∀ path, lookup.archives.lookup path = known path ∨
    known path = none ∧ lookup.archives.lookup path = (archiveOf base path).toOption

/-- What a read leaves: nothing has changed but the archives, of which those at the given paths are now known. -/
structure Extends (base : World) (opened : Path → Bool) (lookup later : Lookup) (after : World) : Prop where
  silent : after.silent = base.silent
  entries : later.entries = lookup.entries
  closed : later.closed = lookup.closed
  archives : ∀ path, later.archives.lookup path =
    (lookup.archives.lookup path).or (if opened path then (archiveOf base path).toOption else none)

theorem Extends.refl (h : world.silent = base.silent) : lookup.Extends base (fun _ => false) lookup world :=
  ⟨h, rfl, rfl, fun path => by simp⟩

theorem Extends.trans {opened reopened : Path → Bool} {later final : Lookup} {after last : World}
    (h : lookup.Extends base opened later after) (hnext : later.Extends base reopened final last) :
    lookup.Extends base (fun path => opened path || reopened path) final last := by
  refine ⟨hnext.silent, hnext.entries.trans h.entries, hnext.closed.trans h.closed, fun path => ?_⟩
  rw [hnext.archives, h.archives]
  cases lookup.archives.lookup path <;> cases opened path <;> cases reopened path <;>
    cases (archiveOf base path).toOption <;> rfl

theorem Follows.extends {opened : Path → Bool} {later : Lookup} {after : World} (h : lookup.Follows known base)
    (hlater : lookup.Extends base opened later after) : later.Follows known base := by
  intro path
  rw [hlater.archives]
  rcases h path with hsame | ⟨hnone, hopened⟩
  · rw [hsame]
    cases hknown : known path with
    | some held => exact .inl rfl
    | none => cases opened path <;> simp
  · refine .inr ⟨hnone, ?_⟩
    rw [hopened]
    cases opened path <;> simp

theorem Follows.heldAt_of_known (h : lookup.Follows known base) {held : Option Archive}
    (hlookup : lookup.archives.lookup path = some held) : heldAt known base path = .ok held := by
  unfold heldAt
  rcases h path with hsame | ⟨hnone, hopened⟩
  · rw [← hsame, hlookup]
  · rw [hnone]
    rw [hlookup] at hopened
    cases harchive : archiveOf base path with
    | error error =>
        rw [harchive] at hopened
        cases hopened
    | ok archive =>
        rw [harchive] at hopened
        exact congrArg Except.ok (Option.some.inj hopened).symm

theorem Follows.heldAt_of_unknown (h : lookup.Follows known base) (hlookup : lookup.archives.lookup path = none) :
    heldAt known base path = archiveOf base path := by
  unfold heldAt
  rcases h path with hsame | ⟨hnone, -⟩
  · rw [← hsame, hlookup]
  · rw [hnone]

/-- The archive at a path is that of its snapshot, or else the one that is there now and is known from now on. -/
theorem exists_archiveAt_eq_heldAt (hworld : world.silent = base.silent) (h : lookup.Follows known base)
    (path : Path) : ∃ later after, lookup.archiveAt world path = (heldAt known base path, later, after) ∧
      lookup.Extends base (fun other => path == other) later after := by
  cases hlookup : lookup.archives.lookup path with
  | some held =>
      rw [archiveAt_of_known hlookup, h.heldAt_of_known hlookup]
      refine ⟨lookup, world, rfl, hworld, rfl, rfl, fun other => ?_⟩
      by_cases hother : path = other
      · subst hother
        rw [hlookup]
        rfl
      · simp [hother]
  | none =>
      have hsilent := silent_archiveAt lookup world path
      have hopened := archiveOf_of_silent hworld path
      rw [archiveAt_of_unknown hlookup] at hsilent ⊢
      rw [h.heldAt_of_unknown hlookup, ← hopened]
      unfold archiveOf at hopened ⊢
      rcases hopening : opening world path with ⟨opened, after⟩
      rw [hopening] at hopened hsilent
      cases opened with
      | error error =>
          refine ⟨lookup, after, rfl, hsilent.trans hworld, rfl, rfl, fun other => ?_⟩
          by_cases hother : path = other
          · subst hother
            simp [archiveOf, ← hopened, hlookup, Except.toOption]
          · simp [hother]
      | ok archive =>
          refine ⟨_, after, rfl, hsilent.trans hworld, rfl, rfl, fun other => ?_⟩
          rw [List.lookup_append]
          by_cases hother : path = other
          · subst hother
            simp [archiveOf, ← hopened, hlookup, Except.toOption]
          · simp [hother, List.lookup_cons, beq_eq_false_iff_ne.mpr (Ne.symm hother)]

/-- An entry answers by the snapshots, and if it is an archive that is consulted, it is known from now on. -/
theorem exists_answerAt_eq_answerWith (hworld : world.silent = base.silent) (h : lookup.Follows known base)
    (resource : String) (entry : Path) :
    ∃ later after, lookup.answerAt world resource entry = (answerWith known base resource entry, later, after) ∧
      lookup.Extends base (fun path => consults base entry && entry == path) later after := by
  unfold answerAt answerWith
  rw [consults_of_silent hworld, answerOf_of_silent hworld]
  by_cases hconsults : consults base entry = true
  · obtain ⟨later, after, harchive, hlater⟩ := exists_archiveAt_eq_heldAt hworld h entry
    rw [if_pos hconsults, if_pos hconsults, harchive]
    exact ⟨later, after, rfl, by simpa only [hconsults, Bool.true_and] using hlater⟩
  · rw [if_neg hconsults, if_neg hconsults]
    exact ⟨lookup, world, rfl, by simpa only [hconsults, Bool.false_and] using .refl hworld⟩

/-- A read answers as the first entry does that has the resource by the snapshots, and it adds the archives that it
comes to. -/
theorem exists_readFrom_eq_firstOf (resource : String) (paths : List Path) (hworld : world.silent = base.silent)
    (h : lookup.Follows known base) :
    ∃ later after, readFrom resource paths lookup world = (firstOf (answerWith known base resource) paths, later, after)
      ∧ lookup.Extends base (fun path => comesTo known base resource path paths) later after := by
  induction paths generalizing lookup world with
  | nil => exact ⟨lookup, world, rfl, .refl hworld⟩
  | cons entry rest ih =>
      obtain ⟨later, after, hanswer, hlater⟩ := exists_answerAt_eq_answerWith hworld h resource entry
      rw [readFrom_cons, hanswer]
      simp only [firstOf, comesTo]
      cases answerWith known base resource entry with
      | error error => exact ⟨later, after, rfl, by simpa only [Bool.or_false] using hlater⟩
      | ok found =>
          cases found with
          | some data => exact ⟨later, after, rfl, by simpa only [Bool.or_false] using hlater⟩
          | none =>
              obtain ⟨final, last, hread, hfinal⟩ := ih hlater.silent (h.extends hlater)
              exact ⟨final, last, hread, hlater.trans hfinal⟩

/-! ### What a read opens -/

/-- A read that notes the paths at which it opens archives. -/
def readNoting (resource : String) : List Path → Lookup → World → List Path × Answer (Option Bytes)
  | [], lookup, world => ([], .ok none, lookup, world)
  | entry :: rest, lookup, world =>
    if consults world entry then
      let opened := if (lookup.archives.lookup entry).isNone then [entry] else []
      match lookup.archiveAt world entry with
      | (.error error, lookup, world) => (opened, .error error, lookup, world)
      | (.ok held, lookup, world) =>
        match answerIn resource held with
        | .ok none =>
          let later := readNoting resource rest lookup world
          (opened ++ later.1, later.2)
        | found => (opened, found, lookup, world)
    else
      match answerOf world resource entry with
      | .ok none => readNoting resource rest lookup world
      | found => ([], found, lookup, world)

/-- The archive that is opened when the entry is asked, if one is. -/
def newAt (lookup : Lookup) (world : World) (entry : Path) : List Path :=
  if consults world entry ∧ lookup.archives.lookup entry = none then [entry] else []

theorem readNoting_cons (resource : String) (entry : Path) (rest : List Path) (lookup : Lookup) (world : World) :
    readNoting resource (entry :: rest) lookup world =
      match lookup.answerAt world resource entry with
      | (.ok none, later, after) =>
        (lookup.newAt world entry ++ (readNoting resource rest later after).1,
          (readNoting resource rest later after).2)
      | found => (lookup.newAt world entry, found) := by
  rw [readNoting]
  unfold answerAt newAt
  by_cases hconsults : consults world entry = true
  · simp only [hconsults, if_true, true_and, Option.isNone_iff_eq_none]
    rcases lookup.archiveAt world entry with ⟨held, later, after⟩
    cases held with
    | error error => rfl
    | ok held =>
        dsimp only [Except.bind]
        cases answerIn resource held with
        | error error => rfl
        | ok found => cases found <;> rfl
  · simp only [hconsults]
    cases answerOf world resource entry with
    | error error => rfl
    | ok found => cases found <;> rfl

theorem readNoting_snd (resource : String) (paths : List Path) (lookup : Lookup) (world : World) :
    (readNoting resource paths lookup world).2 = readFrom resource paths lookup world := by
  induction paths generalizing lookup world with
  | nil => rfl
  | cons entry rest ih =>
      rw [readFrom_cons, readNoting_cons]
      rcases lookup.answerAt world resource entry with ⟨answer, later, after⟩
      cases answer with
      | error error => rfl
      | ok found =>
          cases found with
          | some data => rfl
          | none => exact ih later after

def opened (lookup : Lookup) : List Path :=
  lookup.archives.map (·.1)

theorem not_mem_opened (h : lookup.archives.lookup path = none) : path ∉ lookup.opened := by
  intro hmem
  obtain ⟨pair, hpair, rfl⟩ := List.mem_map.mp hmem
  exact absurd (List.lookup_eq_none_iff.mp h pair hpair) (by simp)

/-- An archive that opens, or is refused for good, is opened just where it is not known, and known from then on. -/
theorem opened_answerAt (resource : String) (hworld : world.silent = base.silent)
    (hopens : consults base entry = true → ∃ held, archiveOf base entry = .ok held) (h : lookup.opened.Nodup) :
    (lookup.answerAt world resource entry).2.1.opened = lookup.opened ++ lookup.newAt world entry ∧
      (lookup.answerAt world resource entry).2.1.opened.Nodup := by
  unfold answerAt newAt
  rw [consults_of_silent hworld]
  by_cases hconsults : consults base entry = true
  · simp only [hconsults, if_true, true_and]
    cases hlookup : lookup.archives.lookup entry with
    | some known =>
        rw [archiveAt_of_known hlookup]
        exact ⟨(List.append_nil _).symm, h⟩
    | none =>
        obtain ⟨held, hheld⟩ := hopens hconsults
        have hopening : (opening world entry).1 = .ok held := (archiveOf_of_silent hworld entry).trans hheld
        rw [archiveAt_of_unknown hlookup]
        generalize opening world entry = opened at hopening ⊢
        obtain ⟨result, after⟩ := opened
        obtain rfl : result = .ok held := hopening
        have hadded : ({ lookup with archives := lookup.archives ++ [(entry, held)] } : Lookup).opened =
            lookup.opened ++ [entry] := List.map_append
        refine ⟨hadded, hadded ▸ List.nodup_append.mpr ⟨h, List.nodup_singleton entry, ?_⟩⟩
        intro other hother found hfound hsame
        exact not_mem_opened hlookup (by rwa [← List.mem_singleton.mp hfound, ← hsame])
  · simp only [hconsults]
    exact ⟨(List.append_nil _).symm, h⟩

/-- Where every archive opens or is refused for good, a read opens just those that it adds, each of them once. -/
theorem opened_readFrom (resource : String) (paths : List Path) (hworld : world.silent = base.silent)
    (hopens : ∀ entry ∈ paths, consults base entry = true → ∃ held, archiveOf base entry = .ok held)
    (h : lookup.opened.Nodup) :
    (readFrom resource paths lookup world).2.1.opened =
        lookup.opened ++ (readNoting resource paths lookup world).1 ∧
      (readFrom resource paths lookup world).2.1.opened.Nodup := by
  induction paths generalizing lookup world with
  | nil => exact ⟨(List.append_nil _).symm, h⟩
  | cons entry rest ih =>
      obtain ⟨hentry, hrest⟩ := List.forall_mem_cons.mp hopens
      obtain ⟨hadded, hnodup⟩ := opened_answerAt resource hworld hentry h
      have hsilent := (silent_answerAt lookup world resource entry).trans hworld
      rw [readFrom_cons, readNoting_cons]
      generalize lookup.answerAt world resource entry = asked at hadded hnodup hsilent ⊢
      obtain ⟨answer, later, after⟩ := asked
      cases answer with
      | error error => exact ⟨hadded, hnodup⟩
      | ok found =>
          cases found with
          | some data => exact ⟨hadded, hnodup⟩
          | none =>
              obtain ⟨hmore, hlater⟩ := ih hsilent hrest hnodup
              refine ⟨?_, hlater⟩
              dsimp only at hadded ⊢
              rw [hmore, hadded, List.append_assoc]

end Lookup
end ClassDump.Classpath
