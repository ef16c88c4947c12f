import ClassDump.Proofs.Walk.Agenda
import ClassDump.Proofs.Walk.Encounters
import ClassDump.Proofs.Walk.Notes

/-! The account of a walk: what it hands over, what it reports to the error handler and how it ends, told by what it
comes to. Each encounter adds to the account until one ends the walk: a visit that ends it, an error of the system that
no handler takes, or an error of the visitor's own. What a visit or a listing fails with goes to the handler, and the
walk goes on. -/

namespace ClassDump

variable {σ ε : Type}

namespace Walk

/-- The paths that a walk has handed over and the calls of its error handler, in order. -/
structure Record where
  handed : List Path := []
  calls : List (Path × OsError) := []
deriving DecidableEq, Repr

end Walk

/-- The visitor that records all paths handed to it and all calls of its error handler. -/
def Visitor.recorded (visitor : Visitor σ ε) : Visitor (σ × Walk.Record) ε :=
  visitor.noting (fun path _ record => { record with handed := record.handed ++ [path] })
    fun path error record => { record with calls := record.calls ++ [(path, error)] }

namespace Walk

theorem alike_recorded (visitor : Visitor σ ε) : Alike visitor.recorded visitor fun state copy => state.1 = copy :=
  alike_noting visitor _ _

/-- The walk that is recorded is the walk of the visitor itself. -/
theorem run_recorded (visitor : Visitor σ ε) (root : Path) (inner : σ) :
    (run visitor.recorded root (inner, {})).1 = (run visitor root inner).1 ∧
      (run visitor.recorded root (inner, {})).2.1 = (run visitor root inner).2 :=
  (alike_recorded visitor).run_eq root rfl

/-- Visitors that are alike meet an encounter alike. -/
theorem Alike.matched_meet {τ : Type} {visitor : Visitor σ ε} {other : Visitor τ ε} {rel : σ → τ → Prop}
    (h : Alike visitor other rel) (root : Path) (encounter : Encounter) {state : State σ} {copy : State τ}
    (hvisited : state.visited = copy.visited) (hrel : rel state.inner copy.inner) :
    Matched rel (meet visitor root encounter state) (meet other root encounter copy) := by
  cases encounter with
  | entry relative => exact h.matched_hand hvisited hrel root (root.descend relative)
  | unlisted relative error => exact h.matched_listingFailed hvisited hrel (root.descend relative) error

/-- No path is handed over twice, whatever the visitor does in the meantime. -/
theorem nodup_handed (visitor : Visitor σ ε) (root : Path) (inner : σ) :
    (run visitor.recorded root (inner, {})).2.2.handed.Nodup := by
  unfold Visitor.recorded
  refine (nodup_noted (fun state : σ × Record => state.2.handed) (fun path state => .inr ?_)
    (fun path error state => .inl ?_) rfl).1
  · rcases notes_hand visitor _ _ root path state with hone | ⟨error, hone⟩ <;> rw [hone]
  · rcases notes_listingFailed visitor _ _ path error state with hsame | hone
    · rw [hsame]
    · rw [hone]

/-- The visitor leaves the files alone, and what it answers depends on the path only. -/
structure Scripted (visitor : Visitor σ ε) (base : World) (inv : σ → Prop)
    (answer : Path → Except (Raised ε) VisitAction) : Prop where
  watches : Watches visitor base inv
  answers : ∀ path state, inv state → (visitor.visit path state).1 = answer path

/-- What was handed over and reported so far, and whether the walk is still going on. -/
structure Account (ε : Type) extends Record where
  flow : Flow ε := .onward

section Spec

variable (handled : Bool) (answer : Path → Except (Raised ε) VisitAction) (root : Path)

def handedOf : Encounter → Option Path
  | .entry relative => some (root.descend relative)
  | .unlisted _ _ => none

def callOf : Encounter → Option (Path × OsError)
  | .unlisted relative error => if handled then some (root.descend relative, error) else none
  | .entry relative =>
    match answer (root.descend relative) with
    | .error (.os error) => if handled then some (root.descend relative, error) else none
    | _ => none

/-- How the encounter ends the walk, if it does. -/
def endOf : Encounter → Option (Flow ε)
  | .unlisted _ _ => none
  | .entry relative =>
    match answer (root.descend relative) with
    | .ok .proceed => none
    | .ok .terminate => some .ended
    | .error (.os error) => if handled then none else some (.stopped (.os error))
    | .error raised => some (.stopped raised)

variable {handled answer root} in
theorem endOf_ne_onward (encounter : Encounter) : endOf handled answer root encounter ≠ some .onward := by
  intro hend
  cases encounter with
  | unlisted relative error => cases hend
  | entry relative =>
      simp only [endOf] at hend
      split at hend
      · cases hend
      · cases hend
      · split at hend <;> cases hend
      · cases hend

namespace Account

/-- The account after one more encounter; after the end nothing is added. -/
def after (account : Account ε) (encounter : Encounter) : Account ε :=
  match account.flow with
  | .onward =>
    { handed := account.handed ++ (handedOf root encounter).toList
      calls := account.calls ++ (callOf handled answer root encounter).toList
      flow := (endOf handled answer root encounter).getD .onward }
  | _ => account

/-- The account of encounters up to which the walk goes on or ends so. -/
def upTo (encounters : List Encounter) (flow : Flow ε) : Account ε where
  handed := encounters.filterMap (handedOf root)
  calls := encounters.filterMap (callOf handled answer root)
  flow := flow

/-- What the walk answers: what stopped it, or the number of paths handed over. -/
def outcome (account : Account ε) : Except (Raised ε) Nat :=
  match account.flow with
  | .stopped raised => .error raised
  | _ => .ok account.handed.length

variable {handled answer root}

theorem after_of_ne_onward {account : Account ε} (h : account.flow ≠ .onward) (encounter : Encounter) :
    account.after handled answer root encounter = account := by
  unfold after
  split
  · next honward => exact absurd honward h
  · rfl

theorem foldl_after_of_ne_onward {account : Account ε} (h : account.flow ≠ .onward) (encounters : List Encounter) :
    encounters.foldl (after handled answer root) account = account := by
  induction encounters with
  | nil => rfl
  | cons encounter rest ih => rw [List.foldl_cons, after_of_ne_onward h, ih]

theorem after_upTo (encounters : List Encounter) (encounter : Encounter) :
    (upTo handled answer root encounters .onward).after handled answer root encounter =
      upTo handled answer root (encounters ++ [encounter]) ((endOf handled answer root encounter).getD .onward) := by
  simp only [after, upTo, List.filterMap_append, List.filterMap_cons, List.filterMap_nil]
  cases handedOf root encounter <;> cases callOf handled answer root encounter <;> rfl

/-- Where nothing ends the walk, everything is handed over. -/
theorem foldl_after_of_forall {encounters : List Encounter}
    (h : ∀ encounter ∈ encounters, endOf handled answer root encounter = none) :
    encounters.foldl (after handled answer root) {} = upTo handled answer root encounters .onward := by
  induction encounters using List.reverseRecOn with
  | nil => rfl
  | append_singleton encounters encounter ih =>
      obtain ⟨hbefore, hlast⟩ := List.forall_mem_append.mp h
      rw [List.foldl_append, ih hbefore, List.foldl_cons, List.foldl_nil, after_upTo,
        List.forall_mem_singleton.mp hlast, Option.getD_none]

/-- The first encounter that ends the walk is the last one that counts. -/
theorem foldl_after_of_first {before : List Encounter} {encounter : Encounter} {flow : Flow ε}
    (hbefore : ∀ earlier ∈ before, endOf handled answer root earlier = none)
    (hend : endOf handled answer root encounter = some flow) (rest : List Encounter) :
    (before ++ encounter :: rest).foldl (after handled answer root) {} =
      upTo handled answer root (before ++ [encounter]) flow := by
  have hflow : flow ≠ .onward := by
    rintro rfl
    exact endOf_ne_onward encounter hend
  rw [List.foldl_append, foldl_after_of_forall hbefore, List.foldl_cons, after_upTo, hend, Option.getD_some,
    foldl_after_of_ne_onward hflow]

end Account

end Spec

section Recorded

variable {visitor : Visitor σ ε} {base : World} {inv : σ → Prop} {answer : Path → Except (Raised ε) VisitAction}
  {root : Path}

theorem Watches.recorded (h : Watches visitor base inv) : Watches visitor.recorded base fun state => inv state.1 where
  keeps :=
    { visit := fun path state hstate => h.keeps.visit path state.1 hstate
      raise := fun _ _ _ _ _ => .inl trivial
      log := fun message state hstate => h.keeps.log message state.1 hstate
      onError := by
        intro handle hhandle path error state hstate
        obtain ⟨inner, hinner, rfl⟩ := Option.map_eq_some_iff.mp hhandle
        exact h.keeps.onError inner hinner path error state.1 hstate }
  world state hstate := h.world state.1 hstate

/-- A part of a walk has come to what the account says. -/
structure Tallies (inv : σ → Prop) (account : Account ε) (result : Flow ε × State (σ × Record)) : Prop where
  flow : result.1 = account.flow
  record : result.2.inner.2 = account.toRecord
  visited : result.2.visited = account.handed.length
  inner : inv result.2.inner.1

variable {account : Account ε} {state : State (σ × Record)}

theorem Scripted.tallies_hand (h : Scripted visitor base inv answer) (relative : Location)
    (hstate : Tallies inv account (.onward, state)) :
    Tallies inv (account.after visitor.onError.isSome answer root (.entry relative))
      (hand visitor.recorded root (root.descend relative) state) := by
  obtain ⟨hflow, hrecord, hvisited, hinner⟩ := hstate
  dsimp only at hflow hrecord hvisited hinner
  have hanswer := h.answers (root.descend relative) state.inner.1 hinner
  have hinv := h.watches.keeps.visit (root.descend relative) state.inner.1 hinner
  have hvisit : visitor.recorded.visit (root.descend relative) state.inner =
      ((visitor.visit (root.descend relative) state.inner.1).1,
        (visitor.visit (root.descend relative) state.inner.1).2,
        { state.inner.2 with handed := state.inner.2.handed ++ [root.descend relative] }) := rfl
  have hcount : state.visited + 1 = (account.handed ++ [root.descend relative]).length := by
    rw [List.length_append, List.length_singleton, ← hvisited]
  have hlog := fun message inner => h.watches.keeps.log message inner
  unfold hand Account.after
  rw [hvisit, hanswer, ← hflow]
  simp only [handedOf, callOf, endOf, Option.toList_some]
  rw [hrecord]
  cases hanswered : answer (root.descend relative) with
  | ok action =>
      cases action with
      | proceed => exact ⟨rfl, by simp, hcount, hinv⟩
      | terminate => exact ⟨rfl, by simp [Visitor.recorded, Visitor.noting], hcount, hlog _ _ hinv⟩
  | error raised =>
      cases raised with
      | os error =>
          have honError := h.watches.keeps.onError
          simp only [Visitor.recorded, Visitor.noting]
          cases hhandle : visitor.onError with
          | none => exact ⟨rfl, by simp, hcount, hinv⟩
          | some handle => exact ⟨rfl, by simp, hcount, honError handle hhandle _ _ _ hinv⟩
      | nul => exact ⟨rfl, by simp, hcount, hinv⟩
      | own error => exact ⟨rfl, by simp, hcount, hinv⟩

theorem Scripted.tallies_listingFailed (h : Scripted visitor base inv answer) (relative : Location) (error : OsError)
    (hstate : Tallies inv account (.onward, state)) :
    Tallies inv (account.after visitor.onError.isSome answer root (.unlisted relative error))
      (.onward, listingFailed visitor.recorded (root.descend relative) error state) := by
  obtain ⟨hflow, hrecord, hvisited, hinner⟩ := hstate
  dsimp only at hflow hrecord hvisited hinner
  unfold listingFailed Account.after
  rw [← hflow]
  simp only [handedOf, callOf, endOf, Visitor.recorded, Visitor.noting, Option.toList_none, List.append_nil]
  cases hhandle : visitor.onError with
  | none => exact ⟨rfl, by simpa using hrecord, hvisited, h.watches.keeps.log _ _ hinner⟩
  | some handle => exact ⟨rfl, by simp [hrecord], hvisited, h.watches.keeps.onError handle hhandle _ _ _ hinner⟩

/-- Going along encounters adds them to the account one by one. -/
theorem Scripted.tallies_each (h : Scripted visitor base inv answer) (encounters : List Encounter)
    (hstate : Tallies inv account (.onward, state)) :
    Tallies inv (encounters.foldl (Account.after visitor.onError.isSome answer root) account)
      (each (meet visitor.recorded root) encounters state) := by
  induction encounters generalizing account state with
  | nil => exact hstate
  | cons encounter rest ih =>
      have hnext : Tallies inv (account.after visitor.onError.isSome answer root encounter)
          (meet visitor.recorded root encounter state) := by
        cases encounter with
        | entry relative => exact h.tallies_hand relative hstate
        | unlisted relative error => exact h.tallies_listingFailed relative error hstate
      rw [List.foldl_cons, each]
      split
      · next next heq =>
        rw [heq] at hnext
        exact ih hnext
      · next hne =>
        rw [Account.foldl_after_of_ne_onward]
        · exact hnext
        · rw [← hnext.flow]
          exact fun honward => hne _ (Prod.ext honward rfl)

/-- The account says how the walk along encounters goes on or ends. -/
theorem Scripted.flow_each (h : Scripted visitor base inv answer) (encounters : List Encounter) {inner : σ}
    (hinner : inv inner) : (each (meet visitor root) encounters ⟨inner, 0⟩).1 =
      (encounters.foldl (Account.after visitor.onError.isSome answer root) {}).flow := by
  have htallies := @Scripted.tallies_each _ _ _ _ _ _ root {} ⟨(inner, {}), 0⟩ h encounters ⟨rfl, rfl, rfl, hinner⟩
  have hmatched := @matched_each _ _ _ _ _ (meet visitor.recorded root) (meet visitor root)
    (fun encounter _ _ hvisited hrel => (alike_recorded visitor).matched_meet root encounter hvisited hrel) encounters
    ⟨(inner, {}), 0⟩ ⟨inner, 0⟩ rfl rfl
  exact hmatched.1.symm.trans htallies.flow

/-- The account of a walk is that of its itinerary. -/
theorem Scripted.run_recorded_eq (h : Scripted visitor base inv answer) (hnul : root.hasNul = false) {inner : σ}
    (hinner : inv inner) {account : Account ε}
    (haccount : (itinerary base visitor.followLinks root pathMax []).foldl
      (Account.after visitor.onError.isSome answer root) {} = account) :
    (run visitor.recorded root (inner, {})).1 = account.outcome ∧
      (run visitor.recorded root (inner, {})).2.2 = account.toRecord := by
  have htallies := @Scripted.tallies_each _ _ _ _ _ _ root {} ⟨(inner, {}), 0⟩ h
    (itinerary base visitor.followLinks root pathMax []) ⟨rfl, rfl, rfl, hinner⟩
  rw [haccount] at htallies
  have hstart : inv (inner, ({} : Record)).1 := hinner
  rw [h.watches.recorded.run_eq hnul hstart,
    show visitor.recorded.followLinks = visitor.followLinks from rfl]
  cases hresult : each (meet visitor.recorded root) (itinerary base visitor.followLinks root pathMax [])
    ⟨(inner, {}), 0⟩ with
  | mk flow state =>
      rw [hresult] at htallies
      obtain ⟨hflow, hrecord, hvisited, -⟩ := htallies
      unfold Account.outcome
      rw [← hflow, ← hvisited, ← hrecord]
      cases flow <;> exact ⟨rfl, rfl⟩

/-- The walk of a visitor that leaves the files alone is the left fold of its account over all that it comes to, in
order. Where nothing ends it, everything is handed over and every failure goes to the handler; otherwise the first
encounter that ends it is the last one that counts, and nothing after it has any effect. -/
theorem run_eq_foldl_after (h : Scripted visitor base inv answer) (hlegal : base.Legal) (root : Path) {inner : σ}
    (hinner : inv inner) :
    (root.hasNul = true → run visitor.recorded root (inner, {}) = (.error .nul, inner, {})) ∧
    (root.hasNul = false → ∃ encounters, IsEncounterOrder base visitor.followLinks root encounters ∧
      let handled := visitor.onError.isSome
      let account := encounters.foldl (Account.after handled answer root) {}
      (run visitor root inner).1 = account.outcome ∧
      run visitor.recorded root (inner, {}) = (account.outcome, (run visitor root inner).2, account.toRecord) ∧
      ((∀ encounter ∈ encounters, endOf handled answer root encounter = none) →
        account = .upTo handled answer root encounters .onward) ∧
      ∀ before encounter rest flow, encounters = before ++ encounter :: rest →
        (∀ earlier ∈ before, endOf handled answer root earlier = none) →
        endOf handled answer root encounter = some flow →
          account = .upTo handled answer root (before ++ [encounter]) flow ∧
          run visitor root inner = conclusion (each (meet visitor root) (before ++ [encounter]) ⟨inner, 0⟩)) := by
  refine ⟨fun hnul => run_of_hasNul hnul _, fun hnul => ?_⟩
  obtain ⟨houtcome, hrecord⟩ := h.run_recorded_eq hnul hinner rfl
  obtain ⟨hsame, hinner'⟩ := run_recorded visitor root inner
  refine ⟨_, isEncounterOrder_itinerary hlegal visitor.followLinks root, hsame.symm.trans houtcome,
    Prod.ext houtcome (Prod.ext hinner' hrecord), Account.foldl_after_of_forall, ?_⟩
  intro before encounter rest flow hsplit hbefore hend
  have hfirst := Account.foldl_after_of_first hbefore hend rest
  refine ⟨by rw [hsplit, hfirst], ?_⟩
  have hflow := @Scripted.flow_each _ _ _ _ _ _ root h (before ++ [encounter]) _ hinner
  rw [Account.foldl_after_of_first hbefore hend []] at hflow
  rw [h.watches.run_eq hnul hinner, hsplit, List.append_cons, each_append]
  cases hend' : each (meet visitor root) (before ++ [encounter]) ⟨inner, 0⟩ with
  | mk last state =>
      rw [hend'] at hflow
      obtain rfl : last = flow := hflow
      cases last with
      | onward => exact absurd hend (endOf_ne_onward encounter)
      | ended => rfl
      | stopped raised => rfl

/-- A visitor that answers by a script and leaves all but the report as it is, with an error handler or without. -/
def scripted (answer : Path → Except (Raised ε) VisitAction) (handled followLinks : Bool) : Visitor World ε where
  world := id
  log message world := world.log .debug .walk message
  visit path world := (answer path, world)
  onError := if handled then some fun _ _ world => world else none
  followLinks := followLinks

theorem scripted_scripted (answer : Path → Except (Raised ε) VisitAction) (handled followLinks : Bool) (base : World) :
    Scripted (scripted answer handled followLinks) base (·.silent = base.silent) answer where
  watches :=
    { keeps :=
        { visit := fun _ _ h => h
          raise := fun _ _ _ _ _ => .inl trivial
          log := fun _ _ h => h
          onError := by
            intro handle hhandle path error state hstate
            cases handled with
            | false => cases hhandle
            | true =>
                cases hhandle
                exact hstate }
      world := fun _ h => h }
  answers _ _ _ := rfl

/-- A file and, one directory further down, another one beside a directory that cannot be listed. -/
def withClosedDirectory : World where
  root := .dir
    [("tree", .dir [("sub", .dir [("closed", .dir [("c", .file [])]), ("b", .file [])]), ("a", .file [])])]
  workingDir := ⟨[], []⟩
  home := "/"
  faults := { list := [("/tree/sub/closed", ⟨13⟩)] }

/-- The failure of the first visit goes to the handler; the second visit ends the walk, before it comes to the directory. -/
theorem run_eq_foldl_after_withClosedDirectory :
    let refusal : OsError := .refused ⟨5⟩ none none
    let answer : Path → Except (Raised Empty) VisitAction := fun path =>
      if path.name = "a" then .error (.os refusal) else .ok .terminate
    let tree : Path := ⟨.root, ["tree"]⟩
    let visitor := scripted answer true false
    (run visitor tree withClosedDirectory).1 = .ok 2 ∧
      (run visitor.recorded tree (withClosedDirectory, {})).2.2 =
        ⟨[tree.descend ["a"], tree.descend ["sub", "b"]], [(tree.descend ["a"], refusal)]⟩ := by
  intro refusal answer tree visitor
  have hlegal : withClosedDirectory.Legal := ⟨Node.legal_of_flatten (by decide +kernel), rfl⟩
  obtain ⟨encounters, horder, houtcome, hrecorded, -⟩ :=
    (run_eq_foldl_after (scripted_scripted answer true false withClosedDirectory) hlegal tree rfl).2 (by decide)
  obtain rfl := horder.unique (isEncounterOrder_itinerary hlegal false tree)
  refine ⟨houtcome.trans (by decide +kernel), ?_⟩
  rw [show visitor.recorded = (scripted answer true false).recorded from rfl, hrecorded]
  decide +kernel

end Recorded

end Walk
end ClassDump
