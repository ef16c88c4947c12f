import ClassDump.Proofs.Store.Silent
import ClassDump.Proofs.Walk.Invariant
import ClassDump.Proofs.Walk.Place

/-! The itinerary of a walk: what it comes to below its root, in order, if nobody stops it. It is read off a world that
stays as it is, and a walk whose visitor leaves the files alone goes along it, until the visitor ends the walk. -/

namespace ClassDump.Walk

/-- What a walk comes to: an entry to be handed over, or a directory that cannot be listed. -/
inductive Encounter where
  | entry (relative : Location)
  | unlisted (relative : Location) (error : OsError)

/-- What a walk comes to from a relative location on, so many levels down at most: the entries of the directory, and
then what lies in its directories, both by ascending names. -/
def itinerary (world : World) (followLinks : Bool) (root : Path) : Nat → Location → List Encounter
  | levels, relative =>
    match world.list ((Place.ofPath root).descend relative).text (root.descend relative) with
    | .error error => [.unlisted relative error]
    | .ok listed =>
      (namesWhere (!·.isDir) listed).map (fun name => .entry (relative ++ [name])) ++
        match levels with
        | 0 => []
        | below + 1 =>
          (namesWhere (·.isDir) listed).flatMap fun name =>
            if !followLinks && world.isLink (root.descend (relative ++ [name])) then []
            else itinerary world followLinks root below (relative ++ [name])

section Listed

variable {world : World} {followLinks : Bool} {root : Path} {levels : Nat} {above : Location}
  {listed : List World.Listed}

theorem itinerary_of_error {error : OsError}
    (hlist : world.list ((Place.ofPath root).descend above).text (root.descend above) = .error error) :
    itinerary world followLinks root levels above = [.unlisted above error] := by
  unfold itinerary
  rw [hlist]

theorem itinerary_of_ok
    (hlist : world.list ((Place.ofPath root).descend above).text (root.descend above) = .ok listed) :
    itinerary world followLinks root levels above =
      (namesWhere (!·.isDir) listed).map (fun name => .entry (above ++ [name])) ++
        match levels with
        | 0 => []
        | below + 1 =>
          (namesWhere (·.isDir) listed).flatMap fun name =>
            if !followLinks && world.isLink (root.descend (above ++ [name])) then []
            else itinerary world followLinks root below (above ++ [name]) := by
  have hunfold := itinerary.eq_def world followLinks root levels above
  simp only [hlist] at hunfold
  cases levels <;> exact hunfold

end Listed

/-- The locations of the entries that are handed over. -/
def entriesOf (encounters : List Encounter) : List Location :=
  encounters.filterMap fun
    | .entry relative => some relative
    | .unlisted _ _ => none

section Entries

variable {encounters : List Encounter} {relative : Location}

@[simp] theorem entriesOf_cons_entry : entriesOf (.entry relative :: encounters) = relative :: entriesOf encounters :=
  rfl

@[simp] theorem entriesOf_cons_unlisted {error : OsError} :
    entriesOf (.unlisted relative error :: encounters) = entriesOf encounters := rfl

end Entries

variable {σ ε : Type}

/-- What a visitor does about an encounter: an entry is handed to it, and a failure reported. -/
def meet (visitor : Visitor σ ε) (root : Path) : Encounter → State σ → Flow ε × State σ
  | .entry relative, state => hand visitor root (root.descend relative) state
  | .unlisted relative error, state => (.onward, listingFailed visitor (root.descend relative) error state)

section Each

variable {α β : Type} {step other : α → State σ → Flow ε × State σ}

theorem each_append (step : α → State σ → Flow ε × State σ) (items more : List α) (state : State σ) :
    each step (items ++ more) state =
      match each step items state with
      | (.onward, next) => each step more next
      | result => result := by
  induction items generalizing state with
  | nil => rfl
  | cons item rest ih =>
      rw [List.cons_append, each, each]
      cases step item state with
      | mk flow next =>
          cases flow with
          | onward => exact ih next
          | ended => rfl
          | stopped raised => rfl

theorem each_singleton (step : α → State σ → Flow ε × State σ) (item : α) (state : State σ) :
    each step [item] state = step item state := by
  rw [each]
  split
  · next heq => rw [heq, each]
  · rfl

theorem each_map (step : α → State σ → Flow ε × State σ) (item : β → α) (items : List β) (state : State σ) :
    each step (items.map item) state = each (fun found => step (item found)) items state := by
  induction items generalizing state with
  | nil => rfl
  | cons found rest ih =>
      rw [List.map_cons, each, each]
      split
      · exact ih _
      · rfl

theorem each_flatMap (step : α → State σ → Flow ε × State σ) (part : β → List α) (items : List β) (state : State σ) :
    each step (items.flatMap part) state = each (fun item => each step (part item)) items state := by
  induction items generalizing state with
  | nil => rfl
  | cons item rest ih =>
      rw [List.flatMap_cons, each_append, each]
      cases each step (part item) state with
      | mk flow next =>
          cases flow with
          | onward => exact ih next
          | ended => rfl
          | stopped raised => rfl

/-- Steps that do the same wherever a property holds, and keep it, do the same one after the other. -/
theorem each_congr (inv : σ → Prop) {items : List α}
    (hsame : ∀ item ∈ items, ∀ state, inv state.inner → step item state = other item state)
    (hkeeps : ∀ item ∈ items, ∀ state, inv state.inner → inv (step item state).2.inner) {state : State σ}
    (hstate : inv state.inner) : each step items state = each other items state := by
  induction items generalizing state with
  | nil => rfl
  | cons item rest ih =>
      have hnext := hkeeps item List.mem_cons_self state hstate
      rw [each, each, ← hsame item List.mem_cons_self state hstate]
      split
      · next next heq =>
        rw [heq] at hnext
        exact ih (fun found hfound => hsame found (List.mem_cons_of_mem _ hfound))
          (fun found hfound => hkeeps found (List.mem_cons_of_mem _ hfound)) hnext
      · rfl

end Each

/-- The files of a listed directory are handed over as the itinerary has them. -/
theorem each_hand_eq_each_meet (visitor : Visitor σ ε) (root : Path) (relative : Location) (names : List String)
    (state : State σ) :
    each (fun name => hand visitor root (((Place.ofPath root).descend relative).path.child name)) names state =
      each (meet visitor root) (names.map fun name => .entry (relative ++ [name])) state := by
  have hstep : (fun name => hand visitor root (((Place.ofPath root).descend relative).path.child name)) =
      fun name => meet visitor root (.entry (relative ++ [name])) := by
    funext name later
    rw [Place.child_descend_ofPath, meet]
  rw [each_map, hstep]

/-- All that a walk asks of a visitor keeps a property of its state, by which its world is the given one but for what
was reported. -/
structure Watches (visitor : Visitor σ ε) (base : World) (inv : σ → Prop) : Prop where
  keeps : Keeps visitor inv fun _ => True
  world : ∀ state, inv state → (visitor.world state).silent = base.silent

namespace Watches

variable {visitor : Visitor σ ε} {base : World} {inv : σ → Prop} (h : Watches visitor base inv) {root : Path}
  {state : State σ}
include h

theorem inv_enter (levels : Nat) (place : Place) (hstate : inv state.inner) :
    inv (enter visitor root levels place state).2.inner :=
  (h.keeps.guided.sound_enter root levels state trivial hstate).1

/-- A directory is entered along its itinerary, if its directories are. -/
theorem enter_eq_of_enterAll {levels : Nat} {relative : Location} (hstate : inv state.inner)
    (hall : ∀ listed, base.list ((Place.ofPath root).descend relative).text (root.descend relative) = .ok listed →
      ∀ next, inv next.inner → enterAll visitor root levels ((Place.ofPath root).descend relative) listed next =
        each (meet visitor root) (match levels with
          | 0 => []
          | below + 1 => (namesWhere (·.isDir) listed).flatMap fun name =>
            if !visitor.followLinks && base.isLink (root.descend (relative ++ [name])) then []
            else itinerary base visitor.followLinks root below (relative ++ [name])) next) :
    enter visitor root levels ((Place.ofPath root).descend relative) state =
      each (meet visitor root) (itinerary base visitor.followLinks root levels relative) state := by
  have hlist := World.list_of_silent (h.world state.inner hstate)
  have hpath := Place.path_descend_ofPath root relative
  cases hlisted : base.list ((Place.ofPath root).descend relative).text (root.descend relative) with
  | error error =>
      rw [itinerary_of_error hlisted, each_singleton]
      rw [← hlist, ← hpath] at hlisted
      rw [enter_of_error hlisted, hpath]
      rfl
  | ok listed =>
      have hseen := hlisted
      rw [← hlist, ← hpath] at hseen
      have hfiles : inv (each (fun name => hand visitor root (((Place.ofPath root).descend relative).path.child name))
          (namesWhere (!·.isDir) listed) state).2.inner :=
        (sound_each (fun name _ later hlater => h.keeps.guided.sound_hand root trivial later hlater) state hstate).1
      rw [itinerary_of_ok hlisted, each_append, ← each_hand_eq_each_meet]
      cases heach : each (fun name => hand visitor root (((Place.ofPath root).descend relative).path.child name))
        (namesWhere (!·.isDir) listed) state with
      | mk flow next =>
          rw [heach] at hfiles
          cases flow with
          | onward =>
              rw [enter_of_onward hseen heach]
              exact hall listed hlisted next hfiles
          | ended => exact enter_of_not_onward hseen heach nofun
          | stopped raised => exact enter_of_not_onward hseen heach nofun

theorem enter_eq (levels : Nat) (relative : Location) (state : State σ) (hstate : inv state.inner) :
    enter visitor root levels ((Place.ofPath root).descend relative) state =
      each (meet visitor root) (itinerary base visitor.followLinks root levels relative) state := by
  induction levels generalizing relative state with
  | zero => exact h.enter_eq_of_enterAll hstate fun _ _ _ _ => rfl
  | succ below ih =>
      refine h.enter_eq_of_enterAll hstate fun listed _ next hnext => ?_
      rw [each_flatMap, enterAll]
      refine each_congr inv (fun name _ later hlater => ?_) (fun name _ later hlater => ?_) hnext
      · rw [World.isLink_of_silent (h.world later.inner hlater), Place.child_descend_ofPath]
        split
        · rfl
        · rw [← Place.descend_concat]
          exact ih _ later hlater
      · split
        · exact hlater
        · exact h.inv_enter _ _ hlater

/-- The walk goes along the itinerary of its root. -/
theorem run_eq (hnul : root.hasNul = false) {inner : σ} (hinner : inv inner) :
    run visitor root inner =
      conclusion (each (meet visitor root) (itinerary base visitor.followLinks root pathMax []) ⟨inner, 0⟩) := by
  rw [run_eq_conclusion hnul, ← h.enter_eq pathMax [] ⟨inner, 0⟩ hinner, Place.descend_nil]

end Watches

end ClassDump.Walk
