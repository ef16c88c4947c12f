import ClassDump.Proofs.Path.Descend
import ClassDump.Proofs.Walk.Itinerary

/-! A walk as the working off of an agenda. The walk attends to the first item of the agenda: an entry is handed over,
and a directory is listed, so that what is in it goes to the front of the agenda, its entries before its directories. A
course of the walk needs no bound: it says with what items and in which states the agenda is worked off. No location is
attended to twice, whatever the visitor does to the files in the meantime. -/

namespace ClassDump.Walk

/-- What a walk has to attend to: what was listed as a directory, or the root, and everything else. -/
inductive Item where
  | entry (relative : Location)
  | directory (relative : Location)
deriving DecidableEq

def Item.relative : Item → Location
  | entry relative => relative
  | directory relative => relative

/-- What a listing of the directory at a location puts on the agenda; its directories only if the walk goes deeper. -/
def itemsOf (deeper : Bool) (relative : Location) (listed : List World.Listed) : List Item :=
  (namesWhere (!·.isDir) listed).map (fun name => .entry (relative ++ [name])) ++
    if deeper then (namesWhere (·.isDir) listed).map fun name => .directory (relative ++ [name]) else []

variable {σ ε : Type}

/-- A directory is passed over if it is taken for a link and links are not followed; the root never is. -/
def passesOver (visitor : Visitor σ ε) (root : Path) (relative : Location) (state : State σ) : Bool :=
  relative ≠ [] && (!visitor.followLinks && (visitor.world state.inner).isLink (root.descend relative))

/-- The directory is not passed over, and it can be listed. -/
def Enters (visitor : Visitor σ ε) (root : Path) (relative : Location) (state : State σ)
    (listed : List World.Listed) : Prop :=
  passesOver visitor root relative state = false ∧
    (visitor.world state.inner).list ((Place.ofPath root).descend relative).text (root.descend relative) = .ok listed

/-- Attends to an item: what comes of it, and what it puts on the agenda. -/
def attend (visitor : Visitor σ ε) (root : Path) (deeper : Location → Bool) :
    Item → State σ → (Flow ε × State σ) × List Item
  | .entry relative, state => (hand visitor root (root.descend relative) state, [])
  | .directory relative, state =>
    if passesOver visitor root relative state then ((.onward, state), [])
    else
      match (visitor.world state.inner).list ((Place.ofPath root).descend relative).text (root.descend relative) with
      | .error error => ((.onward, listingFailed visitor (root.descend relative) error state), [])
      | .ok listed => ((.onward, state), itemsOf (deeper relative) relative listed)

/-- The agenda is worked off from a state on, with the items attended to in their states, to the end of the agenda or
to an item that ends the walk. -/
inductive Course (visitor : Visitor σ ε) (root : Path) (deeper : Location → Bool) :
    List Item → State σ → List (Item × State σ) → Flow ε × State σ → Prop where
  | done (state : State σ) : Course visitor root deeper [] state [] (.onward, state)
  | onward {item : Item} {agenda new : List Item} {state next : State σ} {log : List (Item × State σ)}
      {result : Flow ε × State σ} (hitem : attend visitor root deeper item state = ((.onward, next), new))
      (hrest : Course visitor root deeper (new ++ agenda) next log result) :
      Course visitor root deeper (item :: agenda) state ((item, state) :: log) result
  | stopped {item : Item} {agenda new : List Item} {state next : State σ} {flow : Flow ε}
      (hitem : attend visitor root deeper item state = ((flow, next), new)) (hflow : flow ≠ .onward) :
      Course visitor root deeper (item :: agenda) state [(item, state)] (flow, next)

variable {visitor : Visitor σ ε} {root : Path} {deeper : Location → Bool} {agenda rest : List Item}
  {state next : State σ} {log more : List (Item × State σ)} {result : Flow ε × State σ}

section Attend

variable {relative : Location}

theorem attend_entry (visitor : Visitor σ ε) (root : Path) (deeper : Location → Bool) (relative : Location)
    (state : State σ) : attend visitor root deeper (.entry relative) state =
      (hand visitor root (root.descend relative) state, []) := rfl

theorem attend_of_passesOver (hpass : passesOver visitor root relative state = true) :
    attend visitor root deeper (.directory relative) state = ((.onward, state), []) := by
  rw [attend, if_pos hpass]

theorem attend_of_error (hpass : passesOver visitor root relative state = false) {error : OsError}
    (hlist : (visitor.world state.inner).list ((Place.ofPath root).descend relative).text (root.descend relative) =
      .error error) : attend visitor root deeper (.directory relative) state =
        ((.onward, listingFailed visitor (root.descend relative) error state), []) := by
  rw [attend, hpass, if_neg Bool.false_ne_true, hlist]

theorem attend_of_ok (hpass : passesOver visitor root relative state = false) {listed : List World.Listed}
    (hlist : (visitor.world state.inner).list ((Place.ofPath root).descend relative).text (root.descend relative) =
      .ok listed) : attend visitor root deeper (.directory relative) state =
        ((.onward, state), itemsOf (deeper relative) relative listed) := by
  rw [attend, hpass, if_neg Bool.false_ne_true, hlist]

theorem attend_directory_cases (visitor : Visitor σ ε) (root : Path) (deeper : Location → Bool) (relative : Location)
    (state : State σ) :
    (passesOver visitor root relative state = true ∧
      attend visitor root deeper (.directory relative) state = ((.onward, state), [])) ∨
    passesOver visitor root relative state = false ∧
      ((∃ error, (visitor.world state.inner).list ((Place.ofPath root).descend relative).text (root.descend relative) =
          .error error ∧ attend visitor root deeper (.directory relative) state =
            ((.onward, listingFailed visitor (root.descend relative) error state), [])) ∨
        ∃ listed, (visitor.world state.inner).list ((Place.ofPath root).descend relative).text (root.descend relative) =
          .ok listed ∧ attend visitor root deeper (.directory relative) state =
            ((.onward, state), itemsOf (deeper relative) relative listed)) := by
  cases hpass : passesOver visitor root relative state with
  | true => exact .inl ⟨rfl, attend_of_passesOver hpass⟩
  | false =>
      refine .inr ⟨rfl, ?_⟩
      cases hlist : (visitor.world state.inner).list ((Place.ofPath root).descend relative).text
        (root.descend relative) with
      | error error => exact .inl ⟨error, rfl, attend_of_error hpass hlist⟩
      | ok listed => exact .inr ⟨listed, rfl, attend_of_ok hpass hlist⟩

theorem Enters.attend {listed : List World.Listed} (h : Enters visitor root relative state listed)
    (deeper : Location → Bool) : Walk.attend visitor root deeper (.directory relative) state =
      ((.onward, state), itemsOf (deeper relative) relative listed) :=
  attend_of_ok h.1 h.2

/-- What comes of an item: an entry is handed over, and a directory is passed over, reported or entered. -/
theorem attend_cases {item : Item} {flow : Flow ε} {new : List Item}
    (h : attend visitor root deeper item state = ((flow, next), new)) :
    (∃ relative, item = .entry relative ∧ hand visitor root (root.descend relative) state = (flow, next) ∧ new = []) ∨
    ∃ relative, item = .directory relative ∧ flow = .onward ∧
      (next = state ∧ new = [] ∨
        (∃ error, next = listingFailed visitor (root.descend relative) error state ∧ new = []) ∨
        ∃ listed, Enters visitor root relative state listed ∧ next = state ∧
          new = itemsOf (deeper relative) relative listed) := by
  cases item with
  | entry relative =>
      obtain ⟨hhand, hnew⟩ := Prod.mk.inj h
      exact .inl ⟨relative, rfl, hhand, hnew.symm⟩
  | directory relative =>
      rcases attend_directory_cases visitor root deeper relative state with
        ⟨-, hitem⟩ | ⟨hpass, ⟨error, -, hitem⟩ | ⟨listed, hlist, hitem⟩⟩
      · cases hitem.symm.trans h
        exact .inr ⟨relative, rfl, rfl, .inl ⟨rfl, rfl⟩⟩
      · cases hitem.symm.trans h
        exact .inr ⟨relative, rfl, rfl, .inr (.inl ⟨error, rfl, rfl⟩)⟩
      · cases hitem.symm.trans h
        exact .inr ⟨relative, rfl, rfl, .inr (.inr ⟨listed, ⟨hpass, hlist⟩, rfl, rfl⟩)⟩

/-- Only a directory that is entered puts something on the agenda. -/
theorem enters_of_attend {item other : Item} {flow : Flow ε} {new : List Item}
    (h : attend visitor root deeper item state = ((flow, next), new)) (hother : other ∈ new) :
    ∃ relative listed, item = .directory relative ∧ Enters visitor root relative state listed ∧
      new = itemsOf (deeper relative) relative listed := by
  rcases attend_cases h with
    ⟨_, -, -, rfl⟩ | ⟨relative, rfl, -, ⟨-, rfl⟩ | ⟨_, -, rfl⟩ | ⟨listed, henters, -, rfl⟩⟩
  · exact absurd hother List.not_mem_nil
  · exact absurd hother List.not_mem_nil
  · exact absurd hother List.not_mem_nil
  · exact ⟨relative, listed, rfl, henters, rfl⟩

end Attend

namespace Course

theorem append (h : Course visitor root deeper agenda state log (.onward, next))
    (hrest : Course visitor root deeper rest next more result) :
    Course visitor root deeper (agenda ++ rest) state (log ++ more) result := by
  generalize hend : ((.onward, next) : Flow ε × State σ) = final at h
  induction h with
  | done state =>
      cases hend
      exact hrest
  | onward hitem _ ih =>
      rw [List.cons_append, List.cons_append]
      refine .onward hitem ?_
      rw [← List.append_assoc]
      exact ih hend
  | stopped _ hflow => exact absurd (congrArg Prod.fst hend).symm hflow

/-- What ends the walk leaves the rest of the agenda undone. -/
theorem append_of_ne_onward (h : Course visitor root deeper agenda state log result) (hresult : result.1 ≠ .onward)
    (rest : List Item) : Course visitor root deeper (agenda ++ rest) state log result := by
  induction h with
  | done state => exact absurd rfl hresult
  | onward hitem _ ih =>
      rw [List.cons_append]
      refine .onward hitem ?_
      rw [← List.append_assoc]
      exact ih hresult
  | stopped hitem hflow => exact .stopped hitem hflow

theorem unique (h : Course visitor root deeper agenda state log result) {other : Flow ε × State σ}
    (hother : Course visitor root deeper agenda state more other) : log = more ∧ result = other := by
  induction h generalizing more other with
  | done state =>
      cases hother
      exact ⟨rfl, rfl⟩
  | onward hitem _ ih =>
      cases hother with
      | onward hagain hrest =>
          rw [hitem] at hagain
          cases hagain
          obtain ⟨rfl, rfl⟩ := ih hrest
          exact ⟨rfl, rfl⟩
      | stopped hagain hflow =>
          rw [hitem] at hagain
          cases hagain
          exact absurd rfl hflow
  | stopped hitem hflow =>
      cases hother with
      | onward hagain _ =>
          rw [hitem] at hagain
          cases hagain
          exact absurd rfl hflow
      | stopped hagain _ =>
          rw [hitem] at hagain
          cases hagain
          exact ⟨rfl, rfl⟩

end Course

section Enter

theorem exists_course_each {item : String → Item} {step : String → State σ → Flow ε × State σ}
    (hstep : ∀ name state, ∃ log, Course visitor root deeper [item name] state log (step name state))
    (names : List String) (state : State σ) :
    ∃ log, Course visitor root deeper (names.map item) state log (each step names state) := by
  induction names generalizing state with
  | nil => exact ⟨[], .done state⟩
  | cons name rest ih =>
      obtain ⟨log, hfirst⟩ := hstep name state
      rw [each]
      split
      · next next heq =>
        obtain ⟨more, hrest⟩ := ih next
        rw [heq] at hfirst
        exact ⟨log ++ more, hfirst.append hrest⟩
      · next hne =>
        refine ⟨log, hfirst.append_of_ne_onward (fun honward => ?_) (rest.map item)⟩
        exact hne (step name state).2 (Prod.ext honward rfl)

theorem exists_course_hand (visitor : Visitor σ ε) (root : Path) (deeper : Location → Bool) (relative : Location)
    (state : State σ) :
    ∃ log, Course visitor root deeper [.entry relative] state log (hand visitor root (root.descend relative) state) := by
  cases hhand : hand visitor root (root.descend relative) state with
  | mk flow next =>
      have hitem := attend_entry visitor root deeper relative state
      rw [hhand] at hitem
      by_cases hflow : flow = .onward
      · subst hflow
        exact ⟨_, .onward hitem (.done next)⟩
      · exact ⟨_, .stopped hitem hflow⟩

/-- A directory has a course if its directories have. -/
theorem exists_course_enter_of_enterAll {levels : Nat} {relative : Location}
    (hpass : passesOver visitor root relative state = false)
    (hall : ∀ listed next, ∃ log, Course visitor root deeper
      (if deeper relative then (namesWhere (·.isDir) listed).map fun name => .directory (relative ++ [name]) else []) next
      log (enterAll visitor root levels ((Place.ofPath root).descend relative) listed next)) :
    ∃ log, Course visitor root deeper [.directory relative] state log
      (enter visitor root levels ((Place.ofPath root).descend relative) state) := by
  have hpath := Place.path_descend_ofPath root relative
  cases hlist : (visitor.world state.inner).list ((Place.ofPath root).descend relative).text (root.descend relative) with
  | error error =>
      have hitem := @attend_of_error _ _ _ _ deeper _ _ hpass _ hlist
      rw [← hpath] at hlist
      rw [enter_of_error hlist, hpath]
      exact ⟨_, .onward hitem (.done _)⟩
  | ok listed =>
      have hitem := @attend_of_ok _ _ _ _ deeper _ _ hpass _ hlist
      rw [← hpath] at hlist
      have hhand : ∀ name later, ∃ log, Course visitor root deeper [.entry (relative ++ [name])] later log
          (hand visitor root (((Place.ofPath root).descend relative).path.child name) later) := by
        intro name later
        rw [Place.child_descend_ofPath]
        exact exists_course_hand visitor root deeper (relative ++ [name]) later
      obtain ⟨log, hfiles⟩ := exists_course_each hhand (namesWhere (!·.isDir) listed) state
      have hcourse : ∃ log, Course visitor root deeper (itemsOf (deeper relative) relative listed) state log
          (enter visitor root levels ((Place.ofPath root).descend relative) state) := by
        cases heach : each (fun name => hand visitor root (((Place.ofPath root).descend relative).path.child name))
          (namesWhere (!·.isDir) listed) state with
        | mk flow next =>
            rw [heach] at hfiles
            by_cases hflow : flow = .onward
            · subst hflow
              obtain ⟨more, hdirs⟩ := hall listed next
              rw [enter_of_onward hlist heach]
              exact ⟨log ++ more, hfiles.append hdirs⟩
            · rw [enter_of_not_onward hlist heach hflow]
              exact ⟨log, hfiles.append_of_ne_onward hflow _⟩
      obtain ⟨more, hcourse⟩ := hcourse
      refine ⟨(.directory relative, state) :: more, .onward hitem ?_⟩
      rwa [List.append_nil]

/-- Entering a directory, so many levels down at most, works off the agenda that has only this directory. -/
theorem exists_course_enter {bound levels : Nat} {relative : Location} (hlevels : relative.length + levels = bound)
    (state : State σ) (hpass : passesOver visitor root relative state = false) :
    ∃ log, Course visitor root (fun location => location.length < bound) [.directory relative] state log
      (enter visitor root levels ((Place.ofPath root).descend relative) state) := by
  induction levels generalizing relative state with
  | zero =>
      refine exists_course_enter_of_enterAll hpass fun listed next => ⟨[], ?_⟩
      rw [if_neg (by simp only [decide_eq_true_eq]; omega)]
      exact .done next
  | succ below ih =>
      refine exists_course_enter_of_enterAll hpass fun listed next => ?_
      rw [if_pos (by simp only [decide_eq_true_eq]; omega)]
      refine exists_course_each (fun name later => ?_) _ next
      have hne : decide (relative ++ [name] ≠ []) = true := by simp
      have hsame : passesOver visitor root (relative ++ [name]) later =
          (!visitor.followLinks &&
            (visitor.world later.inner).isLink (((Place.ofPath root).descend relative).path.child name)) := by
        rw [passesOver, Place.child_descend_ofPath, hne, Bool.true_and]
      rw [← hsame, ← Place.descend_concat]
      cases hlink : passesOver visitor root (relative ++ [name]) later with
      | true =>
          rw [if_pos rfl]
          exact ⟨_, .onward (attend_of_passesOver hlink) (.done later)⟩
      | false =>
          rw [if_neg Bool.false_ne_true]
          exact ih (by rw [List.length_append, List.length_singleton]; omega) later hlink

/-- A walk works off the agenda that has only its root; it goes as many levels down as names fit into a path. -/
theorem exists_course_run (visitor : Visitor σ ε) {root : Path} (hnul : root.hasNul = false) (inner : σ) :
    ∃ log result, Course visitor root (fun location => location.length < pathMax) [.directory []] ⟨inner, 0⟩ log result ∧
      run visitor root inner = conclusion result := by
  obtain ⟨log, hcourse⟩ :=
    @exists_course_enter σ ε visitor root pathMax pathMax [] (Nat.zero_add _) ⟨inner, 0⟩ rfl
  exact ⟨log, _, hcourse, run_eq_conclusion hnul inner⟩

end Enter

section Once

/-- Neither item is below the other. -/
def Item.Apart (item other : Item) : Prop :=
  ¬item.relative <+: other.relative ∧ ¬other.relative <+: item.relative

theorem Item.apart_of_ne {item other : Item} {relative : Location} {name named : String}
    (hitem : item.relative = relative ++ [name]) (hother : other.relative = relative ++ [named]) (hne : name ≠ named) :
    item.Apart other := by
  unfold Item.Apart
  rw [hitem, hother]
  constructor
  · exact fun hbelow => hne (eq_of_below_names hbelow (List.prefix_refl _))
  · exact fun hbelow => hne (eq_of_below_names (List.prefix_refl _) hbelow)

theorem exists_entry_of_mem_itemsOf {deeper : Bool} {relative : Location} {listed : List World.Listed} {item : Item}
    (h : item ∈ itemsOf deeper relative listed) : ∃ entry ∈ listed, item.relative = relative ++ [entry.name] := by
  rcases List.mem_append.mp h with h | h
  · obtain ⟨name, hname, rfl⟩ := List.mem_map.mp h
    exact ⟨_, mem_files_iff.mp hname, rfl⟩
  · split at h
    · obtain ⟨name, hname, rfl⟩ := List.mem_map.mp h
      exact ⟨_, mem_dirs_iff.mp hname, rfl⟩
    · exact absurd h List.not_mem_nil

theorem pairwise_itemsOf {listed : List World.Listed} (honce : (listed.map (·.name)).Nodup) (deeper : Bool)
    (relative : Location) : (itemsOf deeper relative listed).Pairwise Item.Apart := by
  refine List.pairwise_append.mpr ⟨?_, ?_, fun item hitem other hother => ?_⟩
  · exact List.pairwise_map.mpr ((nodup_namesWhere honce).imp fun hne => Item.apart_of_ne rfl rfl hne)
  · split
    · exact List.pairwise_map.mpr ((nodup_namesWhere honce).imp fun hne => Item.apart_of_ne rfl rfl hne)
    · exact .nil
  · obtain ⟨name, hname, rfl⟩ := List.mem_map.mp hitem
    split at hother
    · obtain ⟨named, hnamed, rfl⟩ := List.mem_map.mp hother
      refine Item.apart_of_ne rfl rfl ?_
      rintro rfl
      exact not_mem_namesWhere_not honce hnamed hname
    · exact absurd hother List.not_mem_nil

/-- What an item puts on the agenda is apart, and one name below the item. -/
theorem new_of_attend {item : Item} {new : List Item} {flow : Flow ε}
    (h : attend visitor root deeper item state = ((flow, next), new)) :
    new.Pairwise Item.Apart ∧ ∀ other ∈ new, ∃ name, other.relative = item.relative ++ [name] := by
  by_cases hnil : new = []
  · subst hnil
    exact ⟨.nil, fun _ hother => absurd hother List.not_mem_nil⟩
  · obtain ⟨other, hother⟩ := List.exists_mem_of_ne_nil new hnil
    obtain ⟨relative, listed, rfl, henters, rfl⟩ := enters_of_attend h hother
    refine ⟨pairwise_itemsOf (World.nodup_of_list henters.2) _ _, fun other hother => ?_⟩
    obtain ⟨entry, -, hentry⟩ := exists_entry_of_mem_itemsOf hother
    exact ⟨entry.name, hentry⟩

/-- No location is attended to twice, and each is below an item of the agenda. -/
theorem Course.nodup (h : Course visitor root deeper agenda state log result) (hagenda : agenda.Pairwise Item.Apart) :
    (log.map (·.1.relative)).Nodup ∧ ∀ attended ∈ log, ∃ item ∈ agenda, item.relative <+: attended.1.relative := by
  induction h with
  | done state => exact ⟨List.nodup_nil, fun _ hattended => absurd hattended List.not_mem_nil⟩
  | stopped _ _ =>
      refine ⟨List.nodup_singleton _, List.forall_mem_singleton.mpr ⟨_, List.mem_cons_self, List.prefix_refl _⟩⟩
  | @onward item rest new state next log result hitem _ ih =>
      obtain ⟨hapart, hrest⟩ := List.pairwise_cons.mp hagenda
      obtain ⟨hnew, hbelow⟩ := new_of_attend hitem
      have hdown : ∀ other ∈ new, item.relative <+: other.relative ∧ ¬other.relative <+: item.relative := by
        intro other hother
        obtain ⟨name, hname⟩ := hbelow other hother
        rw [hname]
        exact ⟨List.prefix_append _ _, fun hup => absurd hup.length_le (by simp)⟩
      obtain ⟨honce, hunder⟩ := ih <| List.pairwise_append.mpr ⟨hnew, hrest, fun other hother waiting hwaiting => by
        -- what is below an item is apart from what the item is apart from
        refine ⟨fun hprefix => ?_, fun hprefix => ?_⟩
        · exact (hapart waiting hwaiting).1 ((hdown other hother).1.trans hprefix)
        · rcases List.prefix_or_prefix_of_prefix hprefix (hdown other hother).1 with hcase | hcase
          · exact (hapart waiting hwaiting).2 hcase
          · exact (hapart waiting hwaiting).1 hcase⟩
      constructor
      · refine List.nodup_cons.mpr ⟨fun hmem => ?_, honce⟩
        obtain ⟨attended, hattended, heq⟩ := List.mem_map.mp hmem
        obtain ⟨other, hother, hprefix⟩ := hunder attended hattended
        rw [show attended.1.relative = item.relative from heq] at hprefix
        rcases List.mem_append.mp hother with hother | hother
        · exact (hdown other hother).2 hprefix
        · exact (hapart other hother).2 hprefix
      · refine List.forall_mem_cons.mpr ⟨⟨item, List.mem_cons_self, List.prefix_refl _⟩, fun attended hattended => ?_⟩
        obtain ⟨other, hother, hprefix⟩ := hunder attended hattended
        rcases List.mem_append.mp hother with hother | hother
        · exact ⟨item, List.mem_cons_self, (hdown other hother).1.trans hprefix⟩
        · exact ⟨other, List.mem_cons_of_mem _ hother, hprefix⟩

/-- Of the paths attended to, a list in the visitor's state has taken up some more, in order. -/
theorem Course.sublist_of_noted (h : Course visitor root deeper agenda state log result) (noted : σ → List Path)
    (hhand : ∀ path state, noted (hand visitor root path state).2.inner = noted state.inner ∨
      noted (hand visitor root path state).2.inner = noted state.inner ++ [path])
    (hfailed : ∀ path error state, noted (listingFailed visitor path error state).inner = noted state.inner ∨
      noted (listingFailed visitor path error state).inner = noted state.inner ++ [path]) :
    ∃ new, noted result.2.inner = noted state.inner ++ new ∧
      new.Sublist (log.map fun attended => root.descend attended.1.relative) := by
  have hattend : ∀ {item : Item} {state next : State σ} {flow : Flow ε} {new : List Item},
      attend visitor root deeper item state = ((flow, next), new) →
        noted next.inner = noted state.inner ∨ noted next.inner = noted state.inner ++ [root.descend item.relative] := by
    intro item state next flow new hitem
    rcases attend_cases hitem with
      ⟨relative, rfl, hresult, -⟩ | ⟨relative, rfl, -, ⟨rfl, -⟩ | ⟨error, rfl, -⟩ | ⟨_, -, rfl, -⟩⟩
    · have hone := hhand (root.descend relative) state
      rwa [hresult] at hone
    · exact .inl rfl
    · exact hfailed _ _ state
    · exact .inl rfl
  induction h with
  | done state => exact ⟨[], (List.append_nil _).symm, .slnil⟩
  | @onward item _ _ _ _ _ _ hitem _ ih =>
      obtain ⟨new, hnew, hsub⟩ := ih
      rcases hattend hitem with hsame | hone
      · exact ⟨new, by rw [hnew, hsame], hsub.cons _⟩
      · exact ⟨root.descend item.relative :: new, by rw [hnew, hone, List.append_assoc]; rfl, hsub.cons_cons _⟩
  | @stopped item _ _ _ _ _ hitem _ =>
      rcases hattend hitem with hsame | hone
      · exact ⟨[], by rw [hsame, List.append_nil], List.nil_sublist _⟩
      · exact ⟨[root.descend item.relative], hone, List.Sublist.refl _⟩

/-- A list in the visitor's state that takes up a path only when it is handed over, or when it cannot be listed, has no
path twice at the end of a walk. Each of them is below the root. -/
theorem nodup_noted (noted : σ → List Path)
    (hhand : ∀ path state, noted (hand visitor root path state).2.inner = noted state.inner ∨
      noted (hand visitor root path state).2.inner = noted state.inner ++ [path])
    (hfailed : ∀ path error state, noted (listingFailed visitor path error state).inner = noted state.inner ∨
      noted (listingFailed visitor path error state).inner = noted state.inner ++ [path])
    {inner : σ} (hinner : noted inner = []) :
    (noted (run visitor root inner).2).Nodup ∧
      ∀ path ∈ noted (run visitor root inner).2, ∃ relative, path = root.descend relative := by
  cases hnul : root.hasNul with
  | true =>
      rw [run_of_hasNul hnul, hinner]
      exact ⟨List.nodup_nil, fun _ hpath => absurd hpath List.not_mem_nil⟩
  | false =>
      obtain ⟨log, result, hcourse, hrun⟩ := exists_course_run visitor hnul inner
      obtain ⟨new, hnew, hsub⟩ := hcourse.sublist_of_noted noted hhand hfailed
      rw [hrun, inner_conclusion, hnew, hinner, List.nil_append]
      have honce := (hcourse.nodup (List.pairwise_singleton _ _)).1
      constructor
      · have hpaths := honce.map fun _ _ => root.descend_injective
        rw [List.map_map] at hpaths
        exact hsub.nodup hpaths
      · intro path hpath
        obtain ⟨attended, -, rfl⟩ := List.mem_map.mp (hsub.subset hpath)
        exact ⟨_, rfl⟩

end Once

end ClassDump.Walk
