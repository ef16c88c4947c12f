import ClassDump.Proofs.Store.Within
import ClassDump.Proofs.Walk.Agenda
import ClassDump.Proofs.Walk.Invariant
import ClassDump.Proofs.Walk.Seen
import Mathlib.Data.List.Induction

/-! Every walk comes to an end, wherever links lead, if its visitor creates nothing. The agenda of a walk is worked off
without any bound on its depth: a directory is entered by a path that has few links, and between two links the path only
goes down. Where links are not followed, each directory is entered once. -/

namespace ClassDump

namespace Walk

variable {σ ε : Type}

variable {visitor : Visitor σ ε} {root : Path} {deeper : Location → Bool} {agenda : List Item} {relative : Location}
  {state next : State σ} {listed : List World.Listed} {log : List (Item × State σ)} {result : Flow ε × State σ}

namespace Course

/-- What holds of the agenda, and goes from a directory that is entered to what is listed there, holds of all that is
attended to. -/
theorem forall_items (holds : Item → Prop) (h : Course visitor root deeper agenda state log result)
    (hagenda : ∀ item ∈ agenda, holds item)
    (hstep : ∀ relative earlier listed, (.directory relative, earlier) ∈ log → holds (.directory relative) →
      Enters visitor root relative earlier listed → ∀ item ∈ itemsOf (deeper relative) relative listed, holds item) :
    ∀ attended ∈ log, holds attended.1 := by
  induction h with
  | done state => exact fun _ hattended => absurd hattended List.not_mem_nil
  | stopped _ _ => exact List.forall_mem_singleton.mpr (hagenda _ List.mem_cons_self)
  | onward hitem _ ih =>
      have hfirst := hagenda _ List.mem_cons_self
      refine List.forall_mem_cons.mpr ⟨hfirst, ih (fun other hother => ?_) fun relative earlier listed hmem =>
        hstep relative earlier listed (List.mem_cons_of_mem _ hmem)⟩
      rcases List.mem_append.mp hother with hnew | hrest
      · obtain ⟨relative, listed, rfl, henters, rfl⟩ := enters_of_attend hitem hnew
        exact hstep relative _ listed List.mem_cons_self hfirst henters other hnew
      · exact hagenda other (List.mem_cons_of_mem _ hrest)

/-- What is attended to was on the agenda, or it was listed in a directory that was entered. -/
theorem origin (h : Course visitor root deeper agenda state log result) : ∀ attended ∈ log, attended.1 ∈ agenda ∨
    ∃ relative earlier listed, (.directory relative, earlier) ∈ log ∧ Enters visitor root relative earlier listed ∧
      attended.1 ∈ itemsOf (deeper relative) relative listed :=
  h.forall_items
    (fun item => item ∈ agenda ∨ ∃ relative earlier listed, (.directory relative, earlier) ∈ log ∧
      Enters visitor root relative earlier listed ∧ item ∈ itemsOf (deeper relative) relative listed)
    (fun _ hitem => .inl hitem) fun relative earlier listed hmem _ henters _ hitem =>
      .inr ⟨relative, earlier, listed, hmem, henters, hitem⟩

theorem forall_states {inv : σ → Prop} {allowed : Raised ε → Prop}
    (h : Course visitor root deeper agenda state log result) (hkeeps : Keeps visitor inv allowed)
    (hstate : inv state.inner) : ∀ attended ∈ log, inv attended.2.inner := by
  have hattend : ∀ {item : Item} {state next : State σ} {flow : Flow ε} {new : List Item}, inv state.inner →
      attend visitor root deeper item state = ((flow, next), new) → inv next.inner := by
    intro item state next flow new hstate hitem
    rcases attend_cases hitem with
      ⟨relative, rfl, hresult, -⟩ | ⟨relative, rfl, -, ⟨rfl, -⟩ | ⟨error, rfl, -⟩ | ⟨_, -, rfl, -⟩⟩
    · have hhand : inv (hand visitor root (root.descend relative) state).2.inner :=
        (hkeeps.guided.sound_hand root trivial state hstate).1
      rwa [hresult] at hhand
    · exact hstate
    · exact hkeeps.guided.inv_listingFailed _ _ state hstate
    · exact hstate
  induction h with
  | done state => exact fun _ hattended => absurd hattended List.not_mem_nil
  | stopped _ _ => exact List.forall_mem_singleton.mpr hstate
  | onward hitem _ ih => exact List.forall_mem_cons.mpr ⟨hstate, ih (hattend hstate hitem)⟩

section Complete

variable (h : Course visitor root deeper agenda state log result) (honward : result.1 = .onward)
include h honward

/-- A walk that nobody ends attends to all of its agenda. -/
theorem exists_of_mem_agenda : ∀ item ∈ agenda, ∃ later, (item, later) ∈ log := by
  induction h with
  | done state => exact fun _ hitem => absurd hitem List.not_mem_nil
  | stopped _ hflow => exact absurd honward hflow
  | onward _ _ ih =>
      refine List.forall_mem_cons.mpr ⟨⟨_, List.mem_cons_self⟩, fun item hitem => ?_⟩
      obtain ⟨later, hlater⟩ := ih honward item (List.mem_append_right _ hitem)
      exact ⟨later, List.mem_cons_of_mem _ hlater⟩

/-- A walk that nobody ends attends to all that is listed in the directories that it enters. -/
theorem exists_of_enters (hmem : (.directory relative, next) ∈ log)
    (henters : Enters visitor root relative next listed) :
    ∀ item ∈ itemsOf (deeper relative) relative listed, ∃ later, (item, later) ∈ log := by
  induction h with
  | done state => exact absurd hmem List.not_mem_nil
  | stopped _ hflow => exact absurd honward hflow
  | onward hitem hrest ih =>
      intro item hlisted
      rcases List.mem_cons.mp hmem with heq | hmem
      · cases heq
        rw [henters.attend deeper] at hitem
        cases hitem
        obtain ⟨later, hlater⟩ := hrest.exists_of_mem_agenda honward item (List.mem_append_left _ hlisted)
        exact ⟨later, List.mem_cons_of_mem _ hlater⟩
      · obtain ⟨later, hlater⟩ := ih honward hmem item hlisted
        exact ⟨later, List.mem_cons_of_mem _ hlater⟩

end Complete

/-- The bound on the depth makes no difference if it is the same for the directories that are entered. -/
theorem congr {other : Location → Bool} (h : Course visitor root deeper agenda state log result)
    (hsame : ∀ relative earlier listed, (.directory relative, earlier) ∈ log →
      Enters visitor root relative earlier listed → deeper relative = other relative) :
    Course visitor root other agenda state log result := by
  have hattend : ∀ item earlier, (item, earlier) ∈ log →
      attend visitor root other item earlier = attend visitor root deeper item earlier := by
    intro item earlier hmem
    cases item with
    | entry relative => rfl
    | directory relative =>
        rcases attend_directory_cases visitor root deeper relative earlier with
          ⟨hpass, hitem⟩ | ⟨hpass, ⟨error, hlist, hitem⟩ | ⟨listed, hlist, hitem⟩⟩
        · rw [hitem, attend_of_passesOver hpass]
        · rw [hitem, attend_of_error hpass hlist]
        · rw [hitem, attend_of_ok hpass hlist, hsame relative earlier listed hmem ⟨hpass, hlist⟩]
  clear hsame
  induction h with
  | done state => exact .done state
  | onward hitem _ ih =>
      refine .onward ((hattend _ _ List.mem_cons_self).trans hitem) (ih fun item earlier hmem => ?_)
      exact hattend item earlier (List.mem_cons_of_mem _ hmem)
  | stopped hitem hflow => exact .stopped ((hattend _ _ List.mem_cons_self).trans hitem) hflow

end Course

/-- A directory is entered, and it is at the location. -/
def EntersAt (visitor : Visitor σ ε) (root : Path) (attended : Item × State σ) (location : Location) : Prop :=
  ∃ relative listed, attended.1 = .directory relative ∧ Enters visitor root relative attended.2 listed ∧
    (visitor.world attended.2.inner).IsDirAt (root.descend relative) location

/-- From the states with a property on, the visitor comes to such states only, and in their worlds nothing is there that
was not in a first one. -/
structure CreatesNothing (visitor : Visitor σ ε) (base : World) (inv : σ → Prop) : Prop where
  keeps : Keeps visitor inv fun _ => True
  within : ∀ state, inv state → (visitor.world state).Within base

/-- A visitor creates nothing if nothing that it is asked for does. -/
theorem createsNothing_of_steps (base : World)
    (hvisit : ∀ path state, (visitor.world (visitor.visit path state).2).Within (visitor.world state))
    (hlog : ∀ message state, (visitor.world (visitor.log message state)).Within (visitor.world state))
    (honError : ∀ handle, visitor.onError = some handle → ∀ path error state,
      (visitor.world (handle path error state)).Within (visitor.world state)) :
    CreatesNothing visitor base fun state => (visitor.world state).Within base where
  keeps :=
    { visit := fun path state hstate => (hvisit path state).trans hstate
      raise := fun _ _ _ _ _ => .inl trivial
      log := fun message state hstate => (hlog message state).trans hstate
      onError := fun handle hhandle path error state hstate => (honError handle hhandle path error state).trans hstate }
  within _ hstate := hstate

section Root

variable {base : World} {inv : σ → Prop} {inner : σ} {attended : Item × State σ}

/-- Where something is attended to, nothing was created, and the names on the way there are legal. -/
structure Sighted (visitor : Visitor σ ε) (base : World) (attended : Item × State σ) : Prop where
  within : (visitor.world attended.2.inner).Within base
  names : ∀ name ∈ attended.1.relative, LegalName name

theorem Course.sighted (h : Course visitor root deeper [.directory []] ⟨inner, 0⟩ log result) (hlegal : base.Legal)
    (hcreates : CreatesNothing visitor base inv) (hinner : inv inner) :
    ∀ attended ∈ log, Sighted visitor base attended := by
  have hwithin := fun attended hattended =>
    hcreates.within _ (h.forall_states hcreates.keeps hinner attended hattended)
  have hnames := h.forall_items (fun item => ∀ name ∈ item.relative, LegalName name)
    (List.forall_mem_singleton.mpr nofun) fun relative earlier listed hmem hrelative henters item hitem => by
      obtain ⟨entry, hentry, heq⟩ := exists_entry_of_mem_itemsOf hitem
      rw [heq]
      have hlegal := (hwithin _ hmem).root.legal hlegal.root
      exact List.forall_mem_append.mpr
        ⟨hrelative, List.forall_mem_singleton.mpr (World.legalName_of_list hlegal henters.2 hentry)⟩
  exact fun attended hattended => ⟨hwithin attended hattended, hnames attended hattended⟩

/-- What is below the root is attended to because it was listed in the directory above, which was entered. -/
theorem Course.exists_above (h : Course visitor root deeper [.directory []] ⟨inner, 0⟩ log result)
    (hattended : attended ∈ log) {above : Location} {name : String}
    (hrelative : attended.1.relative = above ++ [name]) :
    ∃ earlier listed, (.directory above, earlier) ∈ log ∧ Enters visitor root above earlier listed ∧
      attended.1 ∈ itemsOf (deeper above) above listed := by
  rcases h.origin attended hattended with hroot | ⟨relative, earlier, listed, hmem, henters, hitem⟩
  · rw [List.mem_singleton.mp hroot] at hrelative
    exact absurd hrelative.symm (by simp [Item.relative])
  · obtain ⟨entry, -, heq⟩ := exists_entry_of_mem_itemsOf hitem
    obtain ⟨rfl, -⟩ := List.append_inj' (hrelative.symm.trans heq) rfl
    exact ⟨earlier, listed, hmem, henters, hitem⟩

/-- What is entered is a directory that stands, or else it is the root, which was removed and is empty. -/
theorem Sighted.isDirAt_or_removed (h : Sighted visitor base (.directory relative, state))
    (henters : Enters visitor root relative state listed) :
    (∃ location, (visitor.world state.inner).IsDirAt (root.descend relative) location) ∨
      relative = [] ∧ listed = [] := by
  rcases World.isDirAt_or_removed_of_list henters.2 with hdir | ⟨hnil, place, hlocate, hremoved⟩
  · exact .inl hdir
  · refine .inr ⟨?_, hnil⟩
    by_contra hne
    exact hremoved (World.removed_of_locateFrom_descend hne (fun name hname => (h.names name hname).isName.2.1) hlocate)

/-- The path of a directory that is listed is too short for as many names as bytes fit into a path. -/
theorem Sighted.length_lt (h : Sighted visitor base (.directory relative, state))
    (henters : Enters visitor root relative state listed) : relative.length < pathMax := by
  obtain ⟨-, hshort, -⟩ := World.exists_entries_of_list henters.2
  have hnames : ∀ name ∈ relative, name ≠ "" := fun name hname => (h.names name hname).ne_empty
  have hlonger := (Place.ofPath root).utf8ByteSize_descend hnames
  omega

/-- What is entered is no deeper than the links that a path may have and the depth of the tree allow. -/
theorem Sighted.length_le (h : Sighted visitor base (.directory relative, state))
    (henters : Enters visitor root relative state listed) {height : Nat}
    (hheight : ∀ location, base.root.HasDir location → location.length ≤ height) :
    relative.length ≤ linkMax * (height + 1) + height := by
  rcases h.isDirAt_or_removed henters with ⟨location, hlocate, hdir⟩ | ⟨rfl, -⟩
  · obtain ⟨n, hn, hleads, -⟩ := World.exists_leads_of_locateFrom hlocate
    obtain ⟨k, l, mid, rfl, -, hreach⟩ := hleads.split fun name hname => (h.names name hname).isName.2.1
    have hnow : ∀ location, (visitor.world state.inner).root.HasDir location → location.length ≤ height :=
      fun location hlocation => hheight location (h.within.root.hasDir hlocation)
    have hlength := hreach.length_le hnow fun name hname => (h.names name hname).isName
    have hthere := hnow location hdir
    have hlinks : l * (height + 1) ≤ linkMax * (height + 1) := Nat.mul_le_mul_right _ (by omega)
    omega
  · exact Nat.zero_le _

section Real

variable (hlinks : visitor.followLinks = false) (hnul : root.hasNul = false)
include hlinks hnul

/-- Where links are not followed, a directory that is entered is where its names lead down to from the root. -/
theorem Course.exists_leads_of_entersAt (h : Course visitor root deeper [.directory []] ⟨inner, 0⟩ log result)
    (hlegal : base.Legal) (hsighted : ∀ attended ∈ log, Sighted visitor base attended) (hattended : attended ∈ log)
    {location : Location} (henters : EntersAt visitor root attended location) :
    ∃ n there, base.Leads n root there ∧ base.Leads n (root.descend attended.1.relative) location ∧
      location = there ++ attended.1.relative := by
  obtain ⟨item, state⟩ := attended
  obtain ⟨relative, listed, rfl, hlisted, hdir⟩ := henters
  have hseen := hsighted _ hattended
  induction relative using List.reverseRecOn generalizing state listed location with
  | nil =>
      obtain ⟨n, -, hleads, -⟩ := World.exists_leads_of_locateFrom hdir.1
      have hbefore := hseen.within.leads hlegal hleads
      refine ⟨n, location, ?_, hbefore, (List.append_nil _).symm⟩
      rwa [root.descend_nil] at hbefore
  | append_singleton above name ih =>
      -- the directory above was entered before, and the names have led down to it
      obtain ⟨earlier, shown, hmem, hshown, hitem⟩ := h.exists_above hattended rfl
      have hearlier := hsighted _ hmem
      have hsome : shown ≠ [] := by
        rintro rfl
        obtain ⟨entry, hentry, -⟩ := exists_entry_of_mem_itemsOf hitem
        exact absurd hentry List.not_mem_nil
      obtain ⟨place, hplace⟩ := (hearlier.isDirAt_or_removed hshown).resolve_right fun hremoved => hsome hremoved.2
      obtain ⟨n, there, hroot, habove, rfl⟩ := ih earlier shown hmem hshown hplace hearlier
      have hlink : (visitor.world state.inner).isLink ((root.descend above).child name) = false := by
        have hpass := hlisted.1
        rw [passesOver, hlinks, root.descend_append, ← Path.child_eq_descend] at hpass
        simpa using hpass
      have hfree := Path.hasNul_descend hnul hseen.names
      rw [Item.relative, root.descend_append] at hfree
      rw [root.descend_append] at hdir
      obtain ⟨m, -, mid, hmid, hleads, rfl⟩ :=
        World.exists_leads_of_not_isLink hdir (hseen.names name (by simp [Item.relative])) hfree hlink
      obtain ⟨rfl, rfl⟩ := (hseen.within.leads hlegal hmid).unique habove
      refine ⟨m, there, hroot, ?_, List.append_assoc _ _ _⟩
      rw [Item.relative, root.descend_append]
      exact hseen.within.leads hlegal hleads

/-- Where links are not followed, a directory that is entered is reached through directories only. -/
theorem Course.exists_leads_root_of_entersAt (h : Course visitor root deeper [.directory []] ⟨inner, 0⟩ log result)
    (hlegal : base.Legal) (hsighted : ∀ attended ∈ log, Sighted visitor base attended) (hattended : attended ∈ log)
    {location : Location} (henters : EntersAt visitor root attended location) :
    ∃ n there, (visitor.world attended.2.inner).Leads n root there ∧ location = there ++ attended.1.relative ∧
      ∀ above, above <+: attended.1.relative → (visitor.world attended.2.inner).root.HasDir (there ++ above) := by
  obtain ⟨_, there, hroot, -, hlocation⟩ := h.exists_leads_of_entersAt hlinks hnul hlegal hsighted hattended henters
  obtain ⟨item, state⟩ := attended
  obtain ⟨relative, listed, rfl, -, hlocate, hdir⟩ := henters
  have hseen := hsighted _ hattended
  obtain ⟨_, -, hleads, -⟩ := World.exists_leads_of_locateFrom hlocate
  obtain ⟨n, _, other, -, hnow, -⟩ := hleads.split fun name hname => (hseen.names name hname).isName.2.1
  obtain ⟨-, rfl⟩ := (hseen.within.leads hlegal hnow).unique hroot
  refine ⟨n, other, hnow, hlocation, ?_⟩
  rintro above ⟨rest, hrest⟩
  rw [hlocation, ← hrest, ← List.append_assoc] at hdir
  exact Node.hasDir_of_hasDir_append hdir

/-- Where links are not followed, no directory is entered twice. -/
theorem Course.pairwise_entersAt (h : Course visitor root deeper [.directory []] ⟨inner, 0⟩ log result)
    (hlegal : base.Legal) (hsighted : ∀ attended ∈ log, Sighted visitor base attended) :
    log.Pairwise fun first second =>
      ∀ location, EntersAt visitor root first location → ¬EntersAt visitor root second location := by
  have honce := List.pairwise_map.mp (h.nodup (List.pairwise_singleton _ _)).1
  refine honce.imp_of_mem fun hfirst hsecond hne location henters hagain => hne ?_
  obtain ⟨n, there, hroot, -, rfl⟩ := h.exists_leads_of_entersAt hlinks hnul hlegal hsighted hfirst henters
  obtain ⟨m, other, hother, -, hsame⟩ := h.exists_leads_of_entersAt hlinks hnul hlegal hsighted hsecond hagain
  obtain ⟨-, rfl⟩ := hroot.unique hother
  exact List.append_cancel_left hsame

end Real

/-- A link that leads to no directory over few enough links is not entered, but handed over if the walk comes to it. -/
theorem Course.not_entered_of_link (h : Course visitor root (fun _ => true) [.directory []] ⟨inner, 0⟩ log result)
    (hmem : (.directory relative, state) ∈ log) (henters : Enters visitor root relative state listed) {n : Nat}
    {here : Location} (hleads : (visitor.world state.inner).Leads n (root.descend relative) here) {name target : String}
    (hnode : (visitor.world state.inner).root.bare? (here ++ [name]) = some (.link target))
    (hfar : ∀ m location, (visitor.world state.inner).Leads m (root.descend (relative ++ [name])) location →
      (visitor.world state.inner).root.HasDir location → linkMax < m) :
    (∀ later, (.directory (relative ++ [name]), later) ∉ log) ∧
      (result.1 = .onward → ∃ later, (.entry (relative ++ [name]), later) ∈ log) := by
  rw [root.descend_append, ← Path.child_eq_descend] at hfar
  have hlisted := mem_files_iff.mpr (hleads.mem_listed_of_link henters.2 hnode hfar)
  constructor
  · intro later hlater
    obtain ⟨earlier, shown, habove, hshown, hitem⟩ := h.exists_above hlater rfl
    -- the directory above is attended to once, so this is the listing in which the link is no directory
    have hsame := List.inj_on_of_nodup_map (h.nodup (List.pairwise_singleton _ _)).1 habove hmem rfl
    cases hsame
    have hlist := hshown.2.symm.trans henters.2
    cases hlist
    rcases List.mem_append.mp hitem with hentry | hdir
    · obtain ⟨_, -, hentry⟩ := List.mem_map.mp hentry
      cases hentry
    · obtain ⟨named, hnamed, heq⟩ := List.mem_map.mp hdir
      obtain ⟨-, hlast⟩ := List.append_inj' (Item.directory.inj heq) rfl
      cases hlast
      exact not_mem_namesWhere_not (World.nodup_of_list henters.2) hnamed hlisted
  · intro honward
    exact h.exists_of_enters honward hmem henters _
      (List.mem_append_left _ (List.mem_map.mpr ⟨name, hlisted, rfl⟩))

end Root

/-- What the course of a walk keeps to, in the tree of a world. A directory is entered over no more links than the
system follows, unless it is the root, which may have been removed. What was listed as a directory and leads to none
over so few links is reported, and a link that does is handed over. The walk goes no deeper than the links of a path and
the depth of the tree allow. Where links are not followed, each directory is entered through directories only, and once.
-/
structure Contained (visitor : Visitor σ ε) (base : World) (root : Path) (log : List (Item × State σ))
    (result : Flow ε × State σ) : Prop where
  overFewLinks : ∀ relative state listed, (.directory relative, state) ∈ log →
    Enters visitor root relative state listed →
      (∃ n ≤ linkMax, ∃ location, (visitor.world state.inner).Leads n (root.descend relative) location ∧
        (visitor.world state.inner).root.HasDir location) ∨ relative = [] ∧ listed = []
  refused : ∀ relative state, (.directory relative, state) ∈ log → passesOver visitor root relative state = false →
    (∀ n location, (visitor.world state.inner).Leads n (root.descend relative) location →
      (visitor.world state.inner).root.HasDir location → linkMax < n) →
        (∃ error, attend visitor root (fun _ => true) (.directory relative) state =
          ((.onward, listingFailed visitor (root.descend relative) error state), [])) ∨
        relative = [] ∧ Enters visitor root relative state []
  handedOver : ∀ relative state listed n here name target, (.directory relative, state) ∈ log →
    Enters visitor root relative state listed → (visitor.world state.inner).Leads n (root.descend relative) here →
      (visitor.world state.inner).root.bare? (here ++ [name]) = some (.link target) →
        (∀ m location, (visitor.world state.inner).Leads m (root.descend (relative ++ [name])) location →
          (visitor.world state.inner).root.HasDir location → linkMax < m) →
            (∀ later, (.directory (relative ++ [name]), later) ∉ log) ∧
              (result.1 = .onward → ∃ later, (.entry (relative ++ [name]), later) ∈ log)
  shallow : ∀ height, (∀ location, base.root.HasDir location → location.length ≤ height) →
    ∀ relative state listed, (.directory relative, state) ∈ log → Enters visitor root relative state listed →
      relative.length ≤ linkMax * (height + 1) + height
  real : visitor.followLinks = false → ∀ attended ∈ log, ∀ location, EntersAt visitor root attended location →
    ∃ n there, (visitor.world attended.2.inner).Leads n root there ∧ location = there ++ attended.1.relative ∧
      ∀ above, above <+: attended.1.relative → (visitor.world attended.2.inner).root.HasDir (there ++ above)
  once : visitor.followLinks = false → log.Pairwise fun first second =>
    ∀ location, EntersAt visitor root first location → ¬EntersAt visitor root second location

theorem contained_of_sighted {base : World} {inner : σ} (hnul : root.hasNul = false)
    (h : Course visitor root (fun _ => true) [.directory []] ⟨inner, 0⟩ log result) (hlegal : base.Legal)
    (hsighted : ∀ attended ∈ log, Sighted visitor base attended) : Contained visitor base root log result where
  overFewLinks relative state listed hmem henters := by
    refine ((hsighted _ hmem).isDirAt_or_removed henters).imp_left fun ⟨location, hlocate, hdir⟩ => ?_
    obtain ⟨n, hn, hleads, -⟩ := World.exists_leads_of_locateFrom hlocate
    exact ⟨n, hn, location, hleads, hdir⟩
  refused relative state hmem hpass hfar := by
    rcases attend_directory_cases visitor root (fun _ => true) relative state with
      ⟨htaken, -⟩ | ⟨-, ⟨error, -, hitem⟩ | ⟨listed, hlist, -⟩⟩
    · rw [hpass] at htaken
      cases htaken
    · exact .inl ⟨error, hitem⟩
    · rcases (hsighted _ hmem).isDirAt_or_removed ⟨hpass, hlist⟩ with ⟨location, hlocate, hdir⟩ | ⟨hroot, rfl⟩
      · obtain ⟨n, hn, hleads, -⟩ := World.exists_leads_of_locateFrom hlocate
        exact absurd (hfar n location hleads hdir) (Nat.not_lt.mpr hn)
      · exact .inr ⟨hroot, hpass, hlist⟩
  handedOver relative state listed n here name target hmem henters hleads hnode hfar :=
    h.not_entered_of_link hmem henters hleads hnode hfar
  shallow height hheight relative state listed hmem henters := (hsighted _ hmem).length_le henters hheight
  real hlinks attended hattended location henters :=
    h.exists_leads_root_of_entersAt hlinks hnul hlegal hsighted hattended henters
  once hlinks := h.pairwise_entersAt hlinks hnul hlegal hsighted

/-- A walk whose visitor creates nothing works off its agenda to the end, with no bound on the depth, and what it enters
is contained in the tree. A root with a NUL is refused at once. -/
theorem exists_contained_course {base : World} {inv : σ → Prop} {inner : σ} (root : Path) (hlegal : base.Legal)
    (hcreates : CreatesNothing visitor base inv) (hinner : inv inner) :
    root.hasNul = true ∧ run visitor root inner = (.error .nul, inner) ∨
      ∃ log result, Course visitor root (fun _ => true) [.directory []] ⟨inner, 0⟩ log result ∧
        run visitor root inner = conclusion result ∧ Contained visitor base root log result := by
  cases hnul : root.hasNul with
  | true => exact .inl ⟨rfl, run_of_hasNul hnul inner⟩
  | false =>
      obtain ⟨log, result, hbounded, hrun⟩ := exists_course_run visitor hnul inner
      have hsighted := hbounded.sighted hlegal hcreates hinner
      have hcourse : Course visitor root (fun _ => true) [.directory []] ⟨inner, 0⟩ log result :=
        hbounded.congr fun relative earlier listed hmem henters =>
          decide_eq_true ((hsighted _ hmem).length_lt henters)
      exact .inr ⟨log, result, hcourse, hrun, contained_of_sighted hnul hcourse hlegal hsighted⟩

/-- Two links that lead to each other, one in a directory next to the other. -/
def withLinkCycle : World where
  root := .dir [("tree", .dir [("pong", .link "sub/ping"), ("sub", .dir [("ping", .link "../pong")])])]
  workingDir := ⟨[], []⟩
  home := "/"

/-- Removes everything that it is handed, links to directories entered. -/
def removing : Visitor World Empty where
  world := id
  log _ world := world
  visit path world := (.ok .proceed, world.remove path)
  onError := none
  followLinks := true

/-- Both links are handed over. -/
theorem exists_contained_course_withLinkCycle :
    let tree : Path := ⟨.root, ["tree"]⟩
    ∃ log result, Course removing tree (fun _ => true) [.directory []] ⟨withLinkCycle, 0⟩ log result ∧
      (conclusion result).1 = .ok 2 ∧ (conclusion result).2.root.bare? ["tree", "pong"] = none ∧
        (conclusion result).2.root.bare? ["tree", "sub", "ping"] = none ∧
          ∀ relative state listed, (.directory relative, state) ∈ log →
            Enters removing tree relative state listed → relative.length ≤ linkMax * 3 + 2 := by
  intro tree
  have hlegal : withLinkCycle.Legal := ⟨Node.legal_of_flatten (by decide +kernel), rfl⟩
  have hcreates := @createsNothing_of_steps _ _ removing withLinkCycle (fun path world => world.within_remove path)
    (fun _ world => .refl world) nofun
  have hheight : ∀ location, withLinkCycle.root.HasDir location → location.length ≤ 2 := fun location hdir =>
    @Node.forall_of_flatten withLinkCycle.root (fun location node => node.isDir = true → location.length ≤ 2)
      (by decide +kernel) _ _ hdir rfl
  have hinner : (removing.world withLinkCycle).Within withLinkCycle := .refl withLinkCycle
  obtain ⟨log, result, hcourse, hrun, hcontained⟩ :=
    (exists_contained_course tree hlegal hcreates hinner).resolve_left fun hnul => absurd hnul.1 (by decide)
  have hcount : (run removing tree withLinkCycle).1 = .ok 2 := by decide +kernel
  have hpong : (run removing tree withLinkCycle).2.root.bare? ["tree", "pong"] = none :=
    Node.bare?_eq_none_iff.mpr (Option.isNone_iff_eq_none.mp (by decide +kernel))
  have hping : (run removing tree withLinkCycle).2.root.bare? ["tree", "sub", "ping"] = none :=
    Node.bare?_eq_none_iff.mpr (Option.isNone_iff_eq_none.mp (by decide +kernel))
  rw [hrun] at hcount hpong hping
  exact ⟨log, result, hcourse, hcount, hpong, hping, hcontained.shallow 2 hheight⟩

end Walk
end ClassDump
