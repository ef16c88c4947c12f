import ClassDump.Proofs.Walk.Itinerary
import ClassDump.Proofs.Walk.Outline

/-! What a walk hands over, and in which order, if nobody stops it and links to directories are not entered. It hands
over everything below its root that is no directory, unless it is behind a directory that cannot be listed: in every
directory first what is in it, and then what is in its directories, both by ascending names. -/

namespace ClassDump

namespace World

variable {world : World} {n : Nat} {text : String} {path : Path} {there : Location} {listed : List Listed}
  {name : String} {node : Node}

/-- What the path of an entry names stands in the directory, if the entry is no link. -/
theorem Leads.bare_eq_of_stat (h : world.Leads n path there) (hname : IsName name) (hlink : node.isLink = false)
    (hbare : world.root.bare? (there ++ [name]) = some node) {found : Node}
    (hstat : world.stat (path.child name) = .ok found) : found.bare = node := by
  obtain ⟨m, final, hreach, -, hget, -⟩ := h.exists_reach_of_stat hstat
  have hnames : ∀ other ∈ [name], IsName other := List.forall_mem_singleton.mpr hname
  obtain ⟨-, rfl⟩ := hreach.unique (Node.reach_names hnames hbare hlink)
  rw [Node.bare?, hget] at hbare
  exact Option.some.inj hbare

/-- An entry is listed as something other than a directory if it is none and its path does not name one. -/
theorem Leads.isDir_seen_eq_false_iff (h : world.Leads n path there) (hname : LegalName name)
    (hnul : (path.child name).hasNul = false) (hbare : world.root.bare? (there ++ [name]) = some node) :
    (world.seen path (name, node)).isDir = false ↔
      node.isDir = false ∧ world.isDir (path.child name) ≠ .ok true := by
  rw [← Bool.not_eq_true, isDir_seen_iff, not_or, Bool.not_eq_true]
  refine and_congr_right fun hnode => not_congr ?_
  constructor
  · rintro ⟨-, found, hstat, hfound⟩
    exact (ask_of_stat hnul hstat).trans (congrArg Except.ok hfound)
  · intro hdir
    obtain ⟨-, found, hstat, hfound⟩ := ask_eq_true hdir
    refine ⟨?_, found, hstat, hfound⟩
    by_contra hlink
    have hsame := h.bare_eq_of_stat hname.isName (Bool.eq_false_iff.mpr hlink) hbare hstat
    rw [← hsame] at hnode
    cases found <;> cases hfound
    cases hnode

/-- An entry that is listed as a directory is one unless it is taken for a link. -/
theorem Leads.isDir_seen_and_not_isLink_iff (h : world.Leads n path there) (hn : n ≤ linkMax) (hname : LegalName name)
    (hnul : (path.child name).hasNul = false) (hbare : world.root.bare? (there ++ [name]) = some node) :
    (world.seen path (name, node)).isDir = true ∧ world.isLink (path.child name) = false ↔ node = .dir [] := by
  constructor
  · rintro ⟨hseen, hnot⟩
    rcases isDir_seen_iff.mp hseen with hdir | ⟨hlink, found, hstat, -⟩
    · refine (Node.bare_of_bare? hbare).resolve_left fun hother => ?_
      rw [hother] at hdir
      cases hdir
    · -- a link whose path names something has a path that is short enough to be recognised by it
      obtain ⟨-, -, -, -, -, hlength⟩ := h.exists_reach_of_stat hstat
      have hget := (Node.bare?_eq_some_iff (by cases node <;> cases hlink; rfl)).mp hbare
      rw [h.isLink_child hn hname hlength hnul hget, hlink] at hnot
      cases hnot
  · rintro rfl
    exact ⟨isDir_seen_iff.mpr (.inl rfl), Walk.isLink_child_of_hasDir h hn hname hbare⟩

section Listed

variable (h : world.Leads n path there) (hlegal : world.Legal) (hnul : path.hasNul = false)
  (hlist : world.list text path = .ok listed)
include h hlegal hnul hlist

theorem Leads.mem_files_iff : name ∈ Walk.namesWhere (!·.isDir) listed ↔
    (∃ node, node.isDir = false ∧ world.root.bare? (there ++ [name]) = some node) ∧
      world.isDir (path.child name) ≠ .ok true := by
  obtain ⟨-, -, entries, hstat, rfl⟩ := exists_entries_of_list hlist
  rw [Walk.mem_files_iff, mem_seen_iff (h.get?_of_stat hstat), ← exists_and_right]
  refine exists_congr fun node => ?_
  rw [and_right_comm, and_comm]
  refine and_congr_left fun hbare => ?_
  have hnames := hlegal.names hbare
  exact h.isDir_seen_eq_false_iff (hnames name (List.mem_singleton.mpr rfl)) (Path.hasNul_descend hnul hnames) hbare

theorem Leads.mem_dirs_iff (hn : n ≤ linkMax) :
    name ∈ Walk.namesWhere (·.isDir) listed ∧ world.isLink (path.child name) = false ↔
      world.root.HasDir (there ++ [name]) := by
  obtain ⟨-, -, entries, hstat, rfl⟩ := exists_entries_of_list hlist
  rw [Walk.mem_dirs_iff, mem_seen_iff (h.get?_of_stat hstat), ← exists_and_right]
  have hthere : ∀ node, world.root.bare? (there ++ [name]) = some node →
      ((world.seen path (name, node)).isDir = true ∧ world.isLink (path.child name) = false ↔ node = .dir []) := by
    intro node hbare
    have hnames := hlegal.names hbare
    exact h.isDir_seen_and_not_isLink_iff hn (hnames name (List.mem_singleton.mpr rfl))
      (Path.hasNul_descend hnul hnames) hbare
  constructor
  · rintro ⟨node, ⟨hbare, hseen⟩, hlink⟩
    obtain rfl := (hthere node hbare).mp ⟨hseen, hlink⟩
    exact hbare
  · intro hdir
    obtain ⟨hseen, hlink⟩ := (hthere _ hdir).mpr rfl
    exact ⟨_, ⟨hdir, hseen⟩, hlink⟩

end Listed

end World

namespace Walk

/-- One location comes before another in the order of a walk: what is in a directory comes by its name, and before what
is in the directories there. -/
inductive Precedes : Location → Location → Prop
  | files {name other : String} (hname : name < other) : Precedes [name] [other]
  | shallow {name other next : String} {more : Location} : Precedes [name] (other :: next :: more)
  | dirs {name other next last : String} {rest more : Location} (hname : name < other) :
      Precedes (name :: next :: rest) (other :: last :: more)
  | within {name : String} {rest more : Location} (hrest : Precedes rest more) :
      Precedes (name :: rest) (name :: more)

namespace Precedes

variable {location other : Location}

theorem append (h : Precedes location other) (above : Location) : Precedes (above ++ location) (above ++ other) := by
  induction above with
  | nil => exact h
  | cons name rest ih => exact .within ih

theorem ne_nil (h : Precedes location other) : location ≠ [] ∧ other ≠ [] := by
  cases h <;> exact ⟨List.cons_ne_nil _ _, List.cons_ne_nil _ _⟩

theorem asymm (h : Precedes location other) : ¬Precedes other location := by
  induction h with
  | files hname =>
      rintro (hother | _ | _ | hrest)
      · exact String.lt_asymm hname hother
      · exact hrest.ne_nil.1 rfl
  | shallow =>
      rintro (_ | _ | _ | hrest)
      exact hrest.ne_nil.2 rfl
  | dirs hname =>
      rintro (_ | _ | hother | hrest)
      · exact String.lt_asymm hname hother
      · exact String.lt_irrefl _ hname
  | within hrest ih =>
      rintro (_ | _ | hother | hback)
      · exact hrest.ne_nil.1 rfl
      · exact hrest.ne_nil.2 rfl
      · exact String.lt_irrefl _ hother
      · exact ih hback

/-- There is one order in which items can come by their places. -/
theorem eq_of_pairwise_on {α : Type} (spot : α → Location) {items others : List α}
    (h : items.Pairwise fun item next => Precedes (spot item) (spot next))
    (hothers : others.Pairwise fun item next => Precedes (spot item) (spot next))
    (hsame : ∀ item, item ∈ items ↔ item ∈ others) : items = others := by
  have hnodup : ∀ {items : List α}, items.Pairwise (fun item next => Precedes (spot item) (spot next)) → items.Nodup :=
    fun hitems => hitems.imp fun hbefore heq => (heq ▸ hbefore).asymm (heq ▸ hbefore)
  have hperm : items.Perm others := (List.perm_ext_iff_of_nodup (hnodup h) (hnodup hothers)).mpr fun _ => hsame _
  exact hperm.eq_of_pairwise (fun _ _ _ _ hbefore hafter => absurd hafter hbefore.asymm) h hothers

theorem eq_of_pairwise {locations others : List Location} (h : locations.Pairwise Precedes)
    (hothers : others.Pairwise Precedes) (hsame : ∀ location, location ∈ locations ↔ location ∈ others) :
    locations = others :=
  eq_of_pairwise_on id h hothers hsame

end Precedes

/-- Where an encounter comes in the order of a walk: what cannot be listed comes where its first entry would. -/
def Encounter.spot : Encounter → Location
  | .entry relative => relative
  | .unlisted relative _ => relative ++ [""]

section Itinerary

variable {world : World} {followLinks : Bool} {root : Path} {levels : Nat} {above relative : Location}
  {listed : List World.Listed} {encounter : Encounter} {encounters : List Encounter}

theorem mem_entriesOf : relative ∈ entriesOf encounters ↔ .entry relative ∈ encounters := by
  rw [entriesOf, List.mem_filterMap]
  constructor
  · rintro ⟨encounter, hmem, hsome⟩
    cases encounter with
    | entry location => cases hsome; exact hmem
    | unlisted location error => cases hsome
  · exact fun h => ⟨_, h, rfl⟩

/-- What a walk comes to from a directory on is that it cannot be listed, or it is in the directory or in one of its
directories. -/
theorem mem_encounters_iff : encounter ∈ itinerary world followLinks root levels above ↔
    (∃ error, world.list ((Place.ofPath root).descend above).text (root.descend above) = .error error ∧
      encounter = .unlisted above error) ∨
    ∃ listed, world.list ((Place.ofPath root).descend above).text (root.descend above) = .ok listed ∧
      ((∃ name ∈ namesWhere (!·.isDir) listed, encounter = .entry (above ++ [name])) ∨
        ∃ below, levels = below + 1 ∧ ∃ name ∈ namesWhere (·.isDir) listed,
          (!followLinks && world.isLink (root.descend (above ++ [name]))) = false ∧
            encounter ∈ itinerary world followLinks root below (above ++ [name])) := by
  cases hlist : world.list ((Place.ofPath root).descend above).text (root.descend above) with
  | error error => simp [itinerary_of_error hlist]
  | ok listed =>
      rw [itinerary_of_ok hlist, List.mem_append, List.mem_map]
      simp only [Except.ok.injEq, exists_eq_left', reduceCtorEq, false_and, exists_false, false_or,
        eq_comm (b := encounter)]
      refine or_congr_right ?_
      cases levels with
      | zero => simp
      | succ below =>
          simp only [Nat.add_right_cancel_iff, exists_eq_left', List.mem_flatMap]
          refine exists_congr fun name => and_congr_right fun _ => ?_
          split <;> simp_all

/-- What is handed over from a location on is in the directory there or in one of its directories. -/
theorem mem_itinerary_iff : relative ∈ entriesOf (itinerary world followLinks root levels above) ↔
    ∃ listed, world.list ((Place.ofPath root).descend above).text (root.descend above) = .ok listed ∧
      ((∃ name ∈ namesWhere (!·.isDir) listed, relative = above ++ [name]) ∨
        ∃ below, levels = below + 1 ∧ ∃ name ∈ namesWhere (·.isDir) listed,
          (!followLinks && world.isLink (root.descend (above ++ [name]))) = false ∧
            relative ∈ entriesOf (itinerary world followLinks root below (above ++ [name]))) := by
  rw [mem_entriesOf, mem_encounters_iff]
  constructor
  · rintro (⟨_, _, ⟨⟩⟩ | ⟨listed, hlist, ⟨name, hname, heq⟩ | ⟨below, hlevels, name, hname, hlink, hmem⟩⟩)
    · exact ⟨listed, hlist, .inl ⟨name, hname, Encounter.entry.inj heq⟩⟩
    · exact ⟨listed, hlist, .inr ⟨below, hlevels, name, hname, hlink, mem_entriesOf.mpr hmem⟩⟩
  · rintro ⟨listed, hlist, ⟨name, hname, rfl⟩ | ⟨below, hlevels, name, hname, hlink, hmem⟩⟩
    · exact .inr ⟨listed, hlist, .inl ⟨name, hname, rfl⟩⟩
    · exact .inr ⟨listed, hlist, .inr ⟨below, hlevels, name, hname, hlink, mem_entriesOf.mp hmem⟩⟩

theorem entriesOf_itinerary_of_error {error : OsError}
    (hlist : world.list ((Place.ofPath root).descend above).text (root.descend above) = .error error) :
    entriesOf (itinerary world followLinks root levels above) = [] := by
  rw [itinerary_of_error hlist]
  rfl

/-- What a walk comes to from a directory on has its place further down. -/
theorem exists_spot_of_mem_itinerary (h : encounter ∈ itinerary world followLinks root levels above) :
    ∃ name rest, encounter.spot = above ++ name :: rest := by
  induction levels using Nat.strongRecOn generalizing above with
  | _ levels ih =>
    obtain ⟨error, -, rfl⟩ | ⟨listed, -, ⟨name, -, rfl⟩ | ⟨below, rfl, name, -, -, hbelow⟩⟩ := mem_encounters_iff.mp h
    · exact ⟨"", [], rfl⟩
    · exact ⟨name, [], rfl⟩
    · obtain ⟨next, rest, hspot⟩ := ih below (Nat.lt_succ_self below) hbelow
      exact ⟨name, next :: rest, hspot.trans (List.append_assoc _ _ _)⟩

/-- What a walk comes to in a directory that it may pass over has its place below that directory. -/
theorem exists_spot_of_mem_entered {below : Nat} {name : String}
    (h : encounter ∈ (if !followLinks && world.isLink (root.descend (above ++ [name])) then []
      else itinerary world followLinks root below (above ++ [name]))) :
    ∃ next rest, encounter.spot = above ++ name :: next :: rest := by
  split at h
  · exact absurd h List.not_mem_nil
  · obtain ⟨next, rest, hspot⟩ := exists_spot_of_mem_itinerary h
    exact ⟨next, rest, hspot.trans (List.append_assoc _ _ _)⟩

/-- A walk comes to all in the order of the places. -/
theorem pairwise_spots (world : World) (followLinks : Bool) (root : Path) (levels : Nat) (above : Location) :
    (itinerary world followLinks root levels above).Pairwise
      fun encounter next => Precedes encounter.spot next.spot := by
  induction levels using Nat.strongRecOn generalizing above with
  | _ levels ih =>
    cases hlist : world.list ((Place.ofPath root).descend above).text (root.descend above) with
    | error error =>
        rw [itinerary_of_error hlist]
        exact List.pairwise_singleton _ _
    | ok listed =>
        have honce := World.nodup_of_list hlist
        have hfiles : ((namesWhere (!·.isDir) listed).map fun name => Encounter.entry (above ++ [name])).Pairwise
            fun encounter next => Precedes encounter.spot next.spot :=
          List.pairwise_map.mpr ((pairwise_lt_namesWhere honce _).imp fun hname => (Precedes.files hname).append above)
        rw [itinerary_of_ok hlist]
        refine List.pairwise_append.mpr ⟨hfiles, ?_, fun encounter hencounter other hother => ?_⟩
        · cases levels with
          | zero => exact .nil
          | succ below =>
              refine List.pairwise_flatMap.mpr ⟨fun name _ => ?_, (pairwise_lt_namesWhere honce _).imp
                fun hname encounter hencounter other hother => ?_⟩
              · split
                · exact .nil
                · exact ih below (Nat.lt_succ_self below) _
              · obtain ⟨next, rest, hspot⟩ := exists_spot_of_mem_entered hencounter
                obtain ⟨last, more, hother⟩ := exists_spot_of_mem_entered hother
                rw [hspot, hother]
                exact (Precedes.dirs hname).append above
        · -- the entries of a directory come before what is in its directories
          obtain ⟨name, -, rfl⟩ := List.mem_map.mp hencounter
          cases levels with
          | zero => exact absurd hother List.not_mem_nil
          | succ below =>
              obtain ⟨named, -, hother⟩ := List.mem_flatMap.mp hother
              obtain ⟨next, rest, hspot⟩ := exists_spot_of_mem_entered hother
              rw [hspot]
              exact Precedes.shallow.append above

/-- What is handed over comes in the order of the walk. -/
theorem pairwise_itinerary (world : World) (followLinks : Bool) (root : Path) (levels : Nat) (above : Location) :
    (entriesOf (itinerary world followLinks root levels above)).Pairwise Precedes := by
  refine (pairwise_spots world followLinks root levels above).filterMap _ fun encounter next hbefore location hfirst
    other hsecond => ?_
  cases encounter <;> cases next <;> cases hfirst <;> cases hsecond
  exact hbefore

end Itinerary

/-- The directory at the relative location below the root cannot be listed. -/
def Unlisted (world : World) (root : Path) (relative : Location) : Prop :=
  ∃ error, world.list ((Place.ofPath root).descend relative).text (root.descend relative) = .error error

theorem not_unlisted {world : World} {root : Path} {relative : Location} {listed : List World.Listed}
    (hlist : world.list ((Place.ofPath root).descend relative).text (root.descend relative) = .ok listed) :
    ¬Unlisted world root relative := by
  rintro ⟨error, herror⟩
  rw [hlist] at herror
  cases herror

instance (world : World) (root : Path) : DecidablePred (Unlisted world root) := fun relative =>
  match hlist : world.list ((Place.ofPath root).descend relative).text (root.descend relative) with
  | .error error => isTrue ⟨error, hlist⟩
  | .ok _ => isFalse (not_unlisted hlist)

section Members

variable {world : World} {root : Path} {there relative : Location} (hlegal : world.Legal) (hnul : root.hasNul = false)
include hlegal hnul

/-- From an open directory on, everything further down that is no directory is handed over, if it is from its
directories on. -/
theorem mem_itinerary_iff_of_deeper (hroot : world.IsDirAt root there) {levels : Nat} {above : Location}
    {listed : List World.Listed}
    (hlist : world.list ((Place.ofPath root).descend above).text (root.descend above) = .ok listed)
    (hlevels : levels ≠ 0) (hdir : world.root.HasDir (there ++ above)) (hvisible : Visible (Unlisted world root) above)
    (hdeeper : ∀ name below, levels = below + 1 → world.root.HasDir (there ++ (above ++ [name])) →
      (relative ∈ entriesOf (itinerary world false root below (above ++ [name])) ↔
        ((Step.visit relative).Due world.root there (Unlisted world root) ∧ above ++ [name] <+: relative) ∧
          world.isDir (root.descend relative) ≠ .ok true)) :
    relative ∈ entriesOf (itinerary world false root levels above) ↔
      ((Step.visit relative).Due world.root there (Unlisted world root) ∧ above <+: relative) ∧
        world.isDir (root.descend relative) ≠ .ok true := by
  obtain ⟨n, hn, hleads, -⟩ := World.exists_leads_of_locateFrom hroot.1
  have hnames := hlegal.names hdir
  have hthere := hleads.descend_names (fun name hname => (hnames name hname).isName) hdir
  have hfree := Path.hasNul_descend hnul hnames
  have hfiles := fun name => @World.Leads.mem_files_iff _ _ _ _ _ _ name hthere hlegal hfree hlist
  have hdirs := fun name => @World.Leads.mem_dirs_iff _ _ _ _ _ _ name hthere hlegal hfree hlist hn
  simp only [Path.child_eq_descend, ← Path.descend_append, List.append_assoc] at hfiles hdirs
  have hdue := @due_iff_of_open _ _ _ _ (Step.visit relative) hvisible (not_unlisted hlist) hdir
  simp only [Step.relative] at hdue
  rw [mem_itinerary_iff, hdue]
  simp only [hlist, Except.ok.injEq, exists_eq_left']
  constructor
  · rintro (⟨name, hname, rfl⟩ | ⟨below, hbelow, name, hname, hlink, hmem⟩)
    · obtain ⟨hnode, hnot⟩ := (hfiles name).mp hname
      exact ⟨.inl ⟨name, hnode, rfl⟩, hnot⟩
    · have hchild := (hdirs name).mp ⟨hname, by simpa using hlink⟩
      obtain ⟨⟨hdue, hunder⟩, hnot⟩ := (hdeeper name below hbelow hchild).mp hmem
      exact ⟨.inr ⟨name, hchild, hdue, hunder⟩, hnot⟩
  · rintro ⟨⟨name, hnode, heq⟩ | ⟨name, hchild, hdue, hunder⟩, hnot⟩
    · cases heq
      exact .inl ⟨name, (hfiles name).mpr ⟨hnode, hnot⟩, rfl⟩
    · obtain ⟨below, hbelow⟩ := Nat.exists_eq_succ_of_ne_zero hlevels
      obtain ⟨hname, hlink⟩ := (hdirs name).mpr hchild
      exact .inr ⟨below, hbelow, name, hname, by rw [hlink]; rfl,
        (hdeeper name below hbelow hchild).mpr ⟨⟨hdue, hunder⟩, hnot⟩⟩

/-- From a directory on, everything further down that is no directory is handed over, if there are as many levels left
as names fit into a path. -/
theorem mem_itinerary_iff_due (hroot : world.IsDirAt root there) {levels : Nat} {above : Location}
    (hlevels : pathMax ≤ ((Place.ofPath root).descend above).text.utf8ByteSize + levels)
    (hdir : world.root.HasDir (there ++ above)) (hvisible : Visible (Unlisted world root) above) :
    relative ∈ entriesOf (itinerary world false root levels above) ↔
      ((Step.visit relative).Due world.root there (Unlisted world root) ∧ above <+: relative) ∧
        world.isDir (root.descend relative) ≠ .ok true := by
  induction levels using Nat.strongRecOn generalizing above with
  | _ levels ih =>
    cases hlist : world.list ((Place.ofPath root).descend above).text (root.descend above) with
    | error error =>
        have hnone := @due_iff_of_closed _ _ _ _ (Step.visit relative) hvisible ⟨error, hlist⟩ hdir
        rw [entriesOf_itinerary_of_error hlist]
        refine iff_of_false List.not_mem_nil fun h => ?_
        cases hnone.mp h.1
    | ok listed =>
        -- a directory that is listed has a short path, so there is a level left for its directories
        obtain ⟨-, hshort, -⟩ := World.exists_entries_of_list hlist
        refine mem_itinerary_iff_of_deeper hlegal hnul hroot hlist (by omega) hdir hvisible ?_
        rintro name below rfl hchild
        have hnamed := (hlegal.names hchild name (by simp)).ne_empty
        have hlonger := Place.utf8ByteSize_child ((Place.ofPath root).descend above) hnamed
        refine ih below (Nat.lt_succ_self below) ?_ hchild (visible_concat_iff.mpr ⟨hvisible, not_unlisted hlist⟩)
        rw [Place.descend_concat]
        omega

omit hlegal hnul in
/-- Nothing is handed over from a root that is no standing directory. -/
theorem entriesOf_itinerary_of_not_isDirAt (hroot : ∀ there, ¬world.IsDirAt root there) (followLinks : Bool)
    (levels : Nat) : entriesOf (itinerary world followLinks root levels []) = [] := by
  refine List.eq_nil_iff_forall_not_mem.mpr fun relative hmem => ?_
  obtain ⟨listed, hlist, hnames⟩ := mem_itinerary_iff.mp hmem
  rcases World.isDirAt_or_removed_of_list hlist with ⟨there, hthere⟩ | ⟨rfl, -⟩
  · exact hroot there (root.descend_nil ▸ hthere)
  · rcases hnames with ⟨name, hname, -⟩ | ⟨-, -, name, hname, -⟩
    · obtain ⟨entry, hentry, -⟩ := mem_namesWhere_iff.mp hname
      exact absurd hentry List.not_mem_nil
    · obtain ⟨entry, hentry, -⟩ := mem_namesWhere_iff.mp hname
      exact absurd hentry List.not_mem_nil

/-- A walk hands over everything below its root that is no directory and not behind one that cannot be listed. -/
theorem mem_entriesOf_iff : relative ∈ entriesOf (itinerary world false root pathMax []) ↔
    (∃ there, world.IsDirAt root there ∧ (Step.visit relative).Due world.root there (Unlisted world root)) ∧
      world.isDir (root.descend relative) ≠ .ok true := by
  by_cases hroot : ∃ there, world.IsDirAt root there
  · obtain ⟨there, hthere⟩ := hroot
    have hdir : world.root.HasDir (there ++ []) := (List.append_nil there).symm ▸ hthere.2
    rw [mem_itinerary_iff_due hlegal hnul hthere (Nat.le_add_left _ _) hdir (visible_nil _),
      and_iff_left List.nil_prefix]
    refine and_congr_left fun _ => ⟨fun hdue => ⟨there, hthere, hdue⟩, ?_⟩
    rintro ⟨other, hother, hdue⟩
    rwa [hthere.unique hother]
  · rw [entriesOf_itinerary_of_not_isDirAt (not_exists.mp hroot)]
    refine iff_of_false List.not_mem_nil ?_
    rintro ⟨⟨there, hthere, -⟩, -⟩
    exact hroot ⟨there, hthere⟩

end Members

end Walk
end ClassDump
