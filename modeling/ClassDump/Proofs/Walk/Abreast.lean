import ClassDump.Proofs.Path.Descend
import ClassDump.Proofs.Walk.Listing
import ClassDump.Proofs.Walk.Place

/-! Two walks through one directory, side by side, of which the first sees fewer directories: a link that leads nowhere
to the first may lead to a directory by the time that the second comes to it. The first walk hands such an entry over,
and the second passes it over; everything else is handed over by both. Both walks go on to their ends, and a relation
of their states, which gets a mark for every entry that was handed over, is kept. -/

namespace ClassDump.Walk

variable {σ τ ε κ : Type}

/-- What is noted of an entry that the first walk handed over: whether the second one handed it over too, and what
became of it. -/
structure Mark (κ : Type) where
  relative : Location
  both : Bool
  note : κ

section Names

variable {listed seen : List World.Listed} {condition other : World.Listed → Bool}

/-- Names in ascending order are told by which they are. -/
theorem namesWhere_eq_filter (hlisted : (listed.map (·.name)).Nodup) (hseen : (seen.map (·.name)).Nodup)
    (hsub : ∀ name ∈ namesWhere condition seen, name ∈ namesWhere other listed) :
    namesWhere condition seen = (namesWhere other listed).filter (· ∈ namesWhere condition seen) := by
  have hperm : (namesWhere condition seen).Perm
      ((namesWhere other listed).filter (· ∈ namesWhere condition seen)) := by
    rw [List.perm_ext_iff_of_nodup (nodup_namesWhere hseen) ((nodup_namesWhere hlisted).filter _)]
    intro name
    rw [List.mem_filter, decide_eq_true_iff]
    exact ⟨fun hname => ⟨hsub name hname, hname⟩, And.right⟩
  exact hperm.eq_of_pairwise (fun _ _ _ _ => String.le_antisymm) (pairwise_namesWhere condition seen)
    ((pairwise_namesWhere other listed).filter _)

theorem not_mem_of_nodup (honce : (listed.map (·.name)).Nodup) {name : String} (hdir : ⟨name, true⟩ ∈ listed) :
    ⟨name, false⟩ ∉ listed :=
  fun hfile => absurd (List.inj_on_of_nodup_map honce hdir hfile rfl) (by simp)

end Names

section Abreast

variable {rel : List (Mark κ) → σ → τ → Prop} {marks : List (Mark κ)} {allowed other : Mark κ → Prop}
  {result : Flow ε × State σ} {copy : Flow ε × State τ}

/-- Two parts of walks go on to their ends, in related states with these new marks. -/
def Abreast (rel : List (Mark κ) → σ → τ → Prop) (marks : List (Mark κ)) (allowed : Mark κ → Prop)
    (result : Flow ε × State σ) (copy : Flow ε × State τ) : Prop :=
  ∃ next later new, result = (.onward, next) ∧ copy = (.onward, later) ∧ rel (new ++ marks) next.inner later.inner ∧
    ∀ mark ∈ new, allowed mark

theorem Abreast.mono (h : Abreast rel marks allowed result copy) (hother : ∀ mark, allowed mark → other mark) :
    Abreast rel marks other result copy := by
  obtain ⟨next, later, new, hresult, hcopy, hrel, hnew⟩ := h
  exact ⟨next, later, new, hresult, hcopy, hrel, fun mark hmark => hother mark (hnew mark hmark)⟩

/-- A part that follows adds its marks to those of the part before it. -/
theorem Abreast.extend {new : List (Mark κ)} (h : Abreast rel (new ++ marks) allowed result copy)
    (hnew : ∀ mark ∈ new, allowed mark) : Abreast rel marks allowed result copy := by
  obtain ⟨next, later, more, hresult, hcopy, hrel, hmore⟩ := h
  refine ⟨next, later, more ++ new, hresult, hcopy, by rwa [List.append_assoc], fun mark hmark => ?_⟩
  rcases List.mem_append.mp hmark with hmark | hmark
  · exact hmore mark hmark
  · exact hnew mark hmark

theorem abreast_still {state : State σ} {copied : State τ} (hrel : rel marks state.inner copied.inner) :
    Abreast rel marks allowed ((.onward, state) : Flow ε × State σ) (.onward, copied) :=
  ⟨state, copied, [], rfl, rfl, hrel, fun _ hmark => absurd hmark List.not_mem_nil⟩

theorem abreast_one {mark : Mark κ} {next : State σ} {later : State τ} (hmark : allowed mark)
    (hrel : rel (mark :: marks) next.inner later.inner) :
    Abreast rel marks allowed ((.onward, next) : Flow ε × State σ) (.onward, later) :=
  ⟨next, later, [mark], rfl, rfl, hrel, fun _ h => List.mem_singleton.mp h ▸ hmark⟩

theorem each_filter_cons {picks : String → Bool} {step : String → State σ → Flow ε × State σ} {name : String}
    {rest : List String} {state next : State σ}
    (h : (if picks name = true then step name state else (.onward, state)) = (.onward, next)) :
    each step ((name :: rest).filter picks) state = each step (rest.filter picks) next := by
  rw [List.filter_cons]
  split
  · next hpicks =>
    rw [if_pos hpicks] at h
    rw [each, h]
  · next hpicks =>
    rw [if_neg hpicks] at h
    cases h
    rfl

variable {relative : Location} {names first second : List String} {step : String → State σ → Flow ε × State σ}
  {copyStep : String → State τ → Flow ε × State τ} {start : List (Mark κ)} {state : State σ} {copied : State τ}

/-- The step for one name, by one of the walks or by both. What was marked before at the name or below it is passed over
by the second walk and not gone through by the first. -/
def StepsAbreast (rel : List (Mark κ) → σ → τ → Prop) (relative : Location) (first second : List String)
    (step : String → State σ → Flow ε × State σ) (copyStep : String → State τ → Flow ε × State τ)
    (start : List (Mark κ)) (name : String) : Prop :=
  ∀ marks state copied, start <:+ marks → rel marks state.inner copied.inner →
    (∀ mark ∈ marks, relative ++ [name] <+: mark.relative → name ∉ first ∧ mark.both = false) →
      Abreast rel marks
        (fun mark => relative ++ [name] <+: mark.relative ∧ name ∈ first ∧ (mark.both = true → name ∈ second))
        (if name ∈ first then step name state else (.onward, state))
        (if name ∈ second then copyStep name copied else (.onward, copied))

theorem abreast_filter (hstep : ∀ name ∈ names, StepsAbreast rel relative first second step copyStep start name)
    (honce : names.Nodup) (hstart : start <:+ marks) (hrel : rel marks state.inner copied.inner)
    (hroom : ∀ name ∈ names, ∀ mark ∈ marks, relative ++ [name] <+: mark.relative → name ∉ first ∧ mark.both = false) :
    Abreast rel marks
      (fun mark => ∃ name, relative ++ [name] <+: mark.relative ∧ name ∈ first ∧ (mark.both = true → name ∈ second))
      (each step (names.filter (· ∈ first)) state) (each copyStep (names.filter (· ∈ second)) copied) := by
  induction names generalizing marks state copied with
  | nil => exact abreast_still hrel
  | cons name rest ih =>
      obtain ⟨hname, hrest⟩ := List.nodup_cons.mp honce
      obtain ⟨next, later, new, hnext, hlater, hrel', hnew⟩ :=
        hstep name List.mem_cons_self marks state copied hstart hrel (hroom name List.mem_cons_self)
      have hroom' : ∀ other ∈ rest, ∀ mark ∈ new ++ marks, relative ++ [other] <+: mark.relative →
          other ∉ first ∧ mark.both = false := by
        intro other hother mark hmark hunder
        rcases List.mem_append.mp hmark with hmark | hmark
        · exact absurd (eq_of_below_names (hnew mark hmark).1 hunder ▸ hother) hname
        · exact hroom other (List.mem_cons_of_mem _ hother) mark hmark hunder
      have hothers := ih (fun other hother => hstep other (List.mem_cons_of_mem _ hother)) hrest
        (hstart.trans (List.suffix_append _ _)) hrel' hroom'
      rw [each_filter_cons (by simpa using hnext), each_filter_cons (by simpa using hlater)]
      exact hothers.extend fun mark hmark => ⟨name, hnew mark hmark⟩

/-- Two lists of names, picked from one list, are gone through side by side. -/
theorem abreast_each (relative : Location) (hfirst : first = names.filter (· ∈ first))
    (hsecond : second = names.filter (· ∈ second))
    (hstep : ∀ name ∈ names, StepsAbreast rel relative first second step copyStep start name)
    (honce : names.Nodup) (hstart : start <:+ marks) (hrel : rel marks state.inner copied.inner)
    (hroom : ∀ name ∈ names, ∀ mark ∈ marks, relative ++ [name] <+: mark.relative → name ∉ first ∧ mark.both = false) :
    Abreast rel marks
      (fun mark => ∃ name, relative ++ [name] <+: mark.relative ∧ name ∈ first ∧ (mark.both = true → name ∈ second))
      (each step first state) (each copyStep second copied) := by
  have hfilter := abreast_filter hstep honce hstart hrel hroom
  rwa [← hfirst, ← hsecond] at hfilter

end Abreast

/-- What the two walks are shown of a directory: the same names, and as a directory what the first is shown as one. -/
structure Shown (dir way leaf hidden : Location → Prop) (relative : Location) (listed seen : List World.Listed) :
    Prop where
  names : ∀ name isDir, ⟨name, isDir⟩ ∈ seen → ∃ before, ⟨name, before⟩ ∈ listed
  dirs : ∀ name, ⟨name, true⟩ ∈ listed →
    ⟨name, true⟩ ∈ seen ∧ (dir (relative ++ [name]) ∨ way (relative ++ [name]))
  files : ∀ name, ⟨name, false⟩ ∈ listed →
    ⟨name, false⟩ ∈ seen ∧ leaf (relative ++ [name]) ∨ ⟨name, true⟩ ∈ seen ∧ hidden (relative ++ [name])

namespace Shown

variable {dir way leaf hidden : Location → Prop} {relative : Location} {listed seen : List World.Listed}
  (h : Shown dir way leaf hidden relative listed seen) (hseen : (seen.map (·.name)).Nodup)
include h

theorem namesWhere_dirs_subset : ∀ name ∈ namesWhere (·.isDir) listed, name ∈ namesWhere (·.isDir) seen :=
  fun name hname => mem_dirs_iff.mpr (h.dirs name (mem_dirs_iff.mp hname)).1

include hseen

theorem namesWhere_files_subset : ∀ name ∈ namesWhere (!·.isDir) seen, name ∈ namesWhere (!·.isDir) listed := by
  intro name hname
  obtain ⟨before, hbefore⟩ := h.names name _ (mem_files_iff.mp hname)
  cases before with
  | false => exact mem_files_iff.mpr hbefore
  | true => exact absurd (mem_files_iff.mp hname) (not_mem_of_nodup hseen (h.dirs name hbefore).1)

/-- What only the second walk takes for a directory is hidden from it. -/
theorem hidden_of_dir {name : String} (hdir : ⟨name, true⟩ ∈ seen) (hnot : ⟨name, true⟩ ∉ listed) :
    hidden (relative ++ [name]) := by
  obtain ⟨before, hbefore⟩ := h.names name _ hdir
  cases before with
  | true => exact absurd hbefore hnot
  | false =>
      rcases h.files name hbefore with ⟨hfile, -⟩ | ⟨-, hhidden⟩
      · exact absurd hfile (not_mem_of_nodup hseen hdir)
      · exact hhidden

end Shown

/-- Two visitors of which the second sees at least the directories that the first sees. What stands at a location below
the root is a directory to both, a link to one that both pass over, an entry that both hand over, or a link that has
come to lead to a directory since the first walk and is hidden from the second. -/
structure Covers (visitor : Visitor σ ε) (other : Visitor τ ε) (root : Path) (dir way leaf : Location → Prop)
    (hidden : List (Mark κ) → Location → Prop) (rel : List (Mark κ) → σ → τ → Prop) : Prop where
  list : ∀ relative marks state copy, dir relative → rel marks state copy →
    (∀ mark ∈ marks, ¬relative <+: mark.relative) →
      (∃ error refusal,
        (visitor.world state).list ((Place.ofPath root).descend relative).text (root.descend relative) = .error error ∧
        (other.world copy).list ((Place.ofPath root).descend relative).text (root.descend relative) =
          .error refusal) ∨
      ∃ listed seen,
        (visitor.world state).list ((Place.ofPath root).descend relative).text (root.descend relative) = .ok listed ∧
        (other.world copy).list ((Place.ofPath root).descend relative).text (root.descend relative) = .ok seen ∧
        Shown dir way leaf (hidden marks) relative listed seen
  grown : ∀ location marks later, marks <:+ later → hidden marks location → hidden later location
  handed : ∀ location marks (state : State σ) (copy : State τ), leaf location → rel marks state.inner copy.inner →
    (∀ mark ∈ marks, ¬location <+: mark.relative) →
      ∃ mark next later, mark.relative = location ∧ hand visitor root (root.descend location) state = (.onward, next) ∧
        hand other root (root.descend location) copy = (.onward, later) ∧ rel (mark :: marks) next.inner later.inner
  missed : ∀ location marks (state : State σ) (copy : State τ), hidden marks location →
    rel marks state.inner copy.inner → (∀ mark ∈ marks, ¬location <+: mark.relative) →
      ∃ mark next, mark.relative = location ∧ mark.both = false ∧
        hand visitor root (root.descend location) state = (.onward, next) ∧ rel (mark :: marks) next.inner copy.inner
  failed : ∀ path error refusal marks (state : State σ) (copy : State τ), rel marks state.inner copy.inner →
    rel marks (listingFailed visitor path error state).inner (listingFailed other path refusal copy).inner
  enters : ∀ location marks state copy, dir location → location ≠ [] → rel marks state copy →
    (!visitor.followLinks && (visitor.world state).isLink (root.descend location)) = false ∧
      (!other.followLinks && (other.world copy).isLink (root.descend location)) = false
  skips : ∀ location marks state copy, way location → rel marks state copy →
    (!visitor.followLinks && (visitor.world state).isLink (root.descend location)) = true ∧
      (!other.followLinks && (other.world copy).isLink (root.descend location)) = true
  passes : ∀ location marks state copy, hidden marks location → rel marks state copy →
    (∀ mark ∈ marks, location <+: mark.relative → mark.both = false) →
      (!other.followLinks && (other.world copy).isLink (root.descend location)) = true

namespace Covers

variable {visitor : Visitor σ ε} {other : Visitor τ ε} {root : Path} {dir way leaf : Location → Prop}
  {hidden : List (Mark κ) → Location → Prop} {rel : List (Mark κ) → σ → τ → Prop}
  (h : Covers visitor other root dir way leaf hidden rel) {relative : Location} {start marks : List (Mark κ)}
  {listed seen : List World.Listed} {state : State σ} {copied : State τ}

section Listed

variable (hlisted : (listed.map (·.name)).Nodup) (hseen : (seen.map (·.name)).Nodup)
  (hshown : Shown dir way leaf (hidden start) relative listed seen)
include h hlisted hseen hshown

/-- The first walk hands over all that it does not take for a directory, and the second what it does not either. -/
theorem abreast_files (hrel : rel start state.inner copied.inner)
    (hfresh : ∀ mark ∈ start, ¬relative <+: mark.relative) :
    Abreast rel start
      (fun mark => ∃ name, ⟨name, false⟩ ∈ listed ∧ relative ++ [name] <+: mark.relative ∧
        (mark.both = true → ⟨name, false⟩ ∈ seen))
      (each (fun name => hand visitor root (((Place.ofPath root).descend relative).path.child name))
        (namesWhere (!·.isDir) listed) state)
      (each (fun name => hand other root (((Place.ofPath root).descend relative).path.child name))
        (namesWhere (!·.isDir) seen) copied) := by
  have hsub := hshown.namesWhere_files_subset hseen
  have hall : namesWhere (!·.isDir) listed = (namesWhere (!·.isDir) listed).filter (· ∈ namesWhere (!·.isDir) listed) :=
    (List.filter_eq_self.mpr fun _ hname => decide_eq_true hname).symm
  refine (abreast_each relative hall (namesWhere_eq_filter hlisted hseen hsub)
    (fun name hname marks state copied hstart hrel hroom => ?_) (nodup_namesWhere hlisted) List.suffix_rfl hrel
    fun name _ mark hmark hunder => absurd ((List.prefix_append _ _).trans hunder) (hfresh mark hmark)).mono
      fun mark hmark => ?_
  · have hfresh' : ∀ mark ∈ marks, ¬relative ++ [name] <+: mark.relative :=
      fun mark hmark hunder => (hroom mark hmark hunder).1 hname
    rw [if_pos hname, Place.child_descend_ofPath]
    rcases hshown.files name (mem_files_iff.mp hname) with ⟨hfile, hleaf⟩ | ⟨hdir, hhidden⟩
    · obtain ⟨mark, next, later, hrelative, hnext, hlater, hrel'⟩ := h.handed _ marks state copied hleaf hrel hfresh'
      rw [if_pos (mem_files_iff.mpr hfile), hnext, hlater]
      exact abreast_one ⟨hrelative ▸ List.prefix_refl _, hname, fun _ => mem_files_iff.mpr hfile⟩ hrel'
    · have hnot : name ∉ namesWhere (!·.isDir) seen :=
        fun hfile => not_mem_of_nodup hseen hdir (mem_files_iff.mp hfile)
      obtain ⟨mark, next, hrelative, hboth, hnext, hrel'⟩ :=
        h.missed _ marks state copied (h.grown _ _ _ hstart hhidden) hrel hfresh'
      rw [if_neg hnot, hnext]
      exact abreast_one ⟨hrelative ▸ List.prefix_refl _, hname, fun htrue => absurd (hboth ▸ htrue) (by simp)⟩ hrel'
  · obtain ⟨name, hunder, hname, hboth⟩ := hmark
    exact ⟨name, mem_files_iff.mp hname, hunder, fun htrue => mem_files_iff.mp (hboth htrue)⟩

/-- The directories are gone through if each of those that both enter is. -/
theorem abreast_enterAll {levels : Nat}
    (hbelow : ∀ below < levels, ∀ name marks (state : State σ) (copied : State τ), dir (relative ++ [name]) →
      rel marks state.inner copied.inner → (∀ mark ∈ marks, ¬relative ++ [name] <+: mark.relative) →
        Abreast rel marks (relative ++ [name] <+: ·.relative)
          (enter visitor root below ((Place.ofPath root).descend (relative ++ [name])) state)
          (enter other root below ((Place.ofPath root).descend (relative ++ [name])) copied))
    (hstart : start <:+ marks) (hrel : rel marks state.inner copied.inner)
    (hroom : ∀ name, ⟨name, true⟩ ∈ seen → ∀ mark ∈ marks, relative ++ [name] <+: mark.relative →
      ⟨name, true⟩ ∉ listed ∧ mark.both = false) :
    Abreast rel marks (relative <+: ·.relative)
      (enterAll visitor root levels ((Place.ofPath root).descend relative) listed state)
      (enterAll other root levels ((Place.ofPath root).descend relative) seen copied) := by
  cases levels with
  | zero => exact abreast_still hrel
  | succ below =>
      have hsub := hshown.namesWhere_dirs_subset
      have hall : namesWhere (·.isDir) seen = (namesWhere (·.isDir) seen).filter (· ∈ namesWhere (·.isDir) seen) :=
        (List.filter_eq_self.mpr fun _ hname => decide_eq_true hname).symm
      refine (abreast_each relative (namesWhere_eq_filter hseen hlisted hsub) hall
        (fun name hname marks state copied hstart hrel hroom => ?_) (nodup_namesWhere hseen) hstart hrel
        fun name hname mark hmark hunder => ?_).mono fun mark hmark => ?_
      · rw [if_pos hname, Place.child_descend_ofPath, ← Place.descend_concat]
        by_cases hshows : name ∈ namesWhere (·.isDir) listed
        · rw [if_pos hshows]
          rcases (hshown.dirs name (mem_dirs_iff.mp hshows)).2 with hdir | hway
          · obtain ⟨hlink, hlink'⟩ := h.enters _ marks state.inner copied.inner hdir (by simp) hrel
            rw [hlink, hlink']
            exact (hbelow below (Nat.lt_succ_self _) name marks state copied hdir hrel fun mark hmark hunder =>
              (hroom mark hmark hunder).1 hshows).mono fun mark hunder => ⟨hunder, hshows, fun _ => hname⟩
          · obtain ⟨hlink, hlink'⟩ := h.skips _ marks state.inner copied.inner hway hrel
            rw [hlink, hlink']
            exact abreast_still hrel
        · -- what only the second walk takes for a directory is a link, and the second walk passes it over
          have hhidden := hshown.hidden_of_dir hseen (mem_dirs_iff.mp hname) fun hdir => hshows (mem_dirs_iff.mpr hdir)
          have hlink := h.passes _ marks state.inner copied.inner (h.grown _ _ _ hstart hhidden) hrel
            fun mark hmark hunder => (hroom mark hmark hunder).2
          rw [if_neg hshows, hlink]
          exact abreast_still hrel
      · obtain ⟨hnot, hboth⟩ := hroom name (mem_dirs_iff.mp hname) mark hmark hunder
        exact ⟨fun hdir => hnot (mem_dirs_iff.mp hdir), hboth⟩
      · obtain ⟨name, hunder, -⟩ := hmark
        exact (List.prefix_append _ _).trans hunder

end Listed

include h

theorem abreast_enter {levels : Nat} (hdir : dir relative) (hrel : rel marks state.inner copied.inner)
    (hfresh : ∀ mark ∈ marks, ¬relative <+: mark.relative) :
    Abreast rel marks (relative <+: ·.relative)
      (enter visitor root levels ((Place.ofPath root).descend relative) state)
      (enter other root levels ((Place.ofPath root).descend relative) copied) := by
  induction levels using Nat.strongRecOn generalizing relative marks state copied with
  | _ levels ih =>
    have hpath := Place.path_descend_ofPath root relative
    rcases h.list relative marks state.inner copied.inner hdir hrel hfresh with
      ⟨error, refusal, hlist, hlist'⟩ | ⟨listed, seen, hlist, hlist', hshown⟩
    · rw [← hpath] at hlist hlist'
      rw [enter_of_error hlist, enter_of_error hlist']
      exact abreast_still (h.failed _ error refusal marks state copied hrel)
    · have hlisted := World.nodup_of_list hlist
      have hseen := World.nodup_of_list hlist'
      rw [← hpath] at hlist hlist'
      obtain ⟨next, later, new, hnext, hlater, hrel', hnew⟩ := h.abreast_files hlisted hseen hshown hrel hfresh
      have hroom : ∀ name, ⟨name, true⟩ ∈ seen → ∀ mark ∈ new ++ marks, relative ++ [name] <+: mark.relative →
          ⟨name, true⟩ ∉ listed ∧ mark.both = false := by
        intro name hname mark hmark hunder
        rcases List.mem_append.mp hmark with hmark | hmark
        · obtain ⟨file, hfile, hunder', hboth⟩ := hnew mark hmark
          obtain rfl := eq_of_below_names hunder hunder'
          refine ⟨fun hthere => not_mem_of_nodup hlisted hthere hfile, ?_⟩
          rw [Bool.eq_false_iff]
          exact fun htrue => not_mem_of_nodup hseen hname (hboth htrue)
        · exact absurd ((List.prefix_append _ _).trans hunder) (hfresh mark hmark)
      have hdirs := h.abreast_enterAll hlisted hseen hshown (fun below hlt name _ _ _ hchild hrel hfresh =>
        ih below hlt hchild hrel hfresh) (List.suffix_append new marks) hrel' hroom
      rw [enter_of_onward hlist hnext, enter_of_onward hlist' hlater]
      refine hdirs.extend fun mark hmark => ?_
      obtain ⟨name, -, hunder, -⟩ := hnew mark hmark
      exact (List.prefix_append _ _).trans hunder

/-- Two walks from one root both come to their ends. -/
theorem exists_run (hnul : root.hasNul = false) (hdir : dir []) {inner : σ} {copy : τ} (hrel : rel [] inner copy) :
    ∃ count visited marks after later, run visitor root inner = (.ok count, after) ∧
      run other root copy = (.ok visited, later) ∧ rel marks after later := by
  obtain ⟨next, later, new, hnext, hlater, hrel', -⟩ := @abreast_enter _ _ _ _ _ _ _ _ _ _ _ _ h [] [] ⟨inner, 0⟩
    ⟨copy, 0⟩ pathMax hdir hrel fun _ hmark => absurd hmark List.not_mem_nil
  rw [Place.descend_nil] at hnext hlater
  rw [List.append_nil] at hrel'
  refine ⟨next.visited, later.visited, new, next.inner, later.inner, ?_, ?_, hrel'⟩
  · rw [run_eq_conclusion hnul, hnext]
    rfl
  · rw [run_eq_conclusion hnul, hlater]
    rfl

end Covers

end ClassDump.Walk
