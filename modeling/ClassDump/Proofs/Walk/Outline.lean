import ClassDump.Proofs.Walk.Place
import ClassDump.Proofs.Walk.Seen
import Mathlib.Data.List.Infix

/-! What a walk does from beginning to end. Below its root, it hands over every file that is not behind a directory
that cannot be listed, and it reports every such directory, each once and nothing else, if the visitor leaves alone
what the walk has yet to come to. -/

namespace ClassDump.Walk

/-- What a walk does at a relative location. -/
inductive Step where
  | visit (relative : Location)
  | fail (relative : Location)
deriving DecidableEq

namespace Step

def relative : Step → Location
  | visit relative => relative
  | fail relative => relative

end Step

def visits (steps : List Step) : List Location :=
  steps.filterMap fun
    | .visit relative => some relative
    | .fail _ => none

def fails (steps : List Step) : List Location :=
  steps.filterMap fun
    | .visit _ => none
    | .fail relative => some relative

section Steps

variable {steps : List Step} {relative : Location}

theorem mem_visits_iff : relative ∈ visits steps ↔ .visit relative ∈ steps := by
  rw [visits, List.mem_filterMap]
  constructor
  · rintro ⟨step, hstep, hsome⟩
    cases step with
    | visit location => cases hsome; exact hstep
    | fail location => cases hsome
  · intro h
    exact ⟨_, h, rfl⟩

theorem mem_fails_iff : relative ∈ fails steps ↔ .fail relative ∈ steps := by
  rw [fails, List.mem_filterMap]
  constructor
  · rintro ⟨step, hstep, hsome⟩
    cases step with
    | visit location => cases hsome
    | fail location => cases hsome; exact hstep
  · intro h
    exact ⟨_, h, rfl⟩

theorem nodup_visits (h : steps.Nodup) : (visits steps).Nodup := by
  refine h.filterMap fun step other location hstep hother => ?_
  cases step <;> cases other <;> cases hstep <;> cases hother
  rfl

theorem nodup_fails (h : steps.Nodup) : (fails steps).Nodup := by
  refine h.filterMap fun step other location hstep hother => ?_
  cases step <;> cases other <;> cases hstep <;> cases hother
  rfl

end Steps

/-- No directory above the location is closed. -/
def Visible (closed : Location → Prop) (relative : Location) : Prop :=
  ∀ above, above <+: relative → above ≠ relative → ¬closed above

instance (closed : Location → Prop) [DecidablePred closed] (relative : Location) :
    Decidable (Visible closed relative) :=
  decidable_of_iff (∀ above ∈ relative.inits, above ≠ relative → ¬closed above) (by simp only [Visible, List.mem_inits])

section Visible

variable {closed : Location → Prop} {relative : Location}

theorem visible_nil (closed : Location → Prop) : Visible closed [] :=
  fun _ habove hne => absurd (List.prefix_nil.mp habove) hne

theorem visible_concat_iff {name : String} :
    Visible closed (relative ++ [name]) ↔ Visible closed relative ∧ ¬closed relative := by
  constructor
  · intro h
    refine ⟨fun above habove hne => ?_, h relative (List.prefix_append _ _) (by simp)⟩
    refine h above (habove.trans (List.prefix_append _ _)) ?_
    rintro rfl
    have hlength := habove.length_le
    rw [List.length_append, List.length_singleton] at hlength
    omega
  · rintro ⟨hvisible, hopen⟩ above habove hne
    rcases List.prefix_concat_iff.mp habove with rfl | habove
    · exact absurd rfl hne
    · by_cases heq : above = relative
      · rwa [heq]
      · exact hvisible above habove heq

/-- Nothing below a closed directory is visible. -/
theorem eq_of_visible {location : Location} (h : Visible closed location) (hclosed : closed relative)
    (hunder : relative <+: location) : location = relative := by
  by_contra hne
  exact h relative hunder (Ne.symm hne) hclosed

end Visible

/-- The step has to be done in the directory of a tree, some of whose directories are closed. -/
def Step.Due (tree : Node) (dump : Location) (closed : Location → Prop) : Step → Prop
  | visit relative => Visible closed relative ∧ ∃ node, node.isDir = false ∧ tree.bare? (dump ++ relative) = some node
  | fail relative => Visible closed relative ∧ closed relative ∧ tree.HasDir (dump ++ relative)

section Due

variable {tree : Node} {dump : Location} {closed : Location → Prop} {relative : Location} {step : Step}

theorem Step.Due.visible (h : step.Due tree dump closed) : Visible closed step.relative := by
  cases step <;> exact h.1

/-- In a closed directory the only step is to report it. -/
theorem due_iff_of_closed (hvisible : Visible closed relative) (hclosed : closed relative)
    (hdir : tree.HasDir (dump ++ relative)) :
    step.Due tree dump closed ∧ relative <+: step.relative ↔ step = .fail relative := by
  constructor
  · rintro ⟨hdue, hunder⟩
    have hsame := eq_of_visible hdue.visible hclosed hunder
    cases step with
    | fail location => exact congrArg Step.fail hsame
    | visit location =>
        obtain ⟨-, node, hnode, hbare⟩ := hdue
        rw [show location = relative from hsame, hdir] at hbare
        cases hbare
        cases hnode
  · rintro rfl
    exact ⟨⟨hvisible, hclosed, hdir⟩, List.prefix_refl _⟩

/-- In an open directory the steps are to hand over its entries and those in its directories. -/
theorem due_iff_of_open (hvisible : Visible closed relative) (hopen : ¬closed relative)
    (hdir : tree.HasDir (dump ++ relative)) :
    step.Due tree dump closed ∧ relative <+: step.relative ↔
      (∃ name, (∃ node, node.isDir = false ∧ tree.bare? (dump ++ (relative ++ [name])) = some node) ∧
        step = .visit (relative ++ [name])) ∨
      ∃ name, tree.HasDir (dump ++ (relative ++ [name])) ∧ step.Due tree dump closed ∧
        relative ++ [name] <+: step.relative := by
  constructor
  · rintro ⟨hdue, rest, hrest⟩
    cases rest with
    | nil =>
        rw [List.append_nil] at hrest
        cases step with
        | visit location =>
            obtain ⟨-, node, hnode, hbare⟩ := hdue
            rw [show location = relative from hrest.symm, hdir] at hbare
            cases hbare
            cases hnode
        | fail location => exact absurd (hrest ▸ hdue.2.1) hopen
    | cons name more =>
        have hbelow : relative ++ [name] <+: step.relative := ⟨more, by rw [← hrest, List.append_assoc]; rfl⟩
        cases step with
        | fail location =>
            have hthere := hdue.2.2
            have hlocation : location = relative ++ name :: more := hrest.symm
            rw [hlocation, List.append_cons, ← List.append_assoc] at hthere
            exact .inr ⟨name, Node.hasDir_of_hasDir_append hthere, hdue, hbelow⟩
        | visit location =>
            obtain ⟨node, hnode, hbare⟩ := hdue.2
            have hlocation : location = relative ++ name :: more := hrest.symm
            cases more with
            | nil =>
                subst hlocation
                exact .inl ⟨name, ⟨node, hnode, hbare⟩, rfl⟩
            | cons next others =>
                rw [hlocation, List.append_cons, ← List.append_assoc] at hbare
                exact .inr ⟨name, Node.hasDir_of_bare? hbare, hdue, hbelow⟩
  · rintro (⟨name, hentry, rfl⟩ | ⟨name, -, hdue, hunder⟩)
    · exact ⟨⟨visible_concat_iff.mpr ⟨hvisible, hopen⟩, hentry⟩, List.prefix_append _ _⟩
    · exact ⟨hdue, (List.prefix_append _ _).trans hunder⟩

end Due

variable {σ ε : Type}

/-- The part of a walk goes on to its end, and the steps that it adds to those done before are these, each once. -/
def Does (inv : List Step → σ → Prop) (due : Step → Prop) (steps : List Step) (result : Flow ε × State σ) : Prop :=
  ∃ next new, result = (.onward, next) ∧ inv (new ++ steps) next.inner ∧ new.Nodup ∧ ∀ step, step ∈ new ↔ due step

section Does

variable {inv : List Step → σ → Prop} {due other : Step → Prop} {steps : List Step} {result : Flow ε × State σ}

theorem Does.congr (h : Does inv due steps result) (hiff : ∀ step, due step ↔ other step) :
    Does inv other steps result := by
  obtain ⟨next, new, hresult, hinv, honce, hnew⟩ := h
  exact ⟨next, new, hresult, hinv, honce, fun step => (hnew step).trans (hiff step)⟩

/-- A part that follows adds its steps, which are others, to those of the part before it. -/
theorem Does.extend {new : List Step} (h : Does inv due (new ++ steps) result) (honce : new.Nodup)
    (hnew : ∀ step, step ∈ new ↔ other step) (hapart : ∀ step, due step → ¬other step) :
    Does inv (fun step => due step ∨ other step) steps result := by
  obtain ⟨next, more, hresult, hinv, hnodup, hmore⟩ := h
  refine ⟨next, more ++ new, hresult, by rwa [List.append_assoc], ?_, fun step => ?_⟩
  · refine List.nodup_append.mpr ⟨hnodup, honce, fun step hstep found hfound heq => ?_⟩
    subst heq
    exact hapart step ((hmore step).mp hstep) ((hnew step).mp hfound)
  · rw [List.mem_append, hmore, hnew]

theorem does_nothing {state : State σ} (hinv : inv steps state.inner) (hdue : ∀ step, ¬due step) :
    Does inv due steps ((.onward, state) : Flow ε × State σ) :=
  ⟨state, [], rfl, hinv, List.nodup_nil,
    fun step => ⟨fun h => absurd h List.not_mem_nil, fun h => absurd h (hdue step)⟩⟩

theorem does_one {step : Step} {next : State σ} (hinv : inv (step :: steps) next.inner) :
    Does inv (· = step) steps ((.onward, next) : Flow ε × State σ) :=
  ⟨next, [step], rfl, hinv, List.nodup_singleton step, fun _ => List.mem_singleton⟩

/-- The items of a list are gone through one after the other, each with steps of its own below it. -/
theorem does_each (relative : Location) {below : String → Step → Prop} {step : String → State σ → Flow ε × State σ}
    {names : List String} (hbelow : ∀ name other, below name other → relative ++ [name] <+: other.relative)
    (hstep : ∀ name ∈ names, ∀ state steps, inv steps state.inner →
      (∀ done ∈ steps, ¬relative ++ [name] <+: done.relative) → Does inv (below name) steps (step name state))
    (honce : names.Nodup) {state : State σ} (hinv : inv steps state.inner)
    (hfresh : ∀ name ∈ names, ∀ done ∈ steps, ¬relative ++ [name] <+: done.relative) :
    Does inv (fun other => ∃ name ∈ names, below name other) steps (each step names state) := by
  induction names generalizing steps state with
  | nil => exact does_nothing hinv fun _ h => by simp at h
  | cons name rest ih =>
      obtain ⟨hname, hrest⟩ := List.nodup_cons.mp honce
      obtain ⟨next, new, hresult, hnext, hnodup, hnew⟩ :=
        hstep name List.mem_cons_self state steps hinv (hfresh name List.mem_cons_self)
      have hlater : ∀ other ∈ rest, ∀ done ∈ new ++ steps, ¬relative ++ [other] <+: done.relative := by
        intro other hother done hdone hunder
        rcases List.mem_append.mp hdone with hdone | hdone
        · exact hname (eq_of_below_names (hbelow name done ((hnew done).mp hdone)) hunder ▸ hother)
        · exact hfresh other (List.mem_cons_of_mem _ hother) done hdone hunder
      have hothers := ih (fun other hother => hstep other (List.mem_cons_of_mem _ hother)) hrest hnext hlater
      have heach : each step (name :: rest) state = each step rest next := by rw [each, hresult]
      rw [heach]
      refine (hothers.extend hnodup hnew fun done hmore hdone => ?_).congr fun other => ?_
      · obtain ⟨other, hother, hunder⟩ := hmore
        exact hname (eq_of_below_names (hbelow name done hdone) (hbelow other done hunder) ▸ hother)
      · simp only [List.mem_cons, exists_eq_or_imp]
        exact or_comm

end Does

section Plain

variable {world : World} {n : Nat} {text : String} {path : Path} {there : Location} {entries : List (String × Node)}

/-- What a listing of a directory without links shows is what stands in the tree. -/
theorem mem_seen_iff_of_plain (hentries : world.root.get? there = some (.dir entries))
    (hplain : ∀ name node, world.root.bare? (there ++ [name]) = some node → node.isLink = false) (name : String)
    (isDir : Bool) :
    ⟨name, isDir⟩ ∈ (Node.dir entries).children.map (world.seen path) ↔
      ∃ node, node.isDir = isDir ∧ world.root.bare? (there ++ [name]) = some node := by
  rw [World.mem_seen_iff hentries]
  refine exists_congr fun node => and_comm.trans (and_congr_left fun hbare => ?_)
  have hseen : (world.seen path (name, node)).isDir = node.isDir := by
    simp only [World.seen, hplain name node hbare, Bool.false_and, Bool.or_false]
  rw [hseen]

/-- A directory without links that a path leads to is listed as it stands in the tree. -/
theorem exists_list_of_plain (hleads : world.Leads n path there) (hn : n ≤ linkMax)
    (hfault : world.faults.list.lookup text = none) (hpath : path.byteLength ≤ text.utf8ByteSize)
    (hlength : text.utf8ByteSize < pathMax) (hdir : world.root.HasDir there)
    (hplain : ∀ name node, world.root.bare? (there ++ [name]) = some node → node.isLink = false) :
    ∃ listed, world.list text path = .ok listed ∧
      (∀ name, name ∈ namesWhere (!·.isDir) listed ↔
        ∃ node, node.isDir = false ∧ world.root.bare? (there ++ [name]) = some node) ∧
      ∀ name, name ∈ namesWhere (·.isDir) listed ↔ world.root.HasDir (there ++ [name]) := by
  obtain ⟨entries, hentries⟩ := Node.hasDir_iff.mp hdir
  have hstat := World.stat_of_locateFrom (hleads.locateFrom (Nat.lt_of_le_of_lt hpath hlength) hn)
  rw [hentries] at hstat
  refine ⟨_, World.list_of_stat hfault hlength hstat, fun name => ?_, fun name => ?_⟩
  · rw [mem_files_iff, mem_seen_iff_of_plain hentries hplain]
  · rw [mem_dirs_iff, mem_seen_iff_of_plain hentries hplain]
    constructor
    · rintro ⟨node, hnode, hbare⟩
      rcases Node.bare_of_bare? hbare with hother | rfl
      · rw [hother] at hnode
        cases hnode
      · exact hbare
    · exact fun hdir => ⟨_, rfl, hdir⟩

theorem isLink_child_of_hasDir (hleads : world.Leads n path there) (hn : n ≤ linkMax) {name : String}
    (hname : LegalName name) (hdir : world.root.HasDir (there ++ [name])) : world.isLink (path.child name) = false := by
  unfold World.isLink
  by_cases hlength : (path.child name).byteLength < pathMax
  · obtain ⟨entries, hentries⟩ := Node.hasDir_iff.mp (Node.hasDir_of_bare? hdir)
    obtain ⟨inside, hinside⟩ := Node.hasDir_iff.mp hdir
    rw [hleads.lstat hn hentries hname hlength hinside]
    exact Bool.and_false _
  · have hlstat : world.lstat (path.child name) = .error .nameTooLong := by
      unfold World.lstat World.locateParent
      rw [Path.name_child, if_neg (not_or.mpr ⟨hname.ne_empty, hname.isName.2.1⟩), if_pos (Nat.not_lt.mp hlength)]
      rfl
    rw [hlstat]
    exact Bool.and_false _

/-- No directory below the one that a path leads to is taken for a link. -/
theorem isLink_descend_of_hasDir {dump relative : Location} (hleads : ∃ n ≤ linkMax, world.Leads n path dump)
    (hlegal : ∀ name ∈ relative, LegalName name) (hdir : world.root.HasDir (dump ++ relative)) (hne : relative ≠ []) :
    world.isLink (path.descend relative) = false := by
  obtain ⟨names, name, rfl⟩ := (List.eq_nil_or_concat relative).resolve_left hne
  rw [List.concat_eq_append] at hdir hlegal ⊢
  rw [← List.append_assoc] at hdir
  obtain ⟨n, hn, hleads⟩ := hleads
  have habove := hleads.descend_names (fun other hother => (hlegal other (List.mem_append_left _ hother)).isName)
    (Node.hasDir_of_bare? hdir)
  rw [Path.descend_append, ← Path.child_eq_descend]
  exact isLink_child_of_hasDir habove hn (hlegal name (by simp)) hdir

end Plain

/-- A visitor that a walk through the directory of a tree can rely on. It keeps a property of its state and the steps
done so far, by which a directory below which nothing was done yet is listed as it stands in the tree, unless it is
closed and cannot be listed. -/
structure Follows (visitor : Visitor σ ε) (root : Path) (tree : Node) (dump : Location) (closed : Location → Prop)
    (inv : List Step → σ → Prop) : Prop where
  refused : ∀ relative steps state, inv steps state → closed relative →
    ∃ error, (visitor.world state).list ((Place.ofPath root).descend relative).text
      (root.descend relative) = .error error
  listed : ∀ relative steps state, inv steps state → Visible closed relative → ¬closed relative →
    tree.HasDir (dump ++ relative) → (∀ done ∈ steps, ¬relative <+: done.relative) →
      ∃ entries,
        (visitor.world state).list ((Place.ofPath root).descend relative).text (root.descend relative) = .ok entries ∧
        (∀ name, name ∈ namesWhere (!·.isDir) entries ↔
          ∃ node, node.isDir = false ∧ tree.bare? (dump ++ (relative ++ [name])) = some node) ∧
        ∀ name, name ∈ namesWhere (·.isDir) entries ↔ tree.HasDir (dump ++ (relative ++ [name]))
  named : ∀ relative node, tree.bare? (dump ++ relative) = some node → ∀ name ∈ relative, LegalName name
  isLink : ∀ relative steps state, inv steps state → Visible closed relative → tree.HasDir (dump ++ relative) →
    relative ≠ [] → (!visitor.followLinks && (visitor.world state).isLink (root.descend relative)) = false
  visit : ∀ relative steps state, inv steps state.inner → (Step.visit relative).Due tree dump closed →
    .visit relative ∉ steps →
      ∃ next, hand visitor root (root.descend relative) state = (.onward, next) ∧
        inv (.visit relative :: steps) next.inner
  fail : ∀ relative steps state error, inv steps state.inner → (Step.fail relative).Due tree dump closed →
    .fail relative ∉ steps →
      inv (.fail relative :: steps) (listingFailed visitor (root.descend relative) error state).inner

namespace Follows

variable {visitor : Visitor σ ε} {root : Path} {tree : Node} {dump : Location} {closed : Location → Prop}
  {inv : List Step → σ → Prop} {relative : Location} {steps : List Step} {state : State σ}

theorem does_files (h : Follows visitor root tree dump closed inv) {entries : List World.Listed}
    (hvisible : Visible closed relative) (hopen : ¬closed relative) (honce : (entries.map (·.name)).Nodup)
    (hfiles : ∀ name, name ∈ namesWhere (!·.isDir) entries ↔
      ∃ node, node.isDir = false ∧ tree.bare? (dump ++ (relative ++ [name])) = some node)
    (hinv : inv steps state.inner) (hfresh : ∀ done ∈ steps, ¬relative <+: done.relative) :
    Does inv (fun step => ∃ name ∈ namesWhere (!·.isDir) entries, step = .visit (relative ++ [name])) steps
      (each (fun name => hand visitor root (((Place.ofPath root).descend relative).path.child name))
        (namesWhere (!·.isDir) entries) state) := by
  refine does_each relative (fun name other hother => ?_) (fun name hname later done hlater hdone => ?_)
    (nodup_namesWhere honce) hinv fun name _ done hdone hunder => ?_
  · rw [hother]
    exact List.prefix_refl _
  · have hdue : (Step.visit (relative ++ [name])).Due tree dump closed :=
      ⟨visible_concat_iff.mpr ⟨hvisible, hopen⟩, (hfiles name).mp hname⟩
    obtain ⟨after, hhand, hafter⟩ := h.visit _ done later hlater hdue fun hmem => hdone _ hmem (List.prefix_refl _)
    rw [Path.descend_append, ← Path.child_eq_descend, ← Place.path_descend_ofPath] at hhand
    rw [hhand]
    exact does_one hafter
  · exact hfresh done hdone ((List.prefix_append _ _).trans hunder)

/-- A directory is gone through if its directories are. -/
theorem does_enter_of_enterAll (h : Follows visitor root tree dump closed inv) {levels : Nat}
    (hdir : tree.HasDir (dump ++ relative)) (hvisible : Visible closed relative) (hinv : inv steps state.inner)
    (hfresh : ∀ done ∈ steps, ¬relative <+: done.relative)
    (hall : ∀ entries, (∀ name, name ∈ namesWhere (·.isDir) entries ↔ tree.HasDir (dump ++ (relative ++ [name]))) →
      ((Place.ofPath root).descend relative).text.utf8ByteSize < pathMax → (entries.map (·.name)).Nodup →
        ∀ state steps, inv steps state.inner → ¬closed relative →
          (∀ name ∈ namesWhere (·.isDir) entries, ∀ done ∈ steps, ¬relative ++ [name] <+: done.relative) →
          Does inv (fun step => ∃ name ∈ namesWhere (·.isDir) entries,
              step.Due tree dump closed ∧ relative ++ [name] <+: step.relative) steps
            (enterAll visitor root levels ((Place.ofPath root).descend relative) entries state)) :
    Does inv (fun step => step.Due tree dump closed ∧ relative <+: step.relative) steps
      (enter visitor root levels ((Place.ofPath root).descend relative) state) := by
  by_cases hclosed : closed relative
  · obtain ⟨error, hlist⟩ := h.refused relative steps state.inner hinv hclosed
    rw [← Place.path_descend_ofPath] at hlist
    rw [enter_of_error hlist]
    refine (does_one ?_).congr fun step => (due_iff_of_closed hvisible hclosed hdir).symm
    rw [Place.path_descend_ofPath]
    exact h.fail relative steps state error hinv ⟨hvisible, hclosed, hdir⟩ fun hdone =>
      hfresh _ hdone (List.prefix_refl _)
  · obtain ⟨entries, hlist, hfiles, hdirs⟩ := h.listed relative steps state.inner hinv hvisible hclosed hdir hfresh
    have honce := World.nodup_of_list hlist
    obtain ⟨-, hshort, -⟩ := World.exists_entries_of_list hlist
    rw [← Place.path_descend_ofPath] at hlist
    obtain ⟨next, new, heach, hnext, hnodup, hnew⟩ := h.does_files hvisible hclosed honce hfiles hinv hfresh
    have hapart : ∀ name ∈ namesWhere (·.isDir) entries, ∀ done ∈ new ++ steps,
        ¬relative ++ [name] <+: done.relative := by
      intro name hname done hdone hunder
      rcases List.mem_append.mp hdone with hdone | hdone
      · obtain ⟨file, hfile, rfl⟩ := (hnew done).mp hdone
        have hsame : relative ++ [name] = relative ++ [file] := hunder.eq_of_length (by simp [Step.relative])
        rw [List.append_cancel_left_eq, List.cons.injEq] at hsame
        exact not_mem_namesWhere_not honce hname (hsame.1 ▸ hfile)
      · exact hfresh done hdone ((List.prefix_append _ _).trans hunder)
    have hbelow := hall entries hdirs hshort honce next (new ++ steps) hnext hclosed hapart
    rw [enter_of_onward hlist heach]
    refine (hbelow.extend hnodup hnew fun done hdue hdone => ?_).congr fun step => ?_
    · obtain ⟨name, hname, -, hunder⟩ := hdue
      exact hapart name hname done (List.mem_append_left _ ((hnew done).mpr hdone)) hunder
    · rw [due_iff_of_open hvisible hclosed hdir]
      simp only [hfiles, hdirs]
      exact or_comm

/-- A directory is gone through to the end if there are as many levels left as names fit into a path. -/
theorem does_enter (h : Follows visitor root tree dump closed inv) {levels : Nat}
    (hlevels : pathMax ≤ ((Place.ofPath root).descend relative).text.utf8ByteSize + levels)
    (hdir : tree.HasDir (dump ++ relative)) (hvisible : Visible closed relative) (hinv : inv steps state.inner)
    (hfresh : ∀ done ∈ steps, ¬relative <+: done.relative) :
    Does inv (fun step => step.Due tree dump closed ∧ relative <+: step.relative) steps
      (enter visitor root levels ((Place.ofPath root).descend relative) state) := by
  induction levels generalizing relative steps state with
  | zero =>
      refine h.does_enter_of_enterAll hdir hvisible hinv hfresh fun entries hdirs hshort => ?_
      omega
  | succ levels ih =>
      refine h.does_enter_of_enterAll hdir hvisible hinv hfresh
        fun entries hdirs hshort honce state steps hinv hopen hbelow => ?_
      refine does_each relative (fun name other hother => hother.2) (fun name hname later done hlater hdone => ?_)
        (nodup_namesWhere honce) hinv hbelow
      have hthere := (hdirs name).mp hname
      have hchild : Visible closed (relative ++ [name]) := visible_concat_iff.mpr ⟨hvisible, hopen⟩
      have hlink := h.isLink (relative ++ [name]) done later.inner hlater hchild hthere (by simp)
      rw [Path.descend_append, ← Path.child_eq_descend, ← Place.path_descend_ofPath] at hlink
      have hnamed := (h.named _ _ hthere name (by simp)).ne_empty
      have hlonger := Place.utf8ByteSize_child ((Place.ofPath root).descend relative) hnamed
      have hroom : pathMax ≤ ((Place.ofPath root).descend (relative ++ [name])).text.utf8ByteSize + levels := by
        rw [Place.descend_concat]
        omega
      have hdeeper := @ih _ _ later hroom hthere hchild hlater hdone
      rw [Place.descend_concat] at hdeeper
      rw [hlink]
      exact hdeeper

/-- A walk does all that is due below its root, each step once and nothing else. -/
theorem exists_run (h : Follows visitor root tree dump closed inv) (hnul : root.hasNul = false)
    (hdir : tree.HasDir dump)
    {inner : σ} (hinner : inv [] inner) :
    ∃ count after steps, run visitor root inner = (.ok count, after) ∧ inv steps after ∧ steps.Nodup ∧
      ∀ step, step ∈ steps ↔ step.Due tree dump closed := by
  rw [← List.append_nil dump] at hdir
  obtain ⟨next, new, hresult, hnext, honce, hnew⟩ := @does_enter _ _ _ _ _ _ _ _ [] [] ⟨inner, 0⟩ h pathMax
    (Nat.le_add_left _ _) hdir (visible_nil closed) hinner fun _ hdone => absurd hdone List.not_mem_nil
  rw [Place.descend_nil] at hresult
  rw [List.append_nil] at hnext
  refine ⟨next.visited, next.inner, new, ?_, hnext, honce, fun step => ?_⟩
  · rw [run_eq_conclusion hnul, hresult]
    rfl
  · rw [hnew]
    exact and_iff_left (List.nil_prefix)

end Follows

end ClassDump.Walk
