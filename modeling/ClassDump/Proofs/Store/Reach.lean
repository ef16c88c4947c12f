import ClassDump.Proofs.Store.Tree

/-! What a look-up finds, as a relation. From a location, components reach another one by so many links: each step goes
to an entry, up, or to the start of a link's target. The look-up with a bound on the links finds exactly what is
reached within the bound, and what is reached stays so as long as the entries on the way stay. -/

namespace ClassDump

/-- The component asks for an entry by its name. -/
def IsName (component : String) : Prop :=
  component ≠ "." ∧ component ≠ ".." ∧ component.utf8ByteSize ≤ nameMax

namespace Node

/-- From a location, components reach another location, by so many links on the way. -/
inductive Reach (root : Node) : Nat → Location → List String → Location → Prop
  | done (here : Location) : Reach root 0 here [] here
  | dot {n here rest there} (hdir : root.HasDir here) (hrest : Reach root n here rest there) :
      Reach root n here ("." :: rest) there
  | up {n here rest there} (hdir : root.HasDir here) (hrest : Reach root n here.dropLast rest there) :
      Reach root n here (".." :: rest) there
  | down {n here name rest there} {node : Node} (hname : IsName name)
      (hnode : root.bare? (here ++ [name]) = some node) (hlink : node.isLink = false)
      (hrest : Reach root n (here ++ [name]) rest there) : Reach root n here (name :: rest) there
  | link {n here name rest there} {target : String} (hname : IsName name)
      (hnode : root.bare? (here ++ [name]) = some (.link target))
      (hrest : Reach root n (targetStart target here) (targetComponents target ++ rest) there) :
      Reach root (n + 1) here (name :: rest) there

/-- How a look-up goes on behind a link. -/
def expansion (root : Node) : Nat → Location → List String → Except Errno Location
  | 0 => fun _ _ => .error .tooManyLinks
  | links + 1 => root.locate links

theorem locate_eq (root : Node) (links : Nat) : root.locate links = root.follow (root.expansion links) := by
  cases links <;> rfl

section Follow

variable {root : Node} {expand : Location → List String → Except Errno Location} {here : Location}
  {name : String} {rest : List String}

theorem follow_dot (hdir : root.HasDir here) :
    root.follow expand here ("." :: rest) = root.follow expand here rest := by
  obtain ⟨entries, hentries⟩ := hasDir_iff.mp hdir
  rw [follow, hentries]
  simp

theorem follow_up (hdir : root.HasDir here) :
    root.follow expand here (".." :: rest) = root.follow expand here.dropLast rest := by
  obtain ⟨entries, hentries⟩ := hasDir_iff.mp hdir
  rw [follow, hentries]
  simp

theorem follow_name (hname : IsName name) (hdir : root.HasDir here) :
    root.follow expand here (name :: rest) =
      match root.bare? (here ++ [name]) with
      | none => .error .noEntry
      | some (.link target) => expand (targetStart target here) (targetComponents target ++ rest)
      | some _ => root.follow expand (here ++ [name]) rest := by
  obtain ⟨entries, hentries⟩ := hasDir_iff.mp hdir
  rw [follow, hentries, bare?, get?_child hentries]
  simp only [if_neg hname.1, if_neg hname.2.1, if_neg (Nat.not_lt.mpr hname.2.2)]
  cases entries.lookup name with
  | none => rfl
  | some node => cases node <;> rfl

end Follow

variable {root : Node} {links n m : Nat} {here there : Location} {components rest : List String}

/-- A look-up goes along what is reached and on from there with the links that are left. -/
theorem Reach.locate_append (h : root.Reach n here components there) (links : Nat) (rest : List String) :
    root.locate links here (components ++ rest) =
      if n ≤ links then root.locate (links - n) there rest else .error .tooManyLinks := by
  induction h generalizing links rest with
  | done here => simp
  | dot hdir _ ih =>
      rw [List.cons_append, locate_eq, follow_dot hdir, ← locate_eq]
      exact ih links rest
  | up hdir _ ih =>
      rw [List.cons_append, locate_eq, follow_up hdir, ← locate_eq]
      exact ih links rest
  | @down n here name components there node hname hnode hlink _ ih =>
      rw [List.cons_append, locate_eq, follow_name hname (hasDir_of_bare? hnode), hnode]
      cases node with
      | link target => cases hlink
      | file data => exact (congrFun₂ (locate_eq root links) _ _).symm.trans (ih links rest)
      | special => exact (congrFun₂ (locate_eq root links) _ _).symm.trans (ih links rest)
      | dir entries => exact (congrFun₂ (locate_eq root links) _ _).symm.trans (ih links rest)
  | @link n here name components there target hname hnode _ ih =>
      rw [List.cons_append, locate_eq, follow_name hname (hasDir_of_bare? hnode), hnode]
      cases links with
      | zero => simp [expansion]
      | succ links =>
          have hrest := ih links rest
          rw [List.append_assoc] at hrest
          simp only [expansion, hrest, Nat.add_le_add_iff_right, Nat.add_sub_add_right]

theorem Reach.locate_eq_ite (h : root.Reach n here components there) (links : Nat) :
    root.locate links here components = if n ≤ links then .ok there else .error .tooManyLinks := by
  have happend := h.locate_append links []
  rw [List.append_nil, locate_eq root (links - n)] at happend
  exact happend

theorem exists_reach_of_follow {expand : Location → List String → Except Errno Location}
    (hexpand : ∀ start components there, expand start components = .ok there →
      ∃ n < links, root.Reach n start components there)
    (h : root.follow expand here components = .ok there) : ∃ n ≤ links, root.Reach n here components there := by
  induction components generalizing here with
  | nil =>
      cases h
      exact ⟨0, Nat.zero_le _, .done _⟩
  | cons component rest ih =>
      have hdir : root.HasDir here := by
        rw [follow] at h
        split at h
        · cases h
        · cases h
        · cases h
        · cases h
        · next entries hentries => exact hasDir_iff.mpr ⟨entries, hentries⟩
      by_cases hdot : component = "."
      · subst hdot
        rw [follow_dot hdir] at h
        obtain ⟨n, hn, hreach⟩ := ih h
        exact ⟨n, hn, .dot hdir hreach⟩
      by_cases hup : component = ".."
      · subst hup
        rw [follow_up hdir] at h
        obtain ⟨n, hn, hreach⟩ := ih h
        exact ⟨n, hn, .up hdir hreach⟩
      have hname : IsName component := by
        refine ⟨hdot, hup, ?_⟩
        obtain ⟨entries, hentries⟩ := hasDir_iff.mp hdir
        rw [follow, hentries] at h
        simp only [if_neg hdot, if_neg hup] at h
        split at h
        · cases h
        · next hlength => exact Nat.not_lt.mp hlength
      rw [follow_name hname hdir] at h
      split at h
      · cases h
      · next target hlink =>
        obtain ⟨n, hn, hreach⟩ := hexpand _ _ _ h
        exact ⟨n + 1, hn, .link hname hlink hreach⟩
      · next node hnode hother =>
        obtain ⟨n, hn, hreach⟩ := ih h
        refine ⟨n, hn, .down hname hother ?_ hreach⟩
        cases node with
        | link target => exact absurd rfl (hnode target)
        | file _ => rfl
        | special => rfl
        | dir _ => rfl

theorem exists_reach_of_locate (h : root.locate links here components = .ok there) :
    ∃ n ≤ links, root.Reach n here components there := by
  induction links generalizing here components there with
  | zero => exact exists_reach_of_follow (fun _ _ _ hfound => by cases hfound) h
  | succ links ih =>
      refine exists_reach_of_follow (fun start components there hfound => ?_) h
      obtain ⟨n, hn, hreach⟩ := ih hfound
      exact ⟨n, Nat.lt_succ_of_le hn, hreach⟩

theorem Reach.unique (h : root.Reach n here components there) {other : Location}
    (hother : root.Reach m here components other) : n = m ∧ there = other := by
  have hn := h.locate_eq_ite
  have hm := hother.locate_eq_ite
  have hmax := (hn (max n m)).symm.trans (hm (max n m))
  rw [if_pos (Nat.le_max_left n m), if_pos (Nat.le_max_right n m)] at hmax
  refine ⟨?_, Except.ok.inj hmax⟩
  rcases Nat.lt_trichotomy n m with hlt | heq | hlt
  · have hfew := (hn n).symm.trans (hm n)
    rw [if_pos (Nat.le_refl n), if_neg (Nat.not_le.mpr hlt)] at hfew
    cases hfew
  · exact heq
  · have hfew := (hn m).symm.trans (hm m)
    rw [if_neg (Nat.not_le.mpr hlt), if_pos (Nat.le_refl m)] at hfew
    cases hfew

theorem Reach.append (h : root.Reach n here components there) {final : Location}
    (hrest : root.Reach m there rest final) : root.Reach (n + m) here (components ++ rest) final := by
  induction h with
  | done here => rwa [Nat.zero_add]
  | dot hdir _ ih => exact .dot hdir (ih hrest)
  | up hdir _ ih => exact .up hdir (ih hrest)
  | down hname hnode hlink _ ih => exact .down hname hnode hlink (ih hrest)
  | @link n here name components there target hname hnode _ ih =>
      have happend := ih hrest
      rw [List.append_assoc] at happend
      rw [Nat.add_right_comm]
      exact .link hname hnode happend

/-- What is reached along two parts of the components is reached along the first and then along the second. -/
theorem Reach.split {all : List String} (h : root.Reach n here all there) (hall : all = components ++ rest) :
    ∃ k l mid, n = k + l ∧ root.Reach k here components mid ∧ root.Reach l mid rest there := by
  induction h generalizing components with
  | done here =>
      obtain ⟨rfl, rfl⟩ := List.append_eq_nil_iff.mp hall.symm
      exact ⟨0, 0, here, rfl, .done here, .done here⟩
  | dot hdir hreach ih =>
      cases components with
      | nil =>
          cases hall
          exact ⟨0, _, _, (Nat.zero_add _).symm, .done _, .dot hdir hreach⟩
      | cons component components =>
          obtain ⟨rfl, hrest⟩ := List.cons.inj hall
          obtain ⟨k, l, mid, hn, hfirst, hsecond⟩ := ih hrest
          exact ⟨k, l, mid, hn, .dot hdir hfirst, hsecond⟩
  | up hdir hreach ih =>
      cases components with
      | nil =>
          cases hall
          exact ⟨0, _, _, (Nat.zero_add _).symm, .done _, .up hdir hreach⟩
      | cons component components =>
          obtain ⟨rfl, hrest⟩ := List.cons.inj hall
          obtain ⟨k, l, mid, hn, hfirst, hsecond⟩ := ih hrest
          exact ⟨k, l, mid, hn, .up hdir hfirst, hsecond⟩
  | down hname hnode hlink hreach ih =>
      cases components with
      | nil =>
          cases hall
          exact ⟨0, _, _, (Nat.zero_add _).symm, .done _, .down hname hnode hlink hreach⟩
      | cons component components =>
          obtain ⟨rfl, hrest⟩ := List.cons.inj hall
          obtain ⟨k, l, mid, hn, hfirst, hsecond⟩ := ih hrest
          exact ⟨k, l, mid, hn, .down hname hnode hlink hfirst, hsecond⟩
  | @link n here name more there target hname hnode hreach ih =>
      cases components with
      | nil =>
          cases hall
          exact ⟨0, _, _, (Nat.zero_add _).symm, .done _, .link hname hnode hreach⟩
      | cons component components =>
          obtain ⟨rfl, rfl⟩ := List.cons.inj hall
          obtain ⟨k, l, mid, hn, hfirst, hsecond⟩ := ih (List.append_assoc _ _ _).symm
          exact ⟨k + 1, l, mid, by omega, .link hname hnode hfirst, hsecond⟩

theorem Reach.hasDir (h : root.Reach n here components there) (hthere : root.HasDir there) : root.HasDir here := by
  cases h with
  | done => exact hthere
  | dot hdir _ => exact hdir
  | up hdir _ => exact hdir
  | down _ hnode _ _ => exact hasDir_of_bare? hnode
  | link _ hnode _ => exact hasDir_of_bare? hnode

/-- What is reached is reached in every tree in which the directories, files and links on the way are the same. -/
theorem Reach.mono (h : root.Reach n here components there) {other : Node}
    (hother : ∀ location node, root.bare? location = some node → other.bare? location = some node) :
    other.Reach n here components there := by
  induction h with
  | done here => exact .done here
  | dot hdir _ ih => exact .dot (hother _ _ hdir) ih
  | up hdir _ ih => exact .up (hother _ _ hdir) ih
  | down hname hnode hlink _ ih => exact .down hname (hother _ _ hnode) hlink ih
  | link hname hnode _ ih => exact .link hname (hother _ _ hnode) ih

/-- Names lead down to what is there, where no link stands in the way. -/
theorem reach_names {names : List String} (hnames : ∀ name ∈ names, IsName name) {node : Node}
    (hnode : root.bare? (here ++ names) = some node) (hlink : node.isLink = false) :
    root.Reach 0 here names (here ++ names) := by
  induction names generalizing here with
  | nil =>
      rw [List.append_nil]
      exact .done here
  | cons name rest ih =>
      have hsplit : here ++ name :: rest = (here ++ [name]) ++ rest := by simp
      rw [hsplit] at hnode ⊢
      have hrest := ih (fun other hother => hnames other (List.mem_cons_of_mem _ hother)) hnode
      have hname := hnames name List.mem_cons_self
      cases rest with
      | nil =>
          rw [List.append_nil] at hnode
          exact .down hname hnode hlink hrest
      | cons next more => exact .down hname (hasDir_of_bare? hnode) rfl hrest

/-- Between two links names only lead down, so there are no more of them than the links and the depth of the tree
allow. -/
theorem Reach.length_le {names : List String} {height : Nat}
    (hheight : ∀ location, root.HasDir location → location.length ≤ height) (h : root.Reach n here names there)
    (hnames : ∀ name ∈ names, IsName name) : here.length + names.length ≤ n * (height + 1) + there.length := by
  induction names generalizing n here with
  | nil =>
      cases h
      rw [List.length_nil]
      omega
  | cons name rest ih =>
      have hname := hnames name List.mem_cons_self
      have hlast : ∀ other ∈ rest, IsName other := fun other hother => hnames other (List.mem_cons_of_mem _ hother)
      cases h with
      | dot hdir _ => exact absurd rfl hname.1
      | up hdir _ => exact absurd rfl hname.2.1
      | down _ _ _ hrest =>
          have hdown := ih hrest hlast
          rw [List.length_append, List.length_singleton] at hdown
          rw [List.length_cons]
          omega
      | link _ hnode hrest =>
          -- the link may lead anywhere, but it costs as much as the tree is deep
          obtain ⟨k, l, mid, rfl, -, hreach⟩ := hrest.split rfl
          have hdeep := hheight here (hasDir_of_bare? hnode)
          have hdown := ih hreach hlast
          have hcost : (k + l + 1) * (height + 1) = k * (height + 1) + l * (height + 1) + (height + 1) := by
            rw [Nat.add_mul, Nat.add_mul, Nat.one_mul]
          rw [List.length_cons]
          omega

end Node
end ClassDump
